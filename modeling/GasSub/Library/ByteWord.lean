import Mathlib.Algebra.Order.Ring.Int

/-!
# Words and their bytes

Splitting a word into bytes by shift and truncation, and joining bytes back by
widening, shift and or, as C code does on unsigned integers.
-/
namespace GasSub.Library.ByteWord

/-- Byte `k` of a word, counted from the least significant. -/
def byteOf {w : Nat} (v : BitVec w) (k : Nat) : BitVec 8 := (v >>> (8 * k)).setWidth 8

/-- `(high << 8) | low`. -/
def join16 (high low : BitVec 8) : BitVec 16 := high.setWidth 16 <<< 8 ||| low.setWidth 16

/-- The two bytes of a word, the high one first. -/
def bigEndian (v : BitVec 16) : List (BitVec 8) := [byteOf v 1, byteOf v 0]

/-- `(b3 << 24) | (b2 << 16) | (b1 << 8) | b0`. -/
def join32 (b3 b2 b1 b0 : BitVec 8) : BitVec 32 :=
  b3.setWidth 32 <<< 24 ||| b2.setWidth 32 <<< 16 ||| b1.setWidth 32 <<< 8 ||| b0.setWidth 32

theorem getLsbD_byteOf {w : Nat} (v : BitVec w) (k i : Nat) :
    (byteOf v k).getLsbD i = (decide (i < 8) && v.getLsbD (8 * k + i)) := by
  simp [byteOf, BitVec.getLsbD_setWidth, BitVec.getLsbD_ushiftRight]

/-- Byte `k` of a word, put back in its place, gives the word's bits there. -/
theorem getLsbD_placed {w : Nat} (v : BitVec w) (k i : Nat) (inside : i < w) :
    ((byteOf v k).setWidth w <<< (8 * k)).getLsbD i =
      (decide (8 * k ≤ i ∧ i < 8 * k + 8) && v.getLsbD i) := by
  rw [BitVec.getLsbD_shiftLeft, BitVec.getLsbD_setWidth, getLsbD_byteOf]
  rcases Nat.lt_or_ge i (8 * k) with below | above
  · simp [below, Nat.not_le.mpr below]
  · have place : 8 * k + (i - 8 * k) = i := by omega
    have narrow : i - 8 * k < w := by omega
    have within : i - 8 * k < 8 ↔ i < 8 * k + 8 := by omega
    simp [inside, Nat.not_lt.mpr above, above, place, narrow, within]

@[simp] theorem join16_bytes (v : BitVec 16) : join16 (byteOf v 1) (byteOf v 0) = v := by
  apply BitVec.eq_of_getLsbD_eq
  intro i inside
  have high := getLsbD_placed v 1 i inside
  have low := getLsbD_placed v 0 i inside
  have covered : (8 ≤ i ∧ i < 16) ∨ i < 8 := by omega
  simp only [Nat.mul_zero, BitVec.shiftLeft_zero, Nat.mul_one, Nat.reduceAdd, Nat.zero_le,
    true_and, Nat.zero_add] at high low
  simp only [join16, BitVec.getLsbD_or, high, low, ← Bool.and_or_distrib_right, ← Bool.decide_or,
    covered, decide_true, Bool.true_and]

@[simp] theorem join32_bytes (v : BitVec 32) :
    join32 (byteOf v 3) (byteOf v 2) (byteOf v 1) (byteOf v 0) = v := by
  apply BitVec.eq_of_getLsbD_eq
  intro i inside
  have b3 := getLsbD_placed v 3 i inside
  have b2 := getLsbD_placed v 2 i inside
  have b1 := getLsbD_placed v 1 i inside
  have b0 := getLsbD_placed v 0 i inside
  have covered : (((24 ≤ i ∧ i < 32) ∨ (16 ≤ i ∧ i < 24)) ∨ (8 ≤ i ∧ i < 16)) ∨ i < 8 := by omega
  simp only [Nat.reduceMul, BitVec.shiftLeft_zero, Nat.reduceAdd, Nat.zero_le, true_and,
    Nat.zero_add] at b3 b2 b1 b0
  simp only [join32, BitVec.getLsbD_or, b3, b2, b1, b0, ← Bool.and_or_distrib_right,
    ← Bool.decide_or, covered, decide_true, Bool.true_and]

theorem toNat_join16 (high low : BitVec 8) :
    (join16 high low).toNat = 256 * high.toNat + low.toNat := by
  have fits : (high.toNat <<< 8) % 2 ^ 16 = high.toNat <<< 8 := by
    rw [Nat.shiftLeft_eq]
    omega
  have joined := Nat.shiftLeft_add_eq_or_of_lt low.isLt high.toNat
  simp only [join16, BitVec.toNat_or, BitVec.toNat_shiftLeft, BitVec.toNat_setWidth]
  have wide : high.toNat % 2 ^ 16 = high.toNat := by omega
  have narrow : low.toNat % 2 ^ 16 = low.toNat := by omega
  rw [wide, narrow, fits, ← joined, Nat.shiftLeft_eq]
  omega

/-- A 32-bit word is two 16-bit words, the high one first. -/
theorem toNat_join32 (b3 b2 b1 b0 : BitVec 8) :
    (join32 b3 b2 b1 b0).toNat = 65536 * (join16 b3 b2).toNat + (join16 b1 b0).toNat := by
  have halves : join32 b3 b2 b1 b0 =
      (join16 b3 b2).setWidth 32 <<< 16 ||| (join16 b1 b0).setWidth 32 := by
    apply BitVec.eq_of_getLsbD_eq
    intro i inside
    simp only [join32, join16, BitVec.getLsbD_or, BitVec.getLsbD_shiftLeft, BitVec.getLsbD_setWidth]
    grind
  have fits : ((join16 b3 b2).toNat <<< 16) % 2 ^ 32 = (join16 b3 b2).toNat <<< 16 := by
    rw [Nat.shiftLeft_eq]
    omega
  have joined := Nat.shiftLeft_add_eq_or_of_lt (join16 b1 b0).isLt (join16 b3 b2).toNat
  rw [halves]
  simp only [BitVec.toNat_or, BitVec.toNat_shiftLeft, BitVec.toNat_setWidth]
  have wide : (join16 b3 b2).toNat % 2 ^ 32 = (join16 b3 b2).toNat := by omega
  have narrow : (join16 b1 b0).toNat % 2 ^ 32 = (join16 b1 b0).toNat := by omega
  rw [wide, narrow, fits, ← joined, Nat.shiftLeft_eq]
  omega

/-- Each byte of a joined word can be read back from it. -/
theorem join16_inj (high low high' low' : BitVec 8) :
    join16 high low = join16 high' low' ↔ high = high' ∧ low = low' := by
  simp only [← BitVec.toNat_inj, toNat_join16]
  omega

theorem join32_inj (b3 b2 b1 b0 b3' b2' b1' b0' : BitVec 8) :
    join32 b3 b2 b1 b0 = join32 b3' b2' b1' b0' ↔
      b3 = b3' ∧ b2 = b2' ∧ b1 = b1' ∧ b0 = b0' := by
  simp only [← BitVec.toNat_inj, toNat_join32, toNat_join16]
  omega

theorem length_flatMap_bigEndian (values : List (BitVec 16)) :
    (values.flatMap bigEndian).length = 2 * values.length := by
  induction values with
  | nil => rfl
  | cons v values ih =>
    rw [List.flatMap_cons, List.length_append, ih, List.length_cons]
    simp only [bigEndian, List.length_cons, List.length_nil]
    omega

end GasSub.Library.ByteWord
