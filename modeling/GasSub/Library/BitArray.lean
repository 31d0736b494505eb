import GasSub.Library.ByteMemory
import GasSub.Library.Cells

/-!
# Bits in byte memory

Memory from an address on as a row of bits, the lowest bit of each byte first, and rows
of bits of which a range is overwritten. A range may be overwritten piece by piece, and
a word of two bytes that is read, changed and written back overwrites sixteen bits of
the row and nothing else.
-/
namespace GasSub.Library.BitArray
open GasSub.Library.ByteMemory GasSub.Library.ByteWord GasSub.Library.Cells

/-- Bit `i` of the row that begins at `base`. -/
def bitAt (m : Memory) (base i : Nat) : Bool := (m (base + i / 8)).getLsbD (i % 8)

/-- A row with `n` bits of `v` from `start` on. -/
def overwrite (bits : Nat → Bool) (start n : Nat) (v : Nat → Bool) : Nat → Bool := fun i =>
  if start ≤ i ∧ i < start + n then v (i - start) else bits i

/-- A row with `n` bits of `v` added from `start` on, where a set bit stays set. -/
def orInto (bits : Nat → Bool) (start n : Nat) (v : Nat → Bool) : Nat → Bool := fun i =>
  bits i || (decide (start ≤ i ∧ i < start + n) && v (i - start))

/-! ### Rows -/

@[simp] theorem overwrite_zero (bits v : Nat → Bool) (start : Nat) :
    overwrite bits start 0 v = bits := by
  funext i
  exact if_neg (by omega)

/-- Two pieces side by side are one. -/
theorem overwrite_append (bits v : Nat → Bool) (start n k : Nat) :
    overwrite (overwrite bits start n v) (start + n) k (fun j => v (n + j)) =
      overwrite bits start (n + k) v := by
  funext i
  unfold overwrite
  by_cases second : start + n ≤ i ∧ i < start + n + k
  · have whole : start ≤ i ∧ i < start + (n + k) := by omega
    have place : n + (i - (start + n)) = i - start := by omega
    rw [if_pos second, if_pos whole]
    exact congrArg v place
  · rw [if_neg second]
    by_cases first : start ≤ i ∧ i < start + n
    · have whole : start ≤ i ∧ i < start + (n + k) := by omega
      rw [if_pos first, if_pos whole]
    · have outside : ¬ (start ≤ i ∧ i < start + (n + k)) := by omega
      rw [if_neg first, if_neg outside]

theorem overwrite_congr {bits v u : Nat → Bool} {start n : Nat} (same : ∀ i < n, v i = u i) :
    overwrite bits start n v = overwrite bits start n u := by
  funext i
  unfold overwrite
  split
  · case isTrue inside => exact same (i - start) (by omega)
  · rfl

/-- Of the last of `q + 1` bytes only `r` bits are kept. -/
theorem overwrite_trim (bits v : Nat → Bool) (q r : Nat) :
    overwrite (overwrite bits 0 (8 * (q + 1)) v) (8 * q) 8
        (fun k => decide (k < r) && overwrite bits 0 (8 * (q + 1)) v (8 * q + k)) =
      overwrite bits 0 (8 * (q + 1)) fun j => decide (j < 8 * q + r) && v j := by
  funext i
  unfold overwrite
  dsimp only
  by_cases last : 8 * q ≤ i ∧ i < 8 * q + 8
  · have place : 8 * q + (i - 8 * q) = i := by omega
    have kept : i - 8 * q < r ↔ i < 8 * q + r := by omega
    rw [if_pos last, if_pos (by omega), place, if_pos (by omega), Nat.sub_zero,
      decide_eq_decide.mpr kept]
  · rw [if_neg last]
    by_cases inside : 0 ≤ i ∧ i < 0 + 8 * (q + 1)
    · rw [if_pos inside, if_pos inside, decide_eq_true (by omega), Bool.true_and]
    · rw [if_neg inside, if_neg inside]

/-- Clear bits add nothing. -/
theorem orInto_clear {bits v : Nat → Bool} {start n : Nat} (clear : ∀ i < n, v i = false) :
    orInto bits start n v = bits := by
  funext i
  unfold orInto
  by_cases inside : start ≤ i ∧ i < start + n
  · rw [clear (i - start) (by omega), Bool.and_false, Bool.or_false]
  · rw [decide_eq_false inside, Bool.false_and, Bool.or_false]

/-- Sixteen bits from `start` on of which `n` are replaced by those of `v` from place `p` on,
and the further bits of `v`, eight in all, are added. -/
theorem overwrite_field {bits v word : Nat → Bool} {start p n : Nat} (inside : p < 8)
    (few : n ≤ 8) (narrow : ∀ k, 8 ≤ k → v k = false)
    (field : ∀ j < 16, word j = if p ≤ j ∧ j < p + n then v (j - p)
      else bits (start + j) || (decide (p ≤ j) && v (j - p))) :
    overwrite bits start 16 word =
      orInto (overwrite bits (start + p) n v) (start + p + n) (8 - n) fun j => v (n + j) := by
  funext i
  unfold orInto overwrite
  dsimp only
  by_cases near : start ≤ i ∧ i < start + 16
  · obtain ⟨j, rfl⟩ := Nat.exists_eq_add_of_le near.1
    rw [if_pos near, Nat.add_sub_cancel_left, field j (by omega)]
    by_cases before : j < p
    · rw [if_neg (by omega), if_neg (by omega), decide_eq_false (by omega),
        decide_eq_false (by omega), Bool.false_and, Bool.false_and]
    · have place : start + j - (start + p) = j - p := by omega
      by_cases within : j < p + n
      · rw [if_pos (by omega), if_pos (by omega), decide_eq_false (by omega), Bool.false_and,
          Bool.or_false, place]
      · have behind : n + (start + j - (start + p + n)) = j - p := by omega
        rw [if_neg (by omega), if_neg (by omega), decide_eq_true (by omega), Bool.true_and, behind]
        by_cases eight : j - p < 8
        · rw [decide_eq_true (by omega), Bool.true_and]
        · rw [narrow (j - p) (by omega), Bool.and_false]
  · rw [if_neg near, if_neg (by omega), decide_eq_false (by omega), Bool.false_and, Bool.or_false]

theorem orInto_congr {bits v u : Nat → Bool} {start n : Nat} (same : ∀ i < n, v i = u i) :
    orInto bits start n v = orInto bits start n u := by
  funext i
  unfold orInto
  by_cases inside : start ≤ i ∧ i < start + n
  · rw [same (i - start) (by omega)]
  · rw [decide_eq_false inside, Bool.false_and, Bool.false_and]

/-! ### Memory -/

theorem bitAt_add (m : Memory) (base q i : Nat) : bitAt m (base + q) i = bitAt m base (8 * q + i) := by
  have byte : (8 * q + i) / 8 = q + i / 8 := by omega
  have place : (8 * q + i) % 8 = i % 8 := by omega
  rw [bitAt, bitAt, byte, place, Nat.add_assoc]

/-- A byte is its eight bits. -/
theorem eq_of_bitAt {m m' : Memory} {base j : Nat}
    (same : ∀ k < 8, bitAt m' base (8 * j + k) = bitAt m base (8 * j + k)) :
    m' (base + j) = m (base + j) := by
  apply BitVec.eq_of_getLsbD_eq
  intro k inside
  have bit := same k inside
  have byte : (8 * j + k) / 8 = j := by omega
  have place : (8 * j + k) % 8 = k := by omega
  rw [bitAt, bitAt, byte, place] at bit
  exact bit

/-- The bits of a byte that is read. -/
theorem getLsbD_byte (m : Memory) (base j : Nat) {k : Nat} (inside : k < 8) :
    (m (base + j)).getLsbD k = bitAt m base (8 * j + k) := by
  have byte : (8 * j + k) / 8 = j := by omega
  have place : (8 * j + k) % 8 = k := by omega
  rw [bitAt, byte, place]

/-- A stored byte overwrites eight bits. -/
theorem bitAt_store (m : Memory) (base j : Nat) (byte : BitVec 8) :
    bitAt (store m (base + j) [byte]) base = overwrite (bitAt m base) (8 * j) 8 byte.getLsbD := by
  funext i
  unfold overwrite
  by_cases inside : 8 * j ≤ i ∧ i < 8 * j + 8
  · have here : base + i / 8 = base + j + 0 := by omega
    have place : i % 8 = i - 8 * j := by omega
    rw [if_pos inside, bitAt, here, place, store_inside m (base + j) 0 [byte] Nat.one_pos]
    rfl
  · have outside : base + i / 8 < base + j ∨ base + j + 1 ≤ base + i / 8 := by omega
    rw [if_neg inside, bitAt, store_outside m (base + j) _ [byte] outside, bitAt]

/-- The bits of a word that is read. -/
theorem getLsbD_load16 (m : Memory) (base q j : Nat) :
    (load16 m (base + q)).getLsbD j = (decide (j < 16) && bitAt m base (8 * q + j)) := by
  rw [load16, join16, BitVec.getLsbD_or, BitVec.getLsbD_shiftLeft, BitVec.getLsbD_setWidth,
    BitVec.getLsbD_setWidth]
  by_cases low : j < 8
  · have wide : j < 16 := by omega
    rw [getLsbD_byte m base q low]
    simp [low, wide]
  · by_cases wide : j < 16
    · have high := getLsbD_byte m base (q + 1) (k := j - 8) (by omega)
      have place : 8 * (q + 1) + (j - 8) = 8 * q + j := by omega
      have near : j - 8 < 16 := by omega
      rw [← Nat.add_assoc, place] at high
      rw [high]
      simp [low, wide, near, BitVec.getLsbD_of_ge (m (base + q)) j (by omega)]
    · simp [wide, BitVec.getLsbD_of_ge (m (base + q)) j (by omega)]

/-- A word written back overwrites sixteen bits. -/
theorem bitAt_store16 (m : Memory) (base q : Nat) (w : BitVec 16) :
    bitAt (store (store m (base + q) [byteOf w 0]) (base + q + 1) [byteOf w 1]) base =
      overwrite (bitAt m base) (8 * q) 16 w.getLsbD := by
  have second : 8 * (q + 1) = 8 * q + 8 := by omega
  have low : overwrite (bitAt m base) (8 * q) 8 (byteOf w 0).getLsbD =
      overwrite (bitAt m base) (8 * q) 8 w.getLsbD :=
    overwrite_congr fun i inside => by
      rw [getLsbD_byteOf, decide_eq_true inside, Bool.true_and, Nat.mul_zero, Nat.zero_add]
  have high : ∀ bits, overwrite bits (8 * q + 8) 8 (byteOf w 1).getLsbD =
      overwrite bits (8 * q + 8) 8 fun j => w.getLsbD (8 + j) :=
    fun bits => overwrite_congr fun i inside => by
      rw [getLsbD_byteOf, decide_eq_true inside, Bool.true_and, Nat.mul_one]
  rw [Nat.add_assoc, bitAt_store, bitAt_store, low, second, high, overwrite_append]

/-! ### Packed bits -/

/-- Eight bits to a byte; the last byte is filled up with zeros. -/
def packBits (bits : List Bool) : List (BitVec 8) :=
  (List.range ((bits.length + 7) / 8)).map fun k =>
    (BitVec.ofBoolListLE ((bits.drop (8 * k)).take 8)).setWidth 8

theorem getLsbD_packed (bits : List Bool) (k : Nat) {i : Nat} (inside : i < 8) :
    ((BitVec.ofBoolListLE ((bits.drop (8 * k)).take 8)).setWidth 8).getLsbD i =
      bits.getD (8 * k + i) false := by
  rw [BitVec.getLsbD_setWidth, BitVec.getLsbD_ofBoolListLE, decide_eq_true inside, Bool.true_and,
    List.getD_eq_getElem?_getD, List.getElem?_take_of_lt inside, List.getElem?_drop,
    List.getD_eq_getElem?_getD]

@[simp] theorem length_packBits (bits : List Bool) :
    (packBits bits).length = (bits.length + 7) / 8 := by
  rw [packBits, List.length_map, List.length_range]

/-- Memory with packed bits in it. -/
theorem bitAt_packed {m : Memory} {base : Nat} {bits : List Bool}
    (placed : Placed m base (packBits bits)) {i : Nat}
    (inside : i < 8 * (packBits bits).length) : bitAt m base i = bits.getD i false := by
  rw [Placed, length_packBits] at placed
  rw [length_packBits] at inside
  have byte : (slice m base ((bits.length + 7) / 8))[i / 8]? = (packBits bits)[i / 8]? := by rw [placed]
  have bound : i / 8 < (bits.length + 7) / 8 := by omega
  have place : 8 * (i / 8) + i % 8 = i := by omega
  rw [getElem?_slice, if_pos bound, packBits, List.getElem?_map, List.getElem?_range bound,
    Option.map_some] at byte
  rw [bitAt, Option.some.inj byte, getLsbD_packed bits _ (Nat.mod_lt i (by decide)), place]

/-- Memory whose bits are those of a list, and clear behind them, holds them packed. -/
theorem placed_packBits {m : Memory} {base : Nat} {bits : List Bool}
    (same : ∀ i < 8 * ((bits.length + 7) / 8), bitAt m base i = bits.getD i false) :
    Placed m base (packBits bits) := by
  rw [Placed, length_packBits]
  refine List.map_congr_left fun k member => BitVec.eq_of_getLsbD_eq fun i inside => ?_
  have bound := List.mem_range.mp member
  rw [getLsbD_byte m base k inside, same _ (by omega), getLsbD_packed bits k inside]

/-- A row overwritten with a list. -/
theorem overwrite_eq_replace {bits v : Nat → Bool} {start : Nat} {values : List Bool}
    (same : ∀ i (bound : i < values.length), v i = values[i]) :
    overwrite bits start values.length v = replace bits start values := by
  refine replace_eq_of _ _ _ (fun i bound => ?_) fun i outside => if_neg (by omega)
  rw [overwrite, if_pos (by omega), Nat.add_sub_cancel_left, same i bound]

end GasSub.Library.BitArray
