import Mathlib.Algebra.Order.Ring.Int

/-!
# Exclusive sums of words

The words of a sequence added bit by bit without carry. Changing one of them
changes the sum by the difference of its old and its new value, whatever the
others are.
-/
namespace GasSub.Library.XorSum

variable {w : Nat} {f g : Nat → BitVec w}

/-- `f 0 ^^^ … ^^^ f (n - 1)`. -/
def xorSum (f : Nat → BitVec w) : Nat → BitVec w
  | 0 => 0
  | n + 1 => xorSum f n ^^^ f n

theorem xor_cancel_left (x y : BitVec w) : x ^^^ (x ^^^ y) = y := by
  rw [← BitVec.xor_assoc, BitVec.xor_self, BitVec.zero_xor]

theorem xorSum_congr {n : Nat} (same : ∀ i < n, g i = f i) : xorSum g n = xorSum f n := by
  induction n with
  | zero => rfl
  | succ n ih =>
    have earlier := ih fun i inside => same i (Nat.lt_succ_of_lt inside)
    rw [xorSum, xorSum, earlier, same n (Nat.lt_succ_self n)]

theorem xorSum_change {n k : Nat} (inside : k < n) (same : ∀ i < n, i ≠ k → g i = f i) :
    xorSum g n = xorSum f n ^^^ (f k ^^^ g k) := by
  induction n with
  | zero => exact absurd inside (Nat.not_lt_zero k)
  | succ n ih =>
    rcases Nat.lt_succ_iff_lt_or_eq.mp inside with earlier | last
    · have sum := ih earlier fun i bound => same i (Nat.lt_succ_of_lt bound)
      have tail := same n (Nat.lt_succ_self n) (Nat.ne_of_gt earlier)
      rw [xorSum, xorSum, sum, tail, BitVec.xor_assoc, BitVec.xor_comm _ (f n), ← BitVec.xor_assoc]
    · subst last
      have sum : xorSum g k = xorSum f k := xorSum_congr fun i bound =>
        same i (Nat.lt_succ_of_lt bound) (Nat.ne_of_lt bound)
      rw [xorSum, xorSum, sum, BitVec.xor_assoc, xor_cancel_left]

end GasSub.Library.XorSum
