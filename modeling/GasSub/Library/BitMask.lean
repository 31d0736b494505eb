import Mathlib.Algebra.Order.Ring.Int

/-!
# Bit masks assembled by loops

Two loop shapes recur wherever a byte stands for a row of output ports: a mask
is collected one bit at a time (`mask |= bit << i`), and the masks of several
devices are merged into one accumulator (`acc |= mask`). Both are characterized
bit by bit, for every width and every loop body of that shape.
-/
namespace GasSub.Library.BitMask

variable {w : Nat} {α : Type}

/-- One pass of a merging loop per element: bit `k` of the accumulator is set
exactly when it was set before or some element's mask sets it. -/
theorem getLsbD_foldl_or (mask : α → BitVec w) (elements : List α) (acc : BitVec w) (k : Nat) :
    (elements.foldl (fun acc x => acc ||| mask x) acc).getLsbD k =
      (acc.getLsbD k || elements.any fun x => (mask x).getLsbD k) := by
  induction elements generalizing acc with
  | nil => simp
  | cons head tail ih =>
    rw [List.foldl_cons, ih]
    simp [Bool.or_assoc]

/-- `for (i = 0; i < n; i++) mask |= bit(i) << i` for one-bit terms. -/
def collectBits (bit : Nat → BitVec w) (n : Nat) : BitVec w :=
  (List.range n).foldl (fun mask i => mask ||| (bit i <<< i)) 0

/-- The collected mask holds term `k` at position `k`, and nothing else. -/
theorem getLsbD_collectBits (bit : Nat → BitVec w) (n k : Nat) (inside : k < w)
    (single : ∀ i j, j ≠ 0 → (bit i).getLsbD j = false) :
    (collectBits bit n).getLsbD k = (decide (k < n) && (bit k).getLsbD 0) := by
  have shifted : ∀ i, (bit i <<< i).getLsbD k = (decide (k = i) && (bit i).getLsbD 0) := by
    intro i
    rw [BitVec.getLsbD_shiftLeft]
    rcases Nat.lt_trichotomy k i with below | same | above
    · simp [below, Nat.ne_of_lt below]
    · subst same
      simp [inside]
    · have away : (bit i).getLsbD (k - i) = false := single i (k - i) (by omega)
      simp [away, Nat.ne_of_gt above]
  rw [collectBits, getLsbD_foldl_or]
  simp only [BitVec.ofNat_eq_ofNat, BitVec.getLsbD_zero, Bool.false_or, shifted]
  rw [Bool.eq_iff_iff]
  simp only [List.any_eq_true, List.mem_range, Bool.and_eq_true, decide_eq_true_eq]
  constructor
  · intro found
    obtain ⟨i, counted, rfl, set⟩ := found
    exact ⟨counted, set⟩
  · intro both
    exact ⟨k, both.1, rfl, both.2⟩

end GasSub.Library.BitMask
