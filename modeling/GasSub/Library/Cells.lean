import Mathlib.Data.List.Basic
import Mathlib.Logic.Function.Basic

/-!
# Numbered cells

Cells as a function of their number, a run of them that is read and a run that is
replaced. What is read back after a replacement, what stays, and how replacements of
neighbouring runs come together.
-/
namespace GasSub.Library.Cells

/-- The contents of `n` cells from `start` on. -/
def slice {α : Type} (cells : Nat → α) (start n : Nat) : List α :=
  (List.range n).map fun i => cells (start + i)

/-- The cells with `values` from `start` on. -/
def replace {α : Type} (cells : Nat → α) (start : Nat) (values : List α) : Nat → α := fun i =>
  if start ≤ i then (values[i - start]?).getD (cells i) else cells i

section
variable {α : Type} (cells : Nat → α) (start : Nat) (values : List α)

@[simp] theorem length_slice (n : Nat) : (slice cells start n).length = n := by
  rw [slice, List.length_map, List.length_range]

theorem getElem?_slice (n i : Nat) :
    (slice cells start n)[i]? = if i < n then some (cells (start + i)) else none := by
  unfold slice
  by_cases inside : i < n
  · simp [inside]
  · simp [inside]

theorem slice_congr {other : Nat → α} {n : Nat} (same : ∀ i < n, other (start + i) = cells (start + i)) :
    slice other start n = slice cells start n :=
  List.map_congr_left fun i member => same i (List.mem_range.mp member)

theorem slice_succ (n : Nat) : slice cells start (n + 1) = cells start :: slice cells (start + 1) n := by
  unfold slice
  rw [List.range_succ_eq_map, List.map_cons, List.map_map]
  refine congrArg (cells start :: ·) (List.map_congr_left fun i _ => ?_)
  exact congrArg cells (by simp only [Nat.succ_eq_add_one]; omega)

theorem replace_inside {i : Nat} (inside : i < values.length) :
    replace cells start values (start + i) = values[i] := by
  unfold replace
  rw [if_pos (Nat.le_add_right start i), Nat.add_sub_cancel_left, List.getElem?_eq_getElem inside]
  rfl

theorem replace_outside {i : Nat} (outside : i < start ∨ start + values.length ≤ i) :
    replace cells start values i = cells i := by
  unfold replace
  split
  · case isTrue behind =>
    rw [List.getElem?_eq_none (by omega)]
    rfl
  · rfl

@[simp] theorem replace_nil : replace cells start [] = cells := by
  funext i
  exact replace_outside cells start [] (by simp only [List.length_nil]; omega)

/-- What was written is read back. -/
@[simp] theorem slice_replace : slice (replace cells start values) start values.length = values := by
  apply List.ext_getElem
  · exact length_slice _ _ _
  · intro i _ inside
    simp only [slice, List.getElem_map, List.getElem_range]
    exact replace_inside cells start values inside

/-- A replacement is the cells it takes its values from, inside the run. -/
theorem replace_eq_of {other : Nat → α}
    (inside : ∀ i (bound : i < values.length), other (start + i) = values[i])
    (outside : ∀ i, i < start ∨ start + values.length ≤ i → other i = cells i) :
    other = replace cells start values := by
  funext i
  by_cases within : start ≤ i ∧ i < start + values.length
  · obtain ⟨j, rfl⟩ := Nat.exists_eq_add_of_le within.1
    have bound : j < values.length := by omega
    rw [inside j bound, replace_inside cells start values bound]
  · rw [outside i (by omega), replace_outside cells start values (by omega)]

/-- A run that is replaced by what it holds. -/
@[simp] theorem replace_slice (n : Nat) : replace cells start (slice cells start n) = cells := by
  symm
  refine replace_eq_of _ _ _ (fun i bound => ?_) fun i _ => rfl
  simp only [slice, List.getElem_map, List.getElem_range]

/-- The same values in the same run make cells agree where they agreed before and in the run. -/
theorem replace_same {other : Nat → α} {i : Nat}
    (same : cells i = other i ∨ (start ≤ i ∧ i < start + values.length)) :
    replace cells start values i = replace other start values i := by
  by_cases within : start ≤ i ∧ i < start + values.length
  · obtain ⟨j, rfl⟩ := Nat.exists_eq_add_of_le within.1
    have bound : j < values.length := by omega
    rw [replace_inside cells start values bound, replace_inside other start values bound]
  · rw [replace_outside _ _ _ (by omega), replace_outside _ _ _ (by omega)]
    exact same.resolve_right within

/-- One cell. -/
theorem update_eq_replace (v : α) : Function.update cells start v = replace cells start [v] := by
  refine replace_eq_of _ _ _ (fun i bound => ?_) fun i outside => ?_
  · obtain rfl := Nat.lt_one_iff.mp bound
    exact Function.update_self _ _ _
  · rw [List.length_singleton] at outside
    exact Function.update_of_ne (by omega) _ _

/-- The cells behind a run that is written are those a second run begins with. -/
theorem replace_append (more : List α) :
    replace cells start (values ++ more) =
      replace (replace cells start values) (start + values.length) more := by
  symm
  refine replace_eq_of _ _ _ (fun i bound => ?_) fun i outside => ?_
  · rw [List.length_append] at bound
    by_cases first : i < values.length
    · rw [replace_outside _ _ _ (by omega), replace_inside _ _ _ first, List.getElem_append_left first]
    · obtain ⟨j, rfl⟩ := Nat.exists_eq_add_of_le (Nat.le_of_not_lt first)
      rw [← Nat.add_assoc, replace_inside _ _ _ (by omega), List.getElem_append_right (by omega)]
      simp only [Nat.add_sub_cancel_left]
  · rw [List.length_append] at outside
    rw [replace_outside _ _ _ (by omega), replace_outside _ _ _ (by omega)]

end

/-! ### What stays -/

/-- The cells from `bound` on are as before. -/
def KeptFrom {α : Type} (bound : Nat) (before after : Nat → α) : Prop :=
  ∀ i, bound ≤ i → after i = before i

section
variable {α : Type} {bound : Nat} {before after : Nat → α}

theorem KeptFrom.refl (cells : Nat → α) : KeptFrom bound cells cells := fun _ _ => rfl

theorem KeptFrom.trans {last : Nat → α} (first : KeptFrom bound before after)
    (second : KeptFrom bound after last) : KeptFrom bound before last :=
  fun i behind => (second i behind).trans (first i behind)

theorem KeptFrom.replace (kept : KeptFrom bound before after) {start : Nat} {values : List α}
    (inside : start + values.length ≤ bound) : KeptFrom bound before (Cells.replace after start values) :=
  fun i behind => (replace_outside after start values (Or.inr (by omega))).trans (kept i behind)

end

/-! ### Contents -/

/-- The cells from `start` on are `values`. -/
def Placed {α : Type} (cells : Nat → α) (start : Nat) (values : List α) : Prop :=
  slice cells start values.length = values

instance {α : Type} [DecidableEq α] (cells : Nat → α) (start : Nat) (values : List α) :
    Decidable (Placed cells start values) := inferInstanceAs (Decidable (_ = _))

section
variable {α : Type} {cells : Nat → α} {start : Nat}

theorem placed_nil : Placed cells start [] := rfl

@[simp] theorem placed_cons {v : α} {values : List α} :
    Placed cells start (v :: values) ↔ cells start = v ∧ Placed cells (start + 1) values := by
  unfold Placed
  rw [List.length_cons, slice_succ, List.cons.injEq]

theorem placed_append {front back : List α} :
    Placed cells start (front ++ back) ↔
      Placed cells start front ∧ Placed cells (start + front.length) back := by
  induction front generalizing start with
  | nil => simp [placed_nil]
  | cons v front ih =>
    rw [List.cons_append, placed_cons, ih, placed_cons, List.length_cons, and_assoc, Nat.add_assoc,
      Nat.add_comm 1]

theorem placed_congr {other : Nat → α} {values : List α}
    (same : ∀ i < values.length, other (start + i) = cells (start + i)) :
    Placed other start values ↔ Placed cells start values := by
  unfold Placed
  rw [slice_congr cells start same]

theorem placed_replace (cells : Nat → α) (start : Nat) (values : List α) :
    Placed (replace cells start values) start values :=
  slice_replace cells start values

end

end GasSub.Library.Cells
