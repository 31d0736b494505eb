import Mathlib.Algebra.Order.Ring.Int

/-!
# Filling a buffer one element at a time

A receiver stores each arriving element at a running index of a fixed array.
`fillFrom` is the net effect of a run of such stores; reading it back gives the
stored run inside the filled window and the old contents outside.
-/
namespace GasSub.Library.BufferFill

variable {α : Type} {n : Nat}

/-- Store `items` at `start`, `start + 1`, … -/
def fillFrom (buffer : Vector α n) (start : Nat) : List α → Vector α n
  | [] => buffer
  | x :: rest => fillFrom (buffer.setIfInBounds start x) (start + 1) rest

theorem set_eq_setIfInBounds (buffer : Vector α n) (i : Nat) (x : α) (inside : i < n) :
    buffer.set i x inside = buffer.setIfInBounds i x := by
  apply Vector.ext
  intro j bound
  rw [Vector.getElem_set, Vector.getElem_setIfInBounds bound]

/-- Position `j` holds the item stored there, if any, else what it held before. -/
theorem getElem_fillFrom (items : List α) (buffer : Vector α n) (start j : Nat) (inside : j < n) :
    (fillFrom buffer start items)[j] =
      (if start ≤ j then items[j - start]? else none).getD buffer[j] := by
  induction items generalizing buffer start with
  | nil => simp [fillFrom]
  | cons x rest ih =>
    rw [fillFrom, ih]
    rcases Nat.lt_trichotomy j start with before | here | later
    · rw [if_neg (by omega), if_neg (by omega), Vector.getElem_setIfInBounds_ne inside (by omega)]
    · subst here
      rw [if_neg (by omega), if_pos (Nat.le_refl j), Vector.getElem_setIfInBounds_self]
      simp
    · have offset : j - start = j - (start + 1) + 1 := by omega
      rw [if_pos (by omega), if_pos (by omega), offset, List.getElem?_cons_succ,
        Vector.getElem_setIfInBounds_ne inside (by omega)]

/-- Inside the filled window the items are read back. -/
theorem getElem_fillFrom_inside (items : List α) (buffer : Vector α n) (start k : Nat)
    (room : start + k < n) (inside : k < items.length) :
    (fillFrom buffer start items)[start + k] = items[k] := by
  rw [getElem_fillFrom, if_pos (Nat.le_add_right start k), Nat.add_sub_cancel_left,
    List.getElem?_eq_getElem inside, Option.getD_some]

theorem getElem_fillFrom_outside (items : List α) (buffer : Vector α n) (start j : Nat)
    (bound : j < n) (outside : j < start ∨ start + items.length ≤ j) :
    (fillFrom buffer start items)[j] = buffer[j] := by
  rw [getElem_fillFrom]
  split
  · rw [List.getElem?_eq_none (by omega), Option.getD_none]
  · rw [Option.getD_none]

theorem fillFrom_append (left right : List α) (buffer : Vector α n) (start : Nat) :
    fillFrom buffer start (left ++ right) =
      fillFrom (fillFrom buffer start left) (start + left.length) right := by
  induction left generalizing buffer start with
  | nil => rfl
  | cons x rest ih =>
    simp only [List.cons_append, fillFrom, ih, List.length_cons]
    congr 1
    omega

/-- A run as long as the buffer replaces the whole buffer. -/
theorem fillFrom_all (buffer : Vector α n) (body : Vector α n) :
    fillFrom buffer 0 body.toList = body := by
  apply Vector.ext
  intro j inside
  rw [getElem_fillFrom]
  simp [inside]

end GasSub.Library.BufferFill
