import Mathlib.Data.List.TakeWhile
import Mathlib.Algebra.Order.Ring.Int

/-!
# Texts in fixed arrays

A text lies at the start of an array and ends before the first terminator.
`copyN` and `catN` are the bounded copy and append of the C library: the first
writes exactly `n` symbols, and none of them is a terminator if the text is long;
the second bounds what it appends, not what it reaches. An access outside the
array has no result. `Terminated` is an array whose last symbol always is a
terminator, as long as every copy into it leaves that one out.
-/
namespace GasSub.Library.CharArray

variable {α : Type}

/-- `text` lies at the start of the array, with its terminator. -/
structure Holds (nul : α) (array text : List α) : Prop where
  free : nul ∉ text
  placed : ∃ rest, array = text ++ nul :: rest

def text? [DecidableEq α] (nul : α) (array : List α) : Option (List α) :=
  if nul ∈ array then some (array.takeWhile (· ≠ nul)) else none

/-- `strncpy`, on an array of its own. -/
def copyN (nul : α) (array source : List α) (n : Nat) : Option (List α) :=
  if n ≤ array.length then
    some (source.take n ++ List.replicate (n - source.length) nul ++ array.drop n)
  else none

/-- The array with `text` and a terminator at its start. -/
def overwrite (nul : α) (array text : List α) : List α :=
  text ++ nul :: array.drop (text.length + 1)

/-- `strncat`. -/
def catN [DecidableEq α] (nul : α) (array source : List α) (n : Nat) : Option (List α) :=
  (text? nul array).bind fun text =>
    let joined := text ++ source.take n
    if joined.length < array.length then some (overwrite nul array joined) else none

/-- An array of `n + 1` symbols whose last one is a terminator. -/
structure Terminated (nul : α) (n : Nat) where
  symbols : List α
  size : symbols.length = n + 1
  closed : symbols[n]? = some nul

def Terminated.text [DecidableEq α] {nul : α} {n : Nat} (a : Terminated nul n) : List α :=
  a.symbols.takeWhile (· ≠ nul)

variable {nul : α} {array text source : List α} {n : Nat}

theorem Holds.length_lt (holds : Holds nul array text) : text.length < array.length := by
  obtain ⟨rest, placed⟩ := holds.placed
  rw [placed, List.length_append, List.length_cons]
  omega

theorem Holds.drop {front : List α} (holds : Holds nul array (front ++ text)) :
    Holds nul (array.drop front.length) text := by
  obtain ⟨rest, placed⟩ := holds.placed
  refine ⟨fun member => holds.free (List.mem_append_right _ member), rest, ?_⟩
  rw [placed, List.append_assoc, List.drop_left]

/-- A terminator ends the text, whatever follows. -/
theorem takeWhile_append_nul [DecidableEq α] (front rest : List α) :
    (front ++ nul :: rest).takeWhile (· ≠ nul) = front.takeWhile (· ≠ nul) := by
  induction front with
  | nil => exact List.takeWhile_cons_of_neg (by simp)
  | cons c front ih =>
    rw [List.cons_append, List.takeWhile_cons, List.takeWhile_cons, ih]

theorem takeWhile_of_holds [DecidableEq α] (holds : Holds nul array text) :
    array.takeWhile (· ≠ nul) = text := by
  obtain ⟨rest, placed⟩ := holds.placed
  have visible : ∀ symbol ∈ text, decide (symbol ≠ nul) = true := by
    intro symbol member
    exact decide_eq_true fun same => holds.free (same ▸ member)
  rw [placed, takeWhile_append_nul, List.takeWhile_eq_self_iff.mpr visible]

theorem text?_of_holds [DecidableEq α] (holds : Holds nul array text) : text? nul array = some text := by
  obtain ⟨rest, placed⟩ := holds.placed
  have occurs : nul ∈ array := by
    rw [placed]
    exact List.mem_append_right _ List.mem_cons_self
  rw [text?, if_pos occurs, takeWhile_of_holds holds]

theorem holds_takeWhile [DecidableEq α] (occurs : nul ∈ array) :
    Holds nul array (array.takeWhile (· ≠ nul)) := by
  induction array with
  | nil => cases occurs
  | cons c rest ih =>
    by_cases here : c = nul
    · subst here
      exact ⟨by simp, rest, by simp⟩
    · have later : nul ∈ rest := (List.mem_cons.mp occurs).resolve_left fun same => here same.symm
      obtain ⟨free, tail, placed⟩ := ih later
      rw [List.takeWhile_cons_of_pos (by simpa using here)]
      refine ⟨?_, tail, ?_⟩
      · rw [List.mem_cons, not_or]
        exact ⟨fun same => here same.symm, free⟩
      · rw [List.cons_append, ← placed]

theorem length_copyN (inside : n ≤ array.length) {out : List α}
    (copied : copyN nul array source n = some out) : out.length = array.length := by
  rw [copyN, if_pos inside] at copied
  rw [← Option.some.inj copied]
  simp only [List.length_append, List.length_take, List.length_replicate, List.length_drop]
  omega

theorem drop_copyN {k : Nat} (within : n ≤ k) {out : List α}
    (copied : copyN nul array source n = some out) : out.drop k = array.drop k := by
  unfold copyN at copied
  split at copied
  · cases copied
    have front : (source.take n ++ List.replicate (n - source.length) nul).length = n := by
      rw [List.length_append, List.length_take, List.length_replicate]
      omega
    rw [List.drop_append, List.drop_eq_nil_of_le (front.symm ▸ within), List.nil_append, front,
      List.drop_drop]
    congr 1
    omega
  · cases copied

/-- A text shorter than the bound arrives with a terminator. -/
theorem holds_copyN (free : nul ∉ source) (short : source.length < n) (inside : n ≤ array.length) :
    ∃ out, copyN nul array source n = some out ∧ Holds nul out source := by
  refine ⟨_, by rw [copyN, if_pos inside], free, ?_⟩
  have more : n - source.length = (n - source.length - 1) + 1 := by omega
  rw [List.take_of_length_le (Nat.le_of_lt short), more, List.replicate_succ]
  exact ⟨_, by simp only [List.append_assoc, List.cons_append]; rfl⟩

/-- What a short text leaves of the bound is filled with terminators. -/
theorem getElem?_copyN_last (short : source.length < n) (inside : n ≤ array.length) {out : List α}
    (copied : copyN nul array source n = some out) : out[n - 1]? = some nul := by
  rw [copyN, if_pos inside] at copied
  have front : (source.take n).length ≤ n - 1 := by
    rw [List.length_take]
    omega
  have padded : n - 1 - (source.take n).length < n - source.length := by
    rw [List.length_take]
    omega
  rw [← Option.some.inj copied, List.append_assoc, List.getElem?_append_right front,
    List.getElem?_append_left (by rw [List.length_replicate]; exact padded),
    List.getElem?_replicate, if_pos padded]

theorem length_overwrite (room : text.length < array.length) :
    (overwrite nul array text).length = array.length := by
  rw [overwrite, List.length_append, List.length_cons, List.length_drop]
  omega

theorem holds_overwrite (free : nul ∉ text) : Holds nul (overwrite nul array text) text :=
  ⟨free, _, rfl⟩

theorem drop_overwrite {k : Nat} (behind : text.length < k) :
    (overwrite nul array text).drop k = array.drop k := by
  have offset : k - text.length = k - text.length - 1 + 1 := by omega
  rw [overwrite, List.drop_append, List.drop_eq_nil_of_le (Nat.le_of_lt behind), List.nil_append,
    offset, List.drop_succ_cons, List.drop_drop]
  congr 1
  omega

/-- What lies behind the new terminator stays. -/
theorem getElem?_overwrite_of_lt {i : Nat} (behind : text.length < i) :
    (overwrite nul array text)[i]? = array[i]? := by
  have offset : i - text.length = i - text.length - 1 + 1 := by omega
  rw [overwrite, List.getElem?_append_right (Nat.le_of_lt behind), offset,
    List.getElem?_cons_succ, List.getElem?_drop]
  congr 1
  omega

theorem getElem?_overwrite_self : (overwrite nul array text)[text.length]? = some nul := by
  rw [overwrite, List.getElem?_append_right (Nat.le_refl _), Nat.sub_self, List.getElem?_cons_zero]

theorem catN_eq [DecidableEq α] (holds : Holds nul array text) :
    catN nul array source n =
      if (text ++ source.take n).length < array.length then
        some (overwrite nul array (text ++ source.take n))
      else none := by
  rw [catN, text?_of_holds holds, Option.bind_some]

/-- Putting a terminator on the last symbol takes it off the text. -/
theorem holds_set_last {c : α} (holds : Holds nul array (text ++ [c])) :
    Holds nul (array.set text.length nul) text := by
  obtain ⟨rest, placed⟩ := holds.placed
  refine ⟨fun member => holds.free (List.mem_append_left _ member), nul :: rest, ?_⟩
  rw [placed, List.append_assoc, List.set_append_right _ _ (Nat.le_refl _), Nat.sub_self]
  rfl

/-! ### Arrays that keep a terminator at their end -/

theorem closed_overwrite (closed : array[n]? = some nul) (fits : text.length ≤ n) :
    (overwrite nul array text)[n]? = some nul := by
  rcases Nat.lt_or_eq_of_le fits with behind | here
  · rw [getElem?_overwrite_of_lt behind, closed]
  · subst here
    exact getElem?_overwrite_self

theorem closed_set (closed : array[n]? = some nul) (i : Nat) :
    (array.set i nul)[n]? = some nul := by
  have inside : n < array.length := (List.getElem?_eq_some_iff.mp closed).1
  by_cases here : i = n
  · rw [here, List.getElem?_set_self inside]
  · rw [List.getElem?_set_ne here, closed]

namespace Terminated

def zero (nul : α) (n : Nat) : Terminated nul n where
  symbols := List.replicate (n + 1) nul
  size := List.length_replicate
  closed := by rw [List.getElem?_replicate, if_pos (Nat.lt_succ_self n)]

/-- `strncpy` that leaves out the last symbol. -/
def copy (a : Terminated nul n) (source : List α) : Terminated nul n where
  symbols := source.take n ++ List.replicate (n - source.length) nul ++ a.symbols.drop n
  size := by
    have size := a.size
    simp only [List.length_append, List.length_take, List.length_replicate, List.length_drop]
    omega
  closed := by
    have front : (source.take n ++ List.replicate (n - source.length) nul).length = n := by
      rw [List.length_append, List.length_take, List.length_replicate]
      omega
    rw [List.getElem?_append_right (Nat.le_of_eq front), front, Nat.sub_self,
      List.getElem?_drop, Nat.add_zero]
    exact a.closed

/-- A text and its terminator written from the start, cut to what fits. -/
def write (a : Terminated nul n) (text : List α) : Terminated nul n where
  symbols := overwrite nul a.symbols (text.take n)
  size := by
    have size := a.size
    have cut : (text.take n).length ≤ n := List.length_take_le n text
    rw [length_overwrite (by omega), a.size]
  closed := closed_overwrite a.closed (List.length_take_le n text)

variable [DecidableEq α]

theorem holds (a : Terminated nul n) : Holds nul a.symbols a.text :=
  holds_takeWhile (List.mem_of_getElem? a.closed)

theorem length_text_le (a : Terminated nul n) : a.text.length ≤ n := by
  have inside := a.holds.length_lt
  have size := a.size
  omega

theorem text_eq {a : Terminated nul n} {text : List α} (holds : Holds nul a.symbols text) :
    a.text = text :=
  Option.some.inj ((text?_of_holds a.holds).symm.trans (text?_of_holds holds))

theorem text_copy (a : Terminated nul n) (free : nul ∉ source) :
    (a.copy source).text = source.take n := by
  apply text_eq
  refine ⟨fun member => free (List.mem_of_mem_take member), ?_⟩
  have last : a.symbols.drop n = [nul] := by
    have inside : n < a.symbols.length := by rw [a.size]; exact Nat.lt_succ_self n
    have symbol : a.symbols[n] = nul := (List.getElem?_eq_some_iff.mp a.closed).2
    rw [List.drop_eq_getElem_cons inside, symbol, List.drop_eq_nil_of_le (Nat.le_of_eq a.size)]
  refine ⟨List.replicate (n - source.length) nul, ?_⟩
  change source.take n ++ List.replicate (n - source.length) nul ++ a.symbols.drop n = _
  rw [last, List.append_assoc, ← List.replicate_succ', List.replicate_succ]

/-- A terminator among what is written ends the text early. -/
theorem text_write_eq (a : Terminated nul n) (source : List α) :
    (a.write source).text = (source.take n).takeWhile (· ≠ nul) :=
  takeWhile_append_nul (source.take n) (a.symbols.drop ((source.take n).length + 1))

theorem text_write (a : Terminated nul n) (free : nul ∉ source) :
    (a.write source).text = source.take n :=
  text_eq (holds_overwrite fun member => free (List.mem_of_mem_take member))

end Terminated

end GasSub.Library.CharArray
