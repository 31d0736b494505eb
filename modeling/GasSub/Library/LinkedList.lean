import Mathlib.Data.List.Basic

/-!
# Singly linked lists

A memory of cells, of which only the pointer to the next cell is seen: reading a
cell that is not allocated gives nothing, the last cell holds a null pointer. A
pointer denotes at most one list, and such a list never meets a cell twice.
-/
namespace GasSub.Library.LinkedList

variable {α : Type} {next : α → Option (Option α)}

/-- The list that starts at a pointer. -/
def Linked (next : α → Option (Option α)) : Option α → List α → Prop
  | p, [] => p = none
  | p, a :: rest => p = some a ∧ ∃ q, next a = some q ∧ Linked next q rest

theorem linked_unique {p : Option α} {xs ys : List α} (left : Linked next p xs)
    (right : Linked next p ys) : xs = ys := by
  induction xs generalizing p ys with
  | nil =>
    cases ys with
    | nil => rfl
    | cons b rest => exact nomatch left.symm.trans right.1
  | cons a rest ih =>
    cases ys with
    | nil => exact nomatch left.1.symm.trans right
    | cons b rest' =>
      obtain ⟨here, q, read, tail⟩ := left
      obtain ⟨here', q', read', tail'⟩ := right
      obtain rfl := Option.some.inj (here.symm.trans here')
      obtain rfl := Option.some.inj (read.symm.trans read')
      rw [ih tail tail']

/-- The list from one of its cells on. -/
theorem linked_from {p : Option α} {before rest : List α} {a : α}
    (linked : Linked next p (before ++ a :: rest)) : Linked next (some a) (a :: rest) := by
  induction before generalizing p with
  | nil =>
    obtain ⟨-, tail⟩ := linked
    exact ⟨rfl, tail⟩
  | cons b before ih =>
    obtain ⟨-, q, -, tail⟩ := linked
    exact ih tail

/-- A linked list is acyclic. -/
theorem linked_nodup {p : Option α} {xs : List α} (linked : Linked next p xs) : xs.Nodup := by
  induction xs generalizing p with
  | nil => exact List.nodup_nil
  | cons a rest ih =>
    obtain ⟨-, q, read, tail⟩ := linked
    refine List.nodup_cons.mpr ⟨fun again => ?_, ih tail⟩
    obtain ⟨before, after, split⟩ := List.append_of_mem again
    have whole : Linked next (some a) (a :: rest) := ⟨rfl, q, read, tail⟩
    rw [split] at tail
    have same := congrArg List.length (linked_unique whole (linked_from tail))
    rw [split] at same
    simp only [List.length_cons, List.length_append] at same
    omega

/-- Cells outside the list do not matter. -/
theorem linked_congr {next' : α → Option (Option α)} {p : Option α} {xs : List α}
    (same : ∀ a ∈ xs, next' a = next a) (linked : Linked next p xs) : Linked next' p xs := by
  induction xs generalizing p with
  | nil => exact linked
  | cons a rest ih =>
    obtain ⟨here, q, read, tail⟩ := linked
    refine ⟨here, q, (same a List.mem_cons_self).trans read, ?_⟩
    exact ih (fun b member => same b (List.mem_cons_of_mem a member)) tail

/-- Every cell of the list is allocated. -/
theorem linked_allocated {p : Option α} {xs : List α} (linked : Linked next p xs) {a : α}
    (member : a ∈ xs) : ∃ q, next a = some q := by
  obtain ⟨before, after, rfl⟩ := List.append_of_mem member
  obtain ⟨-, q, read, -⟩ := linked_from linked
  exact ⟨q, read⟩

/-- A cell is taken out: the one before it points behind it. -/
theorem linked_unlink {next' : α → Option (Option α)} {p : Option α} {before after : List α}
    {a target : α} (linked : Linked next p (before ++ a :: target :: after))
    (bridge : next' a = next target) (same : ∀ b ∈ before ++ after, next' b = next b) :
    Linked next' p (before ++ a :: after) := by
  induction before generalizing p with
  | nil =>
    obtain ⟨here, q, -, -, r, read, tail⟩ := linked
    exact ⟨here, r, bridge.trans read, linked_congr same tail⟩
  | cons b before ih =>
    obtain ⟨here, q, read, tail⟩ := linked
    refine ⟨here, q, (same b List.mem_cons_self).trans read, ?_⟩
    exact ih tail fun c member => same c (List.mem_cons_of_mem b member)

/-- Two neighbours differ from each other and from the cells around them. -/
theorem apart_of_nodup {before after : List α} {a target : α}
    (once : (before ++ a :: target :: after).Nodup) :
    a ≠ target ∧ ∀ b ∈ before ++ after, b ≠ a ∧ b ≠ target := by
  obtain ⟨-, pair, disjoint⟩ := List.nodup_append.mp once
  obtain ⟨first, rest⟩ := List.nodup_cons.mp pair
  obtain ⟨second, -⟩ := List.nodup_cons.mp rest
  constructor
  · intro same
    exact first (same ▸ List.mem_cons_self)
  · intro b member
    rcases List.mem_append.mp member with earlier | later
    · exact ⟨disjoint b earlier a List.mem_cons_self,
        disjoint b earlier target (List.mem_cons_of_mem a List.mem_cons_self)⟩
    · constructor
      · intro same
        exact first (same ▸ List.mem_cons_of_mem target later)
      · intro same
        exact second (same ▸ later)

/-! ### Looking for the cell before another -/

variable [DecidableEq α]

/-- A cell other than the first has one before it, and the others stay without it. -/
theorem exists_before {first target : α} {rest : List α} (once : (first :: rest).Nodup)
    (listed : target ∈ rest) :
    ∃ before a after, first :: rest = before ++ a :: target :: after ∧
      first :: rest.erase target = before ++ a :: after := by
  obtain ⟨early, after, split⟩ := List.append_of_mem listed
  obtain ⟨before, a, ends⟩ : ∃ before a, first :: early = before ++ [a] :=
    ⟨_, _, (List.dropLast_concat_getLast (List.cons_ne_nil first early)).symm⟩
  have outside : target ∉ early := by
    intro inside
    have parts := (List.nodup_cons.mp once).2
    rw [split] at parts
    exact (List.nodup_append.mp parts).2.2 target inside target List.mem_cons_self rfl
  refine ⟨before, a, after, ?_, ?_⟩
  · rw [split, ← List.cons_append, ends, List.append_assoc, List.singleton_append]
  · rw [split, List.erase_append_right _ outside, List.erase_cons_head, ← List.cons_append, ends,
      List.append_assoc, List.singleton_append]

/-- `while (p != NULL && p->next != target) p = p->next`. Nothing is returned when a cell
is not allocated or `fuel` cells were visited. -/
def findBefore (next : α → Option (Option α)) (target : α) : Nat → Option α → Option (Option α)
  | 0, _ => none
  | _ + 1, none => some none
  | fuel + 1, some p =>
    match next p with
    | none => none
    | some q => if q = some target then some (some p) else findBefore next target fuel q

/-- The loop stops at the cell before the one it looks for. -/
theorem findBefore_found {p : Option α} {before after : List α} {a target : α} {fuel : Nat}
    (linked : Linked next p (before ++ a :: target :: after)) (enough : before.length < fuel) :
    findBefore next target fuel p = some (some a) := by
  have once := linked_nodup linked
  induction before generalizing p fuel with
  | nil =>
    obtain ⟨rfl, q, read, rfl, -⟩ := linked
    obtain ⟨rest, rfl⟩ := Nat.exists_eq_succ_of_ne_zero (Nat.pos_iff_ne_zero.mp enough)
    rw [findBefore, read]
    exact if_pos rfl
  | cons b before ih =>
    obtain ⟨rfl, q, read, tail⟩ := linked
    obtain ⟨rest, rfl⟩ := Nat.exists_eq_succ_of_ne_zero (Nat.ne_of_gt (Nat.zero_lt_of_lt enough))
    have other : q ≠ some target := by
      intro here
      cases before with
      | nil =>
        have first := Option.some.inj (here.symm.trans tail.1)
        subst first
        simp at once
      | cons c before =>
        have first := Option.some.inj (here.symm.trans tail.1)
        subst first
        simp at once
    rw [findBefore, read]
    simp only
    rw [if_neg other]
    refine ih tail ?_ (List.nodup_cons.mp once).2
    simp only [List.length_cons] at enough
    omega

end GasSub.Library.LinkedList
