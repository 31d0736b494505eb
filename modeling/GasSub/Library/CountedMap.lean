import Mathlib.Data.Finset.Card
import Mathlib.Logic.Function.Basic

/-!
# A table and a counter

A table whose entries come and go, and a counter beside it that goes up and down
with them. `Counts` says that the counter is the number of entries; it only sees
which keys have one.
-/
namespace GasSub.Library.CountedMap

variable {κ ν : Type} {table table' : κ → Option ν} {count : Int} {k : κ}

/-- The table has entries for finitely many keys, and `count` is their number. -/
def Counts (table : κ → Option ν) (count : Int) : Prop :=
  ∃ keys : Finset κ, (∀ k, k ∈ keys ↔ table k ≠ none) ∧ count = keys.card

theorem counts_empty : Counts (fun _ : κ => (none : Option ν)) 0 :=
  ⟨∅, fun _ => iff_of_false (Finset.notMem_empty _) (fun some => some rfl), rfl⟩

theorem counts_congr (same : ∀ k, table' k = none ↔ table k = none) (counts : Counts table count) :
    Counts table' count := by
  obtain ⟨keys, members, card⟩ := counts
  exact ⟨keys, fun k => (members k).trans (not_congr (same k)).symm, card⟩

variable [DecidableEq κ]

theorem counts_insert (counts : Counts table count) (fresh : table k = none) (entry : ν) :
    Counts (Function.update table k (some entry)) (count + 1) := by
  obtain ⟨keys, members, card⟩ := counts
  have outside : k ∉ keys := fun member => (members k).mp member fresh
  refine ⟨insert k keys, fun j => ?_, ?_⟩
  · rw [Finset.mem_insert, members]
    by_cases here : j = k
    · subst here
      rw [Function.update_self]
      exact iff_of_true (Or.inl rfl) (Option.some_ne_none entry)
    · rw [Function.update_of_ne here]
      exact or_iff_right here
  · rw [Finset.card_insert_of_notMem outside, card]
    exact (Int.natCast_succ keys.card).symm

theorem counts_erase (counts : Counts table count) (present : table k ≠ none) :
    Counts (Function.update table k none) (count - 1) := by
  obtain ⟨keys, members, card⟩ := counts
  have inside : k ∈ keys := (members k).mpr present
  refine ⟨keys.erase k, fun j => ?_, ?_⟩
  · rw [Finset.mem_erase, members]
    by_cases here : j = k
    · subst here
      rw [Function.update_self]
      exact iff_of_false (fun both => both.1 rfl) (fun some => some rfl)
    · rw [Function.update_of_ne here]
      exact and_iff_right here
  · have positive : 0 < keys.card := Finset.card_pos.mpr ⟨k, inside⟩
    rw [Finset.card_erase_of_mem inside, card]
    omega

end GasSub.Library.CountedMap
