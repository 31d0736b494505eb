import Mathlib.Data.Set.Insert

/-!
# Slots and their owners

A table of slots, each free or in use by an owner, against the slots each owner
holds. A slot is accounted for if its owner holds it, and an owner is backed if
what it holds is its own. Giving a free slot to an owner and taking slots away
from one keep the holdings backed; every slot stays accounted for unless an owner
loses sight of a slot while it gets another.
-/
namespace GasSub.Library.Ownership

/-- Who uses a slot, and what an owner holds: nothing once it is gone. -/
@[ext]
structure Ledger (ι κ : Type) where
  owner : ι → Option κ
  holds : κ → Set ι

variable {ι κ : Type} {l l' : Ledger ι κ} {k : κ} {i : ι} {kept gone : Set ι}

namespace Ledger

def Accounted (l : Ledger ι κ) : Prop := ∀ i k, l.owner i = some k → i ∈ l.holds k

def Backed (l : Ledger ι κ) : Prop := ∀ i k, i ∈ l.holds k → l.owner i = some k

/-- `k` gets the free slot `i`, beside what it has kept. -/
structure Assigned (l l' : Ledger ι κ) (k : κ) (i : ι) (kept : Set ι) : Prop where
  free : l.owner i = none
  taken : l'.owner i = some k
  slots : ∀ j, j ≠ i → l'.owner j = l.owner j
  within : kept ⊆ l.holds k
  held : l'.holds k = insert i kept
  owners : ∀ o, o ≠ k → l'.holds o = l.holds o

/-- The slots in `gone` are taken from `k` and free. -/
structure Vacated (l l' : Ledger ι κ) (k : κ) (gone : Set ι) : Prop where
  freed : ∀ j ∈ gone, l'.owner j = none
  slots : ∀ j, j ∉ gone → l'.owner j = l.owner j
  within : gone ⊆ l.holds k
  held : l'.holds k = l.holds k \ gone
  owners : ∀ o, o ≠ k → l'.holds o = l.holds o

theorem Backed.ne_of_free (backed : l.Backed) (free : l.owner i = none) {j : ι}
    (held : j ∈ l.holds k) : j ≠ i := by
  rintro rfl
  have owned := backed j k held
  rw [free] at owned
  cases owned

/-! ### Assigning a slot -/

theorem Assigned.backed (assigned : Assigned l l' k i kept) (backed : l.Backed) : l'.Backed := by
  intro j o holds
  by_cases mine : o = k
  · subst mine
    rw [assigned.held] at holds
    rcases holds with rfl | old
    · exact assigned.taken
    · have held := assigned.within old
      rw [assigned.slots j (backed.ne_of_free assigned.free held)]
      exact backed j o held
  · rw [assigned.owners o mine] at holds
    rw [assigned.slots j (backed.ne_of_free assigned.free holds)]
    exact backed j o holds

/-- Every slot stays accounted for exactly when the owner has kept all it held. -/
theorem Assigned.accounted_iff (assigned : Assigned l l' k i kept) (backed : l.Backed) :
    l'.Accounted ↔ l.Accounted ∧ l.holds k ⊆ kept := by
  constructor
  · intro after
    have still : ∀ j o, l.owner j = some o → j ∈ l'.holds o := by
      intro j o owned
      have other : j ≠ i := by
        rintro rfl
        rw [assigned.free] at owned
        cases owned
      exact after j o ((assigned.slots j other).trans owned)
    have all : l.holds k ⊆ kept := by
      intro j held
      have found := still j k (backed j k held)
      rw [assigned.held] at found
      exact found.resolve_left (backed.ne_of_free assigned.free held)
    refine ⟨fun j o owned => ?_, all⟩
    have found := still j o owned
    by_cases mine : o = k
    · subst mine
      rw [assigned.held] at found
      rcases found with rfl | kept
      · rw [assigned.free] at owned
        cases owned
      · exact assigned.within kept
    · rw [assigned.owners o mine] at found
      exact found
  · rintro ⟨accounted, all⟩ j o owned
    by_cases new : j = i
    · subst new
      rw [assigned.taken] at owned
      cases owned
      rw [assigned.held]
      exact Set.mem_insert j kept
    · rw [assigned.slots j new] at owned
      have held := accounted j o owned
      by_cases mine : o = k
      · subst mine
        rw [assigned.held]
        exact Set.mem_insert_of_mem i (all held)
      · rw [assigned.owners o mine]
        exact held

/-! ### Taking slots away -/

theorem Vacated.backed (vacated : Vacated l l' k gone) (backed : l.Backed) : l'.Backed := by
  intro j o holds
  have kept : j ∉ gone ∧ j ∈ l.holds o := by
    by_cases mine : o = k
    · subst mine
      rw [vacated.held] at holds
      exact ⟨holds.2, holds.1⟩
    · rw [vacated.owners o mine] at holds
      refine ⟨fun inside => mine ?_, holds⟩
      -- a slot taken from `k` is no other owner's
      exact Option.some.inj ((backed j o holds).symm.trans (backed j k (vacated.within inside)))
  rw [vacated.slots j kept.1]
  exact backed j o kept.2

/-- No slot gets lost, and none that was lost is found again. -/
theorem Vacated.accounted_iff (vacated : Vacated l l' k gone) (backed : l.Backed) :
    l'.Accounted ↔ l.Accounted := by
  constructor
  · intro after j o owned
    by_cases inside : j ∈ gone
    · have held := vacated.within inside
      rw [backed j k held] at owned
      cases owned
      exact held
    · have held := after j o ((vacated.slots j inside).trans owned)
      by_cases mine : o = k
      · subst mine
        rw [vacated.held] at held
        exact held.1
      · rw [← vacated.owners o mine]
        exact held
  · intro accounted j o owned
    have outside : j ∉ gone := by
      intro inside
      rw [vacated.freed j inside] at owned
      cases owned
    rw [vacated.slots j outside] at owned
    have held := accounted j o owned
    by_cases mine : o = k
    · subst mine
      rw [vacated.held]
      exact ⟨held, outside⟩
    · rw [vacated.owners o mine]
      exact held

end Ledger

end GasSub.Library.Ownership
