import Mathlib.Algebra.BigOperators.Group.Finset.Piecewise
import Mathlib.Algebra.Order.BigOperators.Group.Finset
import Mathlib.Data.List.ReduceOption

/-!
# Tokens that parties take and give

What several parties do is recorded in one list, with the party of each record. A tally of
the list is the sum of the tallies of the parties. Where the tokens taken and those left
make up one token and those given, and nobody gives more than it has taken, a party that
holds a token is the only one that does.
-/
namespace GasSub.Library.TokenCount

variable {ι α : Type}

theorem countP_reduceOption_cons (f : α → Bool) (out : Option α) (rest : List (Option α)) :
    (out :: rest).reduceOption.countP f = rest.reduceOption.countP f + (out.any f).toNat := by
  cases out with
  | none => rw [List.reduceOption_cons_of_none]; rfl
  | some d =>
    rw [List.reduceOption_cons_of_some, List.countP_cons, Option.any_some]
    cases f d <;> rfl

variable [DecidableEq ι]

theorem countP_eq_sum (party : α → ι) (f : α → Bool) {parties : Finset ι} {items : List α}
    (known : ∀ a ∈ items, party a ∈ parties) :
    items.countP f = ∑ w ∈ parties, items.countP fun a => decide (party a = w) && f a := by
  induction items with
  | nil => simp
  | cons a rest ih =>
    have one : ∑ w ∈ parties, (if (decide (party a = w) && f a) = true then 1 else 0) =
        if f a = true then 1 else 0 := by
      cases f a with
      | false => simp
      | true =>
        simp only [Bool.and_true, decide_eq_true_eq, if_true]
        rw [Finset.sum_ite_eq, if_pos (known a (List.mem_cons_self ..))]
    simp only [List.countP_cons]
    rw [Finset.sum_add_distrib, one, ih fun b member => known b (List.mem_cons_of_mem a member)]

variable {parties : Finset ι}

/-- A sum whose terms stay the same but for one. -/
theorem sum_change_one {f g : ι → Nat} {p : ι} (member : p ∈ parties) (others : ∀ q, q ≠ p → g q = f q) :
    ∑ q ∈ parties, g q + f p = ∑ q ∈ parties, f q + g p := by
  have same : ∑ q ∈ parties.erase p, g q = ∑ q ∈ parties.erase p, f q :=
    Finset.sum_congr rfl fun q other => others q (Finset.ne_of_mem_erase other)
  have old := Finset.add_sum_erase parties f member
  have new := Finset.add_sum_erase parties g member
  omega

/-- One token is held by one party at most. -/
theorem one_inside {taken given : ι → Nat} {left : Nat}
    (total : ∑ w ∈ parties, taken w + left = 1 + ∑ w ∈ parties, given w)
    (fair : ∀ w ∈ parties, given w ≤ taken w) {who : ι} (member : who ∈ parties)
    (inside : given who < taken who) :
    taken who = given who + 1 ∧ left = 0 ∧ ∀ other ∈ parties, other ≠ who → taken other = given other := by
  have splitTaken := Finset.add_sum_erase parties taken member
  have splitGiven := Finset.add_sum_erase parties given member
  have fair' : ∀ w ∈ parties.erase who, given w ≤ taken w :=
    fun w other => fair w (Finset.mem_of_mem_erase other)
  have less := Finset.sum_le_sum fair'
  refine ⟨by omega, by omega, fun other known apart => ?_⟩
  have same : ∑ w ∈ parties.erase who, given w = ∑ w ∈ parties.erase who, taken w := by omega
  have equal := (Finset.sum_eq_sum_iff_of_le fair').mp same
  exact (equal other (Finset.mem_erase.mpr ⟨apart, known⟩)).symm

end GasSub.Library.TokenCount
