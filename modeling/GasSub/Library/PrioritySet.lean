import Mathlib.Data.Finset.Card
import Mathlib.Data.Finset.Range
import Mathlib.Logic.Function.Basic

/-!
# Sets of priorities as a two-level bit map

Priority `p` is place `p % w` of row `p / w`; one more word says which rows have a
member. The least member is then found by two searches for the lowest set bit of a
word. `Sound` is what keeps the word of rows honest, and `least` is the minimum of the
set exactly because of it.
-/
namespace GasSub.Library

structure PrioritySet (w : Nat) where
  group : BitVec w
  rows : Nat → BitVec w

namespace PrioritySet

variable {w : Nat}

def empty : PrioritySet w := ⟨0, fun _ => 0⟩

def has (s : PrioritySet w) (p : Nat) : Bool := (s.rows (p / w)).getLsbD (p % w)

def insert (s : PrioritySet w) (p : Nat) : PrioritySet w where
  group := s.group ||| BitVec.twoPow w (p / w)
  rows := Function.update s.rows (p / w) (s.rows (p / w) ||| BitVec.twoPow w (p % w))

/-- The row's bit in `group` goes with the last member of the row. -/
def erase (s : PrioritySet w) (p : Nat) : PrioritySet w :=
  let row := s.rows (p / w) &&& ~~~BitVec.twoPow w (p % w)
  { group := if row = 0 then s.group &&& ~~~BitVec.twoPow w (p / w) else s.group
    rows := Function.update s.rows (p / w) row }

def least (s : PrioritySet w) : Nat :=
  w * s.group.ctz.toNat + (s.rows s.group.ctz.toNat).ctz.toNat

structure Sound (s : PrioritySet w) : Prop where
  group_iff : ∀ y < w, s.group.getLsbD y = true ↔ s.rows y ≠ 0
  above : ∀ y, w ≤ y → s.rows y = 0

/-- `p` is the minimum of the set. -/
def IsLeast (s : PrioritySet w) (p : Nat) : Prop :=
  s.has p = true ∧ ∀ q, s.has q = true → p ≤ q

/-! ### Membership -/

theorem has_empty (p : Nat) : (empty : PrioritySet w).has p = false := by
  simp only [has, empty, BitVec.ofNat_eq_ofNat, BitVec.getLsbD_zero]

theorem same_place {p q : Nat} (row : q / w = p / w) (place : q % w = p % w) : q = p := by
  rw [← Nat.div_add_mod q w, ← Nat.div_add_mod p w, row, place]

theorem has_insert (s : PrioritySet w) (p q : Nat) (wide : 0 < w) :
    (s.insert p).has q = (decide (q = p) || s.has q) := by
  by_cases row : q / w = p / w
  · simp only [has, insert, row, Function.update_self, BitVec.getLsbD_or, BitVec.getLsbD_twoPow,
      Nat.mod_lt p wide, decide_true, Bool.true_and]
    by_cases place : p % w = q % w
    · simp only [place, decide_true, Bool.or_true, same_place row place.symm, Bool.true_or]
    · have other : q ≠ p := fun same => place (same ▸ rfl)
      simp only [place, other, decide_false, Bool.or_false, Bool.false_or]
  · have other : q ≠ p := fun same => row (same ▸ rfl)
    simp only [has, insert, Function.update_of_ne row, other, decide_false, Bool.false_or]

theorem has_erase (s : PrioritySet w) (p q : Nat) (wide : 0 < w) :
    (s.erase p).has q = (!decide (q = p) && s.has q) := by
  by_cases row : q / w = p / w
  · simp only [has, erase, row, Function.update_self, BitVec.getLsbD_and, BitVec.getLsbD_not,
      BitVec.getLsbD_twoPow, Nat.mod_lt p wide, Nat.mod_lt q wide, decide_true, Bool.true_and]
    by_cases place : p % w = q % w
    · simp only [place, decide_true, Bool.not_true, Bool.and_false, same_place row place.symm,
        Bool.false_and]
    · have other : q ≠ p := fun same => place (same ▸ rfl)
      simp only [place, other, decide_false, Bool.not_false, Bool.and_true, Bool.true_and]
  · have other : q ≠ p := fun same => row (same ▸ rfl)
    simp only [has, erase, Function.update_of_ne row, other, decide_false, Bool.not_false, Bool.true_and]

/-! ### The word of rows -/

theorem sound_empty : (empty : PrioritySet w).Sound where
  group_iff y _ := by simp [empty]
  above _ _ := rfl

theorem insert_sound {s : PrioritySet w} (sound : s.Sound) {p : Nat} (small : p / w < w)
    (wide : 0 < w) : (s.insert p).Sound where
  group_iff y below := by
    simp only [insert, BitVec.getLsbD_or, BitVec.getLsbD_twoPow, small, decide_true, Bool.true_and,
      Bool.or_eq_true, decide_eq_true_eq]
    by_cases row : y = p / w
    · subst row
      rw [Function.update_self]
      refine ⟨fun _ none => ?_, fun _ => Or.inr rfl⟩
      have place : (s.rows (p / w) ||| BitVec.twoPow w (p % w)).getLsbD (p % w) = false := by
        rw [none, BitVec.ofNat_eq_ofNat, BitVec.getLsbD_zero]
      rw [BitVec.getLsbD_or, BitVec.getLsbD_twoPow] at place
      simp only [Nat.mod_lt p wide, decide_true, Bool.and_true, Bool.or_true, Bool.true_eq_false] at place
    · rw [Function.update_of_ne row, sound.group_iff y below]
      exact or_iff_left fun same => row same.symm
  above y high := by
    have row : y ≠ p / w := by omega
    simp only [insert, Function.update_of_ne row, sound.above y high]

theorem erase_sound {s : PrioritySet w} (sound : s.Sound) (p : Nat) : (s.erase p).Sound where
  group_iff y below := by
    simp only [erase]
    by_cases row : y = p / w
    · subst row
      rw [Function.update_self]
      by_cases last : s.rows (p / w) &&& ~~~BitVec.twoPow w (p % w) = 0
      · simp only [last, if_true, BitVec.getLsbD_and, BitVec.getLsbD_not, BitVec.getLsbD_twoPow, below,
          decide_true, Bool.true_and, Bool.not_true, Bool.and_false, Bool.false_eq_true, ne_eq,
          not_true_eq_false]
      · rw [if_neg last, sound.group_iff _ below]
        refine ⟨fun _ => last, fun _ none => last ?_⟩
        rw [none, BitVec.ofNat_eq_ofNat, BitVec.zero_and]
    · rw [Function.update_of_ne row]
      split
      · rw [BitVec.getLsbD_and, BitVec.getLsbD_not, BitVec.getLsbD_twoPow, ← sound.group_iff y below]
        have away : p / w ≠ y := fun same => row same.symm
        simp only [below, away, decide_true, decide_false, Bool.and_false, Bool.not_false, Bool.and_true]
      · exact sound.group_iff y below
  above y high := by
    simp only [erase]
    by_cases row : y = p / w
    · rw [← row, Function.update_self, sound.above y high, BitVec.ofNat_eq_ofNat, BitVec.zero_and]
    · rw [Function.update_of_ne row, sound.above y high]

/-- The members are below `w * w`. -/
theorem lt_of_has {s : PrioritySet w} (sound : s.Sound) {p : Nat} (member : s.has p = true) :
    p / w < w := by
  by_contra high
  rw [has, sound.above _ (by omega), BitVec.ofNat_eq_ofNat, BitVec.getLsbD_zero] at member
  cases member

theorem group_eq_zero_iff {s : PrioritySet w} (sound : s.Sound) :
    s.group = 0 ↔ ∀ p, s.has p = false := by
  constructor
  · intro none p
    by_contra member
    have member : s.has p = true := by simpa using member
    have row := lt_of_has sound member
    have filled : s.rows (p / w) ≠ 0 := by
      intro clear
      rw [has, clear, BitVec.ofNat_eq_ofNat, BitVec.getLsbD_zero] at member
      cases member
    have set := (sound.group_iff _ row).mpr filled
    rw [none, BitVec.ofNat_eq_ofNat, BitVec.getLsbD_zero] at set
    cases set
  · intro none
    refine BitVec.eq_of_getLsbD_eq fun y below => ?_
    have clear : s.rows y = 0 := by
      refine BitVec.eq_of_getLsbD_eq fun x inside => ?_
      have place := none (w * y + x)
      rw [has, Nat.mul_add_div (by omega), Nat.div_eq_of_lt inside, Nat.add_zero, Nat.mul_add_mod,
        Nat.mod_eq_of_lt inside] at place
      rw [place, BitVec.ofNat_eq_ofNat, BitVec.getLsbD_zero]
    have unset : s.group.getLsbD y ≠ true := fun set => (sound.group_iff y below).mp set clear
    rw [BitVec.ofNat_eq_ofNat, BitVec.getLsbD_zero]
    simpa using unset

/-! ### The least member -/

theorem ctz_lt {b : BitVec w} (some : b ≠ 0) : b.ctz.toNat < w := by
  have place := BitVec.getLsbD_true_ctz_of_ne_zero some
  by_contra high
  rw [BitVec.getLsbD_of_ge _ _ (by omega)] at place
  cases place

theorem ctz_le {b : BitVec w} {i : Nat} (set : b.getLsbD i = true) : b.ctz.toNat ≤ i := by
  by_contra above
  have clear := BitVec.getLsbD_false_of_lt_ctz (x := b) (by omega : i < b.ctz.toNat)
  rw [set] at clear
  cases clear

theorem least_row {s : PrioritySet w} (sound : s.Sound) (some : s.group ≠ 0) :
    s.rows s.group.ctz.toNat ≠ 0 :=
  (sound.group_iff _ (ctz_lt some)).mp (BitVec.getLsbD_true_ctz_of_ne_zero some)

/-- Two searches for the lowest set bit find the minimum. -/
theorem isLeast_least {s : PrioritySet w} (sound : s.Sound) (some : s.group ≠ 0) :
    s.IsLeast s.least := by
  have row := ctz_lt (least_row sound some)
  constructor
  · rw [has, least, Nat.mul_add_div (by omega), Nat.div_eq_of_lt row, Nat.add_zero, Nat.mul_add_mod,
      Nat.mod_eq_of_lt row]
    exact BitVec.getLsbD_true_ctz_of_ne_zero (least_row sound some)
  · intro q member
    have within := lt_of_has sound member
    have filled : s.rows (q / w) ≠ 0 := by
      intro clear
      rw [has, clear, BitVec.ofNat_eq_ofNat, BitVec.getLsbD_zero] at member
      cases member
    have first := ctz_le ((sound.group_iff _ within).mpr filled)
    have split := Nat.div_add_mod q w
    rw [least]
    rcases Nat.lt_or_eq_of_le first with earlier | same
    · have := Nat.mul_le_mul_left w (Nat.succ_le_of_lt earlier)
      rw [Nat.mul_succ] at this
      omega
    · rw [same]
      have := ctz_le member
      omega

/-- The minimum stays when another member goes. -/
theorem IsLeast.erase {s : PrioritySet w} {p q : Nat} (least : s.IsLeast p) (other : p ≠ q)
    (wide : 0 < w) : (s.erase q).IsLeast p := by
  constructor
  · rw [has_erase s q p wide, decide_eq_false other, Bool.not_false, Bool.true_and, least.1]
  · intro r member
    rw [has_erase s q r wide, Bool.and_eq_true] at member
    exact least.2 r member.2

/-! ### Taking members one by one -/

/-- How many members there are. -/
def size (s : PrioritySet w) : Nat := ((Finset.range (w * w)).filter fun p => s.has p = true).card

theorem size_erase {s : PrioritySet w} (sound : s.Sound) {p : Nat} (member : s.has p = true) :
    (s.erase p).size + 1 = s.size := by
  have wide : 0 < w := Nat.zero_lt_of_lt (lt_of_has sound member)
  have within : p < w * w := (Nat.div_lt_iff_lt_mul wide).mp (lt_of_has sound member)
  have gone : ((Finset.range (w * w)).filter fun q => (s.erase p).has q = true) =
      ((Finset.range (w * w)).filter fun q => s.has q = true).erase p := by
    ext q
    simp only [Finset.mem_filter, Finset.mem_erase, has_erase s p q wide, Bool.and_eq_true,
      Bool.not_eq_true', decide_eq_false_iff_not]
    tauto
  rw [size, size, gone]
  exact Finset.card_erase_add_one (Finset.mem_filter.mpr ⟨Finset.mem_range.mpr within, member⟩)

theorem size_le (s : PrioritySet w) : s.size ≤ w * w := by
  rw [size]
  exact (Finset.card_filter_le _ _).trans (Finset.card_range _).le

end PrioritySet
end GasSub.Library
