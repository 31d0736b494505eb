import GasSub.Library.BitMask
import Mathlib.Logic.Function.Basic

/-!
# Event flags

Events that are posted as one bit each of a word. A post sets the bit of its
event, a reader takes the bits of a set of events out of the word at once.
Which events are pending is read off the word bit by bit.
-/
namespace GasSub.Library.EventFlags
open GasSub.Library.BitMask

/-- Every event has a bit of its own. -/
structure Coding (ε : Type) (w : Nat) where
  index : ε → Nat
  inside : ∀ e, index e < w
  apart : Function.Injective index

variable {ε : Type} {w : Nat} (c : Coding ε w)

def Coding.code (e : ε) : BitVec w := 1#w <<< c.index e

/-- The codes of a list of events together. -/
def Coding.mask (es : List ε) : BitVec w := es.foldl (fun acc e => acc ||| c.code e) 0

def Coding.Pending (flags : BitVec w) (e : ε) : Prop := flags.getLsbD (c.index e) = true

instance (flags : BitVec w) (e : ε) : Decidable (c.Pending flags e) :=
  inferInstanceAs (Decidable (_ = true))

theorem getLsbD_code (e : ε) (i : Nat) : (c.code e).getLsbD i = decide (c.index e = i) := by
  have shift : c.code e = BitVec.twoPow w (c.index e) := (BitVec.twoPow_eq w (c.index e)).symm
  rw [shift, BitVec.getLsbD_twoPow, decide_eq_true (c.inside e), Bool.true_and]

theorem getLsbD_mask (es : List ε) (i : Nat) :
    (c.mask es).getLsbD i = es.any fun e => decide (c.index e = i) := by
  have zero : (0 : BitVec w).getLsbD i = false := BitVec.getLsbD_zero
  rw [Coding.mask, getLsbD_foldl_or, zero, Bool.false_or]
  simp only [getLsbD_code]

theorem pending_code (e x : ε) : c.Pending (c.code e) x ↔ x = e := by
  rw [Coding.Pending, getLsbD_code, decide_eq_true_eq]
  exact ⟨fun same => (c.apart same).symm, fun same => congrArg c.index same.symm⟩

theorem pending_post (flags : BitVec w) (e x : ε) :
    c.Pending (flags ||| c.code e) x ↔ c.Pending flags x ∨ x = e := by
  have code := pending_code c e x
  rw [Coding.Pending] at code
  rw [Coding.Pending, BitVec.getLsbD_or, Bool.or_eq_true, code, Coding.Pending]

theorem pending_take (flags : BitVec w) (es : List ε) (x : ε) :
    c.Pending (flags &&& c.mask es) x ↔ c.Pending flags x ∧ x ∈ es := by
  rw [Coding.Pending, BitVec.getLsbD_and, Bool.and_eq_true, getLsbD_mask, List.any_eq_true,
    Coding.Pending]
  constructor
  · intro both
    obtain ⟨e, member, same⟩ := both.2
    have here := c.apart (of_decide_eq_true same)
    subst here
    exact ⟨both.1, member⟩
  · intro both
    exact ⟨both.1, x, both.2, decide_eq_true rfl⟩

theorem pending_clear (flags taken : BitVec w) (x : ε) :
    c.Pending (flags &&& ~~~taken) x ↔ c.Pending flags x ∧ ¬ c.Pending taken x := by
  have inside := c.inside x
  rw [Coding.Pending, BitVec.getLsbD_and, BitVec.getLsbD_not, decide_eq_true inside, Bool.true_and,
    Bool.and_eq_true, Bool.not_eq_true', Coding.Pending, Coding.Pending, Bool.not_eq_true]

/-- What a reader takes is determined by the events that are pending in it. -/
theorem take_eq (flags word : BitVec w) (es : List ε)
    (coded : ∀ i, word.getLsbD i = true → ∃ e, c.index e = i)
    (same : ∀ x, c.Pending (flags &&& c.mask es) x ↔ c.Pending word x) :
    flags &&& c.mask es = word := by
  apply BitVec.eq_of_getLsbD_eq
  intro i _
  rw [Bool.eq_iff_iff]
  constructor
  · intro set
    have masked := set
    rw [BitVec.getLsbD_and, getLsbD_mask, Bool.and_eq_true, List.any_eq_true] at masked
    obtain ⟨e, -, here⟩ := masked.2
    have place := of_decide_eq_true here
    subst place
    exact (same e).mp set
  · intro set
    obtain ⟨e, place⟩ := coded i set
    subst place
    exact (same e).mpr set

/-- A reader takes exactly `e` when `e` alone is pending among the events it asks for. -/
theorem take_eq_code_iff (flags : BitVec w) (es : List ε) (e : ε) :
    flags &&& c.mask es = c.code e ↔ ∀ x, c.Pending flags x ∧ x ∈ es ↔ x = e := by
  constructor
  · intro taken x
    rw [← pending_take c flags es x, taken, pending_code]
  · intro alone
    refine take_eq c flags (c.code e) es ?_ fun x => ?_
    · intro i set
      rw [getLsbD_code, decide_eq_true_eq] at set
      exact ⟨e, set⟩
    · rw [pending_take, pending_code]
      exact alone x

theorem take_eq_zero_iff (flags : BitVec w) (es : List ε) :
    flags &&& c.mask es = 0 ↔ ∀ x ∈ es, ¬ c.Pending flags x := by
  have zero : ∀ i, (0 : BitVec w).getLsbD i = false := fun _ => BitVec.getLsbD_zero
  constructor
  · intro none x member pending
    have found := (pending_take c flags es x).mpr ⟨pending, member⟩
    rw [none, Coding.Pending, zero] at found
    cases found
  · intro none
    refine take_eq c flags 0 es (fun i set => ?_) fun x => ?_
    · rw [zero] at set
      cases set
    · rw [pending_take, Coding.Pending, Coding.Pending, zero]
      constructor
      · intro both
        exact absurd both.1 (none x both.2)
      · intro no
        cases no

end GasSub.Library.EventFlags
