import Mathlib.Algebra.Order.Ring.Int

/-!
# A register that is compared with codes

Bits are shifted into a register, the most significant first, and after each of them the
register is compared with a list of codes and cleared where it is one of them. What the
register held before can complete a code too early, and a code is lost once the register
has been cleared in the middle of it.
-/
namespace GasSub.Library.ShiftRegister

variable {w : Nat}

/-- The register after one more bit. -/
def shiftIn (r : BitVec w) (bit : Bool) : BitVec w := r <<< 1 ||| if bit then 1#w else 0#w

/-- A register that held `r` and was shifted by the first `n` bits of `code`. -/
def shifted (r code : BitVec w) (n : Nat) : BitVec w := r <<< n ||| code >>> (w - n)

/-- The comparison. -/
def clearIn (codes : List (BitVec w)) (r : BitVec w) : BitVec w := if r ∈ codes then 0 else r

/-- The register after the first `n` bits of `code`, with the comparison after each. -/
def received (codes : List (BitVec w)) (r code : BitVec w) : Nat → BitVec w
  | 0 => r
  | n + 1 => clearIn codes (shiftIn (received codes r code n) (code.getLsbD (w - 1 - n)))

/-- No code is complete after one of the first `n` bits. -/
def Clean (codes : List (BitVec w)) (r code : BitVec w) (n : Nat) : Prop :=
  ∀ i, 1 ≤ i → i ≤ n → shifted r code i ∉ codes

theorem clearIn_notMem {codes : List (BitVec w)} (empty : 0 ∉ codes) (r : BitVec w) :
    clearIn codes r ∉ codes := by
  unfold clearIn
  split
  · exact empty
  · case isFalse apart => exact apart

theorem clearIn_of_notMem {codes : List (BitVec w)} {r : BitVec w} (apart : r ∉ codes) :
    clearIn codes r = r := if_neg apart

theorem getLsbD_shiftIn (r : BitVec w) (bit : Bool) (i : Nat) :
    (shiftIn r bit).getLsbD i =
      if i = 0 then decide (0 < w) && bit else decide (i < w) && r.getLsbD (i - 1) := by
  unfold shiftIn
  cases i with
  | zero => cases bit <;> simp
  | succ i => cases bit <;> simp

theorem getLsbD_shifted (r code : BitVec w) {n : Nat} (inside : n ≤ w) (i : Nat) :
    (shifted r code n).getLsbD i =
      if i < n then code.getLsbD (w - n + i) else decide (i < w) && r.getLsbD (i - n) := by
  unfold shifted
  rw [BitVec.getLsbD_or, BitVec.getLsbD_shiftLeft, BitVec.getLsbD_ushiftRight]
  split
  · case isTrue low => simp [low]
  · case isFalse high =>
    have outside : code.getLsbD (w - n + i) = false := BitVec.getLsbD_of_ge code _ (by omega)
    simp [high, outside]

@[simp] theorem shifted_zero (r code : BitVec w) : shifted r code 0 = r := by
  apply BitVec.eq_of_getLsbD_eq
  intro i inside
  rw [getLsbD_shifted r code (Nat.zero_le w)]
  simp [inside]

/-- After all its bits, the register holds the code, whatever it held before. -/
@[simp] theorem shifted_all (r code : BitVec w) : shifted r code w = code := by
  apply BitVec.eq_of_getLsbD_eq
  intro i inside
  rw [getLsbD_shifted r code (Nat.le_refl w)]
  simp [inside]

theorem shifted_succ (r code : BitVec w) {n : Nat} (inside : n < w) :
    shifted r code (n + 1) = shiftIn (shifted r code n) (code.getLsbD (w - 1 - n)) := by
  apply BitVec.eq_of_getLsbD_eq
  intro i place
  rw [getLsbD_shifted r code inside, getLsbD_shiftIn]
  cases i with
  | zero =>
    have first : w - (n + 1) = w - 1 - n := by omega
    simp [first]
    omega
  | succ i =>
    have next : w - (n + 1) + (i + 1) = w - n + i := by omega
    rw [getLsbD_shifted r code (Nat.le_of_lt inside)]
    simp [next, place, Nat.lt_of_succ_lt place]

/-- With no code complete too early, the comparisons change nothing. -/
theorem received_of_clean {codes : List (BitVec w)} {r code : BitVec w} {n : Nat} (inside : n ≤ w)
    (clean : Clean codes r code n) : received codes r code n = shifted r code n := by
  induction n with
  | zero => rw [received, shifted_zero]
  | succ n ih =>
    have before := ih (Nat.le_of_lt inside) fun i first last => clean i first (by omega)
    rw [received, before, ← shifted_succ r code inside, clearIn,
      if_neg (clean (n + 1) (by omega) (by omega))]

/-- Once the register has been cleared, the bits that were there before are missing. -/
theorem received_high {codes : List (BitVec w)} {r code : BitVec w} {n : Nat} (inside : n ≤ w)
    (dirty : ¬ Clean codes r code n) {i : Nat} (high : n ≤ i + 1) :
    (received codes r code n).getLsbD i = false := by
  induction n generalizing i with
  | zero => exact absurd (fun i first last => by omega) dirty
  | succ n ih =>
    rw [received, clearIn]
    by_cases earlier : Clean codes r code n
    · have cleared : shiftIn (received codes r code n) (code.getLsbD (w - 1 - n)) ∈ codes := by
        rw [received_of_clean (Nat.le_of_lt inside) earlier, ← shifted_succ r code inside]
        by_contra apart
        refine dirty fun k first last => ?_
        rcases Nat.lt_or_eq_of_le last with before | rfl
        · exact earlier k first (by omega)
        · exact apart
      rw [if_pos cleared]
      exact BitVec.getLsbD_zero
    · split
      · exact BitVec.getLsbD_zero
      · have positive : n ≠ 0 := by
          rintro rfl
          exact earlier fun k first last => by omega
        have before := ih (Nat.le_of_lt inside) earlier (show n ≤ (i - 1) + 1 by omega)
        rw [getLsbD_shiftIn, if_neg (by omega), before, Bool.and_false]

/-- A code whose first bit is set is completed by its last bit exactly when no code is
complete before. -/
theorem completes_iff {codes : List (BitVec (w + 1))} {r code : BitVec (w + 1)}
    (first : code.getLsbD w = true) :
    shiftIn (received codes r code w) (code.getLsbD 0) = code ↔ Clean codes r code w := by
  constructor
  · intro complete
    by_contra dirty
    have top := congrArg (fun x : BitVec (w + 1) => x.getLsbD w) complete
    have positive : w ≠ 0 := by
      rintro rfl
      exact dirty fun k first last => by omega
    have missing := received_high (Nat.le_succ w) dirty (show w ≤ (w - 1) + 1 by omega)
    simp only [getLsbD_shiftIn, if_neg positive, missing, Bool.and_false, first] at top
    cases top
  · intro clean
    have last : w + 1 - 1 - w = 0 := by omega
    rw [received_of_clean (Nat.le_succ w) clean, ← last, ← shifted_succ r code (Nat.lt_succ_self w)]
    exact shifted_all r code

end GasSub.Library.ShiftRegister
