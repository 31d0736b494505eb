import GasSub.Source.UserSetTime
import Mathlib.Tactic.IntervalCases

/-!
# The dates that the time dialog accepts

`CheckTime` looks at upper bounds only, but for the year. A day 0 is below every month
length, and a month 0 takes the length of the months that are not named.
-/
namespace GasSub.Guarantees.DateValidation
open GasSub.Source

/-- A leap year of the Gregorian calendar. -/
def Leap (year : Nat) : Prop := 4 ∣ year ∧ (100 ∣ year → 400 ∣ year)

instance : DecidablePred Leap := fun _ => inferInstanceAs (Decidable (_ ∧ _))

/-- The months of the Gregorian calendar have this many days. -/
def monthLength (year : Nat) : Nat → Nat
  | 2 => if Leap year then 29 else 28
  | 4 | 6 | 9 | 11 => 30
  | _ => 31

/-- A Gregorian date and a time of day, in the years that the dialog is for. -/
structure Gregorian (date : MyDate) : Prop where
  year : 1990 ≤ date.year.toNat ∧ date.year.toNat ≤ 2100
  month : 1 ≤ date.mon.toNat ∧ date.mon.toNat ≤ 12
  day : 1 ≤ date.day.toNat ∧ date.day.toNat ≤ monthLength date.year.toNat date.mon.toNat
  hour : date.hour.toNat < 24
  minute : date.min.toNat < 60
  second : date.sec.toNat < 60

/-- `CheckTime` accepts what is a valid date and nothing else. -/
def Validates (date : MyDate) : Prop := checkTime date = true ↔ Gregorian date

/-- The bounds of `CheckTime` that do not look at the day. -/
structure InRange (date : MyDate) : Prop where
  year : 1990 ≤ date.year.toNat ∧ date.year.toNat ≤ 2100
  month : date.mon.toNat ≤ 12
  hour : date.hour.toNat < 24
  minute : date.min.toNat < 60
  second : date.sec.toNat < 60

theorem isLeap_iff {year : INT32U} (small : year.toNat ≤ 2100) :
    isLeap (year.setWidth 16) = true ↔ Leap year.toNat := by
  have same : (year.setWidth 16).toNat = year.toNat := by
    rw [BitVec.toNat_setWidth]
    exact Nat.mod_eq_of_lt (by omega)
  simp only [isLeap, Leap, ← BitVec.toNat_inj, ne_eq, BitVec.toNat_umod, same]
  simp
  omega

/-- In range, the table of `CheckTime` holds the month lengths; a month 0 has 30 days. -/
theorem dayOfMon_toNat {date : MyDate} (range : InRange date) :
    (dayOfMon date).toNat =
      if date.mon.toNat = 0 then 30 else monthLength date.year.toNat date.mon.toNat := by
  have leap := isLeap_iff range.year.2
  have month := range.month
  simp only [dayOfMon, ← BitVec.toNat_inj]
  generalize date.mon.toNat = mon at month ⊢
  interval_cases mon <;> simp [monthLength]
  by_cases leapYear : Leap date.year.toNat
  · rw [if_pos (leap.mpr leapYear), if_pos leapYear]
    rfl
  · rw [if_neg fun accepted => leapYear (leap.mp accepted), if_neg leapYear]
    rfl

theorem checkTime_iff (date : MyDate) :
    checkTime date = true ↔ InRange date ∧ date.day.toNat ≤ (dayOfMon date).toNat := by
  have wide : ((dayOfMon date).setWidth 32).toNat = (dayOfMon date).toNat := by
    rw [BitVec.toNat_setWidth]
    exact Nat.mod_eq_of_lt (by omega)
  have range : InRange date ↔ ¬ (60 ≤ date.sec ∨ 60 ≤ date.min ∨ 24 ≤ date.hour ∨ 12 < date.mon ∨
      date.year < 1990 ∨ 2100 < date.year) := by
    simp only [BitVec.lt_def, BitVec.le_def, not_or, Nat.not_lt, Nat.not_le]
    constructor
    · intro range
      exact ⟨range.second, range.minute, range.hour, range.month, range.year⟩
    · rintro ⟨second, minute, hour, month, year⟩
      exact ⟨year, month, hour, minute, second⟩
  rw [range, checkTime]
  split
  · case isTrue outside =>
    exact iff_of_false Bool.false_ne_true fun accepted => accepted.1 outside
  · case isFalse inside =>
    rw [and_iff_right inside]
    simp [BitVec.lt_def, wide]

/-- The dialog tells valid dates from others exactly for a date whose month and day are
not 0, or that is out of range elsewhere, or that has a month 0 and a day above 30. -/
theorem checkTime_validates_iff (date : MyDate) :
    Validates date ↔
      (1 ≤ date.mon.toNat ∧ 1 ≤ date.day.toNat) ∨ ¬ InRange date ∨
        (date.mon.toNat = 0 ∧ 30 < date.day.toNat) := by
  rw [Validates, checkTime_iff]
  by_cases range : InRange date
  · have length := dayOfMon_toNat range
    have valid : Gregorian date ↔ 1 ≤ date.mon.toNat ∧ 1 ≤ date.day.toNat ∧
        date.day.toNat ≤ monthLength date.year.toNat date.mon.toNat := by
      constructor
      · intro date
        exact ⟨date.month.1, date.day⟩
      · rintro ⟨month, day⟩
        exact ⟨range.year, ⟨month, range.month⟩, day, range.hour, range.minute, range.second⟩
    simp only [range, true_and, not_true_eq_false, false_or, valid, length]
    by_cases noMonth : date.mon.toNat = 0
    · simp only [noMonth, if_true, true_and]
      omega
    · have long : 28 ≤ monthLength date.year.toNat date.mon.toNat := by
        unfold monthLength
        split <;> try split_ifs
        all_goals decide
      simp only [noMonth, if_false]
      omega
  · have invalid : ¬ Gregorian date := fun valid =>
      range ⟨valid.year, valid.month.2, valid.hour, valid.minute, valid.second⟩
    simp only [range, invalid, false_and, not_false_eq_true, true_or, or_true]

/-- The day 0 of May 2014. -/
theorem checkTime_not_validates :
    ¬ Validates { year := 2014, mon := 5, day := 0, hour := 0, min := 0, sec := 0 } := by
  intro validates
  have valid := validates.mp (by decide)
  exact absurd valid.day.1 (by decide)

end GasSub.Guarantees.DateValidation
