import GasSub.Library.Run
import GasSub.Source.UserCorrect

/-!
# Sampling and calibrating a port

A port is calibrated from two samples, each taken with a press of the dialog. The counter
of the samples selects the column of `x` modulo two and the column of `y` as it is, and
`preCurrent`, with which an entered current is compared, is never updated. The intercept
is computed with the slope that was stored before.
-/
namespace GasSub.Guarantees.Calibration
open GasSub.Library.Run GasSub.Source GasSub.Library.Decimal

/-! ### Sampling -/

/-- The dialog, with the entered current of the last sample in each column since the port
was selected. -/
structure Sampling where
  code : Correct
  xSample : Int → Option INT32S
  ySample : Int → Option INT32S

/-- One press of the button. -/
def Sampling.step (s : Sampling) (press : DataPress) : Option Sampling :=
  let code := getPortData s.code press
  if OnSamePort s.code press then
    some
      { code
        xSample :=
          if (scanEdit4 press.valueText).isSome then
            Function.update s.xSample (xColumn s.code press) (some press.current)
          else s.xSample
        ySample := Function.update s.ySample (yColumn s.code press) (some press.current) }
  else some { code, xSample := fun _ => none, ySample := fun _ => none }

/-- The dialog before the first press. -/
def Sampling.start (xCorrect yCorrect : Cells) : Sampling :=
  { code := correctInit xCorrect yCorrect, xSample := fun _ => none, ySample := fun _ => none }

/-- A column of the row. -/
def InRow (column : Int) : Prop := column = 0 ∨ column = 1

instance (column : Int) : Decidable (InRow column) := inferInstanceAs (Decidable (_ ∨ _))

/-- Both columns hold samples of the selected port, at different currents. -/
def BothSampled (s : Sampling) : Prop :=
  ∃ first second, s.xSample 0 = some first ∧ s.ySample 0 = some first ∧
    s.xSample 1 = some second ∧ s.ySample 1 = some second ∧ first ≠ second

/-- A press writes into the two columns of its row, both values into the same one, and
finishes a port only when it has two samples. -/
structure Samples (s : Sampling) (press : DataPress) : Prop where
  y_row : OnSamePort s.code press → InRow (yColumn s.code press)
  x_row : OnSamePort s.code press → (scanEdit4 press.valueText).isSome → InRow (xColumn s.code press)
  slot : OnSamePort s.code press → (scanEdit4 press.valueText).isSome →
    xColumn s.code press = yColumn s.code press
  finished : ∀ t, s.step press = some t → ifFinishedOneCorrect t.code = true → BothSampled t

/-- On the selected port, a current other than `preCurrent` is entered for the first
sample only. -/
def CountsOnce (s : Sampling) (press : DataPress) : Prop :=
  OnSamePort s.code press → press.current ≠ s.code.preCurrent → s.code.getDataCnt = 0

theorem step_code {s t : Sampling} {press : DataPress} (taken : s.step press = some t) :
    t.code = getPortData s.code press := by
  unfold Sampling.step at taken
  split at taken <;> exact (congrArg Sampling.code (Option.some.inj taken)).symm

/-- No other cell is written than those of the two columns. -/
theorem getPortData_cells (s : Correct) (press : DataPress) (cell : Int) :
    ((getPortData s press).xCorrect cell = s.xCorrect cell ∨
        OnSamePort s press ∧ cell = cellOf press.port (xColumn s press)) ∧
      ((getPortData s press).yCorrect cell = s.yCorrect cell ∨
        OnSamePort s press ∧ cell = cellOf press.port (yColumn s press)) := by
  by_cases same : OnSamePort s press
  · simp only [getPortData, same, if_true, true_and]
    constructor
    · by_cases here : cell = cellOf press.port (xColumn s press)
      · exact Or.inr here
      · cases scanEdit4 press.valueText with
        | none => exact Or.inl rfl
        | some value => exact Or.inl (Function.update_of_ne here _ _)
    · by_cases here : cell = cellOf press.port (yColumn s press)
      · exact Or.inr here
      · exact Or.inl (Function.update_of_ne here _ _)
  · simp only [getPortData, same, if_false, true_or, and_self]

/-- The counter has counted at most one sample. -/
def CountedOnce (s : Sampling) : Prop := s.code.getDataCnt = 0 ∨ s.code.getDataCnt = 1

theorem counted_of_once {s : Sampling} {press : DataPress} (counted : CountedOnce s)
    (once : CountsOnce s press) (same : OnSamePort s.code press) :
    countedData s.code press = 0 ∨ countedData s.code press = 1 := by
  unfold countedData
  split
  · case isTrue differs =>
    rw [once same differs]
    exact Or.inr rfl
  · exact counted

theorem countedOnce_step {s t : Sampling} {press : DataPress} (counted : CountedOnce s)
    (once : CountsOnce s press) (taken : s.step press = some t) : CountedOnce t := by
  unfold CountedOnce
  rw [step_code taken, getPortData_count]
  split
  · case isTrue same => exact counted_of_once counted once same
  · exact Or.inl rfl

/-- One press: the second sample that is counted is the first that goes wrong. -/
theorem samples_iff {s : Sampling} {press : DataPress} (counted : CountedOnce s) :
    CountsOnce s press ↔ Samples s press := by
  constructor
  · intro once
    have columns : OnSamePort s.code press →
        InRow (yColumn s.code press) ∧ xColumn s.code press = yColumn s.code press := by
      intro same
      unfold InRow xColumn yColumn
      rcases counted_of_once counted once same with zero | one
      · rw [zero]
        exact ⟨Or.inl rfl, rfl⟩
      · rw [one]
        exact ⟨Or.inr rfl, rfl⟩
    refine ⟨fun same => (columns same).1, fun same _ => ?_, fun same _ => (columns same).2, ?_⟩
    · rw [(columns same).2]
      exact (columns same).1
    · intro t taken finished
      have unfinished : ifFinishedOneCorrect t.code = false := by
        unfold ifFinishedOneCorrect
        rcases countedOnce_step counted once taken with zero | one
        · rw [zero]
          rfl
        · rw [one]
          rfl
      rw [unfinished] at finished
      cases finished
  · intro samples same differs
    rcases counted with zero | one
    · exact zero
    · have column := samples.y_row same
      rw [yColumn, countedData, if_pos differs, one] at column
      rcases column with first | second
      · cases first
      · cases second

/-- Along every sequence of presses, each of them samples as it should exactly when on
each selected port no more than one press counts. -/
theorem sampling_iff (xCorrect yCorrect : Cells) (presses : List DataPress) :
    EachStep Sampling.step Samples (Sampling.start xCorrect yCorrect) presses ↔
      EachStep Sampling.step CountsOnce (Sampling.start xCorrect yCorrect) presses :=
  (eachStep_congr_of_kept (I := CountedOnce) (fun _ _ _ => countedOnce_step)
    (fun _ _ => samples_iff) (Or.inl rfl)).symm

/-- A press on the first port with the same current in both fields. -/
def press (text : String) : DataPress :=
  { port := 0, currentText := ascii text, valueText := ascii text, unscanned := 0, ad := 100 }

/-- The port is selected, then sampled at 4 mA and at 20 mA. -/
theorem sampling_wrong :
    ¬ EachStep Sampling.step Samples (Sampling.start (fun _ => 0) (fun _ => 0))
      [press "0000", press "0004", press "0020"] := by
  intro each
  have second := (each.2 _ rfl).2 _ rfl
  exact absurd (second.1.y_row (by decide)) (by decide)

/-! ### Calibrating -/

/-- Nothing changes for the other ports. -/
def OthersKept (port : Fin 16) (before after : CorrectInput) : Prop :=
  ∀ other ≠ port, after.slope.get other = before.slope.get other ∧
    after.intercept.get other = before.intercept.get other

/-- The calibration of a port comes out the same on two prior contents. -/
def Memoryless (xCorrect yCorrect : Cells) (port : Fin 16) (prior other : CorrectInput) : Prop :=
  ∃ saved saved', getAndSaveCorrectVal xCorrect yCorrect prior port = some saved ∧
    getAndSaveCorrectVal xCorrect yCorrect other port = some saved' ∧
    saved.slope.get port = saved'.slope.get port ∧
    saved.intercept.get port = saved'.intercept.get port ∧
    OthersKept port prior saved ∧ OthersKept port other saved'

theorem get_set_self {n : Nat} (cells : Vector INT32S n) (i : Fin n) (value : INT32S) :
    (cells.setIfInBounds i.val value).get i = value := Vector.getElem_setIfInBounds_self i.isLt

theorem get_set_ne {n : Nat} (cells : Vector INT32S n) {i j : Fin n} (other : j ≠ i)
    (value : INT32S) : (cells.setIfInBounds i.val value).get j = cells.get j :=
  Vector.getElem_setIfInBounds_ne j.isLt fun same => other (Fin.ext same.symm)

/-- The slope that is saved, from the two samples alone. -/
def savedSlope (xCorrect yCorrect : Cells) (port : Fin 16) : INT32S :=
  let x := fun column => xCorrect (cellOf port column)
  let y := fun column => yCorrect (cellOf port column)
  toInt32S (((x 1 - x 0).toInt / (y 1 - y 0).toInt : ℚ) * 1000)

/-- The intercept that is saved, from the slope that was stored. -/
def savedIntercept (slope x y : INT32S) : INT32S := (y - slope * x) * 1000

theorem ofInt_sub_toInt (a b : INT32S) : BitVec.ofInt 32 (a.toInt - b.toInt) = a - b := by
  apply BitVec.eq_of_toInt_eq
  rw [BitVec.toInt_ofInt, BitVec.toInt_sub]

theorem intercept_eq (slope x y : INT32S) :
    toInt32S (((y.toInt : ℚ) - ((slope * x).toInt : ℚ)) * 1000) = savedIntercept slope x y := by
  have cast : ((y.toInt : ℚ) - ((slope * x).toInt : ℚ)) * 1000 =
      (((y.toInt - (slope * x).toInt) * 1000 : Int) : ℚ) := by
    push_cast
    rfl
  rw [cast, toInt32S_intCast, BitVec.ofInt_mul, ofInt_sub_toInt]
  rfl

theorem savedIntercept_eq_iff (slope slope' x y : INT32S) :
    savedIntercept slope x y = savedIntercept slope' x y ↔
      slope * x * 1000 = slope' * x * 1000 := by
  unfold savedIntercept
  constructor
  · intro same
    grind
  · intro same
    grind

/-- What calibrating a port leaves. -/
def calibrated (xCorrect yCorrect : Cells) (content : CorrectInput) (port : Fin 16) :
    CorrectInput :=
  { slope := content.slope.setIfInBounds port.val (savedSlope xCorrect yCorrect port)
    intercept := content.intercept.setIfInBounds port.val
      (savedIntercept (content.slope.get port) (xCorrect (cellOf port 0))
        (yCorrect (cellOf port 0))) }

theorem getAndSaveCorrectVal_eq {xCorrect yCorrect : Cells} {port : Fin 16}
    (distinct : yCorrect (cellOf port 1) ≠ yCorrect (cellOf port 0)) (content : CorrectInput) :
    getAndSaveCorrectVal xCorrect yCorrect content port =
      some (calibrated xCorrect yCorrect content port) := by
  have divisor : yCorrect (cellOf port 1) - yCorrect (cellOf port 0) ≠ 0 := by
    intro zero
    grind
  simp only [getAndSaveCorrectVal, divisor, if_false, intercept_eq]
  rfl

/-- Only the entries of the port are replaced. -/
theorem othersKept_calibrated (xCorrect yCorrect : Cells) (content : CorrectInput)
    (port : Fin 16) : OthersKept port content (calibrated xCorrect yCorrect content port) := by
  intro other differs
  exact ⟨get_set_ne content.slope differs _, get_set_ne content.intercept differs _⟩

/-- The slope comes from the samples, so only the intercepts can differ. -/
theorem memoryless_intercepts {xCorrect yCorrect : Cells} {port : Fin 16}
    (distinct : yCorrect (cellOf port 1) ≠ yCorrect (cellOf port 0))
    (prior other : CorrectInput) :
    Memoryless xCorrect yCorrect port prior other ↔
      savedIntercept (prior.slope.get port) (xCorrect (cellOf port 0))
          (yCorrect (cellOf port 0)) =
        savedIntercept (other.slope.get port) (xCorrect (cellOf port 0))
          (yCorrect (cellOf port 0)) := by
  have intercept : ∀ content, (calibrated xCorrect yCorrect content port).intercept.get port =
      savedIntercept (content.slope.get port) (xCorrect (cellOf port 0))
        (yCorrect (cellOf port 0)) := fun content => get_set_self content.intercept port _
  have slope : ∀ content, (calibrated xCorrect yCorrect content port).slope.get port =
      savedSlope xCorrect yCorrect port := fun content => get_set_self content.slope port _
  constructor
  · rintro ⟨saved, saved', first, second, -, same, -, -⟩
    rw [getAndSaveCorrectVal_eq distinct] at first second
    cases first
    cases second
    rw [← intercept, ← intercept, same]
  · intro same
    refine ⟨_, _, getAndSaveCorrectVal_eq distinct prior, getAndSaveCorrectVal_eq distinct other,
      ?_, ?_, othersKept_calibrated _ _ _ _, othersKept_calibrated _ _ _ _⟩
    · rw [slope, slope]
    · rw [intercept, intercept, same]

/-- No slope and no intercept, but for the slope of the first port. -/
def firstSlope (slope : INT32S) : CorrectInput :=
  { slope := (Vector.replicate 16 0).set 0 slope
    intercept := Vector.replicate 16 0 }

/-- A current of 4 mA is read as 100, one of 20 mA as 200. -/
def sampledX : Cells := fun cell => if cell = 0 then 4 else 20

def sampledY : Cells := fun cell => if cell = 0 then 100 else 200

/-- Calibrating does not depend on what was stored exactly when the products of the stored
slopes with the first x-value agree, times 1000. -/
theorem memoryless_iff (xCorrect yCorrect : Cells) (port : Fin 16) (prior other : CorrectInput)
    (distinct : yCorrect (cellOf port 1) ≠ yCorrect (cellOf port 0)) :
    Memoryless xCorrect yCorrect port prior other ↔
      prior.slope.get port * xCorrect (cellOf port 0) * 1000 =
        other.slope.get port * xCorrect (cellOf port 0) * 1000 := by
  rw [memoryless_intercepts distinct, savedIntercept_eq_iff]

/-- Everything that was stored differs but the slope of the port. -/
theorem memoryless_iff_equal :
    Memoryless sampledX sampledY 0 (firstSlope 7) ⟨Vector.replicate 16 7, Vector.replicate 16 9⟩ :=
  (memoryless_iff sampledX sampledY 0 (firstSlope 7) ⟨Vector.replicate 16 7, Vector.replicate 16 9⟩
    (by decide)).mpr rfl

/-- The port is calibrated for the first time, and again with the slope saved then. -/
theorem memoryless_wrong :
    ¬ Memoryless sampledX sampledY 0 (firstSlope 0) (firstSlope 160) := by
  rw [memoryless_intercepts (by decide)]
  decide

end GasSub.Guarantees.Calibration
