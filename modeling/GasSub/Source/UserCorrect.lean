import Mathlib.Data.Rat.Cast.Order
import Mathlib.Logic.Function.Basic
import GasSub.Source.ConfigFile
import GasSub.Source.Eeprom
import GasSub.Source.UserSetAddr

/-!
# The calibration dialog

`getPortData`, `IfFinishedOneCorrect` and `GetAndSaveCorrectVal` of `user_Correct.c`.
The samples are kept in `xCorrect[16][2]` and `yCorrect[16][2]`, whose cells are numbered
from the first one on: a column that the array does not have is a cell of another row,
or of another variable. Float arithmetic is exact.
-/
namespace GasSub.Source
open GasSub.Library.Decimal

/-- An `INT32S [16][2]` and what lies around it. -/
abbrev Cells := Int → INT32S

/-- The cell of `array[port][column]`. -/
def cellOf (port : Fin 16) (column : Int) : Int := 2 * port.val + column

/-- The globals of the dialog. -/
structure Correct where
  xCorrect : Cells
  yCorrect : Cells
  prePort : INT32S
  preCurrent : INT32S
  getDataCnt : INT32S

/-- The values that `prePort`, `preCurrent` and `getDataCnt` start with. -/
def correctInit (xCorrect yCorrect : Cells) : Correct :=
  { xCorrect, yCorrect, prePort := 1000, preCurrent := -1, getDataCnt := 0 }

/-- What `getPortData` finds: the selected port, the texts of the two edit fields, what
the local `current` holds before it is scanned, and the reading of the port. -/
structure DataPress where
  port : Fin 16
  currentText : Text
  valueText : Text
  unscanned : INT32S
  ad : INT16U
  deriving DecidableEq, Repr

/-- `EDIT_GetText` with four characters and `sscanf` with `%d`. -/
def scanEdit4 (text : Text) : Option INT32S :=
  (scanInt (editGetText text 4)).map fun scanned => BitVec.ofInt 32 scanned.1

def DataPress.current (press : DataPress) : INT32S :=
  (scanEdit4 press.currentText).getD press.unscanned

/-- `IfFinishedOneCorrect`. -/
def ifFinishedOneCorrect (s : Correct) : Bool := 2 ≤ s.getDataCnt.toInt

/-- `getDataCnt` after the comparison with `preCurrent`. -/
def countedData (s : Correct) (press : DataPress) : INT32S :=
  if press.current ≠ s.preCurrent then s.getDataCnt + 1 else s.getDataCnt

/-- The column that `x` goes to, `getDataCnt % 2`. -/
def xColumn (s : Correct) (press : DataPress) : Int := (countedData s press).toInt.tmod 2

/-- The column that `y` goes to. -/
def yColumn (s : Correct) (press : DataPress) : Int := (countedData s press).toInt

/-- The press is on the port of the press before. -/
def OnSamePort (s : Correct) (press : DataPress) : Prop := BitVec.ofNat 32 press.port.val = s.prePort

instance (s : Correct) (press : DataPress) : Decidable (OnSamePort s press) :=
  inferInstanceAs (Decidable (_ = _))

/-- `getPortData`. -/
def getPortData (s : Correct) (press : DataPress) : Correct :=
  let port := press.port
  let sampled :=
    if OnSamePort s press then
      { s with
        getDataCnt := countedData s press
        xCorrect :=
          match scanEdit4 press.valueText with
          | some value => Function.update s.xCorrect (cellOf port (xColumn s press)) value
          | none => s.xCorrect
        yCorrect :=
          Function.update s.yCorrect (cellOf port (yColumn s press)) (press.ad.setWidth 32) }
    else { s with preCurrent := -1, getDataCnt := 0 }
  { sampled with prePort := BitVec.ofNat 32 port.val }

/-- The conversion of a float to `INT32S`: the fraction is dropped. A value that does not
fit has no defined result, and here the low bits of its integer. -/
def toInt32S (q : ℚ) : INT32S := BitVec.ofInt 32 (q.num.tdiv q.den)

/-- `GetAndSaveCorrectVal`. Two equal readings divide by zero, and what is converted then
is not a number. -/
def getAndSaveCorrectVal (xCorrect yCorrect : Cells) (correctInput : CorrectInput)
    (port : Fin 16) : Option CorrectInput :=
  let x := fun column => xCorrect (cellOf port column)
  let y := fun column => yCorrect (cellOf port column)
  if y 1 - y 0 = 0 then none
  else
    let k : ℚ := (x 1 - x 0).toInt / (y 1 - y 0).toInt
    let b : ℚ := (y 0).toInt - (correctInput.slope.get port * x 0).toInt
    some
      { slope := correctInput.slope.setIfInBounds port.val (toInt32S (k * 1000))
        intercept := correctInput.intercept.setIfInBounds port.val (toInt32S (b * 1000)) }

/-! ### What the functions change -/

/-- The count after a press. -/
theorem getPortData_count (s : Correct) (press : DataPress) :
    (getPortData s press).getDataCnt = if OnSamePort s press then countedData s press else 0 := by
  unfold getPortData
  split <;> rfl

theorem toInt32S_intCast (i : Int) : toInt32S (i : ℚ) = BitVec.ofInt 32 i := by
  unfold toInt32S
  rw [Rat.num_intCast, Rat.den_intCast]
  exact congrArg (BitVec.ofInt 32) (Int.tdiv_one i)

end GasSub.Source
