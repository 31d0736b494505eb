import Mathlib.Data.List.Induction
import GasSub.Source.OnPaint
import GasSub.Source.ShowInfo

/-!
# The list of the main window

The rows of the list view of `user_menu.c`: `InitListview` adds one for each test point,
`_OnPaint` sets the texts of up to fifteen of them in each pass, and `_cbReversiWin` opens
the point that the selected row stands for.
-/
namespace GasSub.Source
open GasSub.Library.Decimal

/-- The texts in a row, from the first column on. -/
structure Row where
  no : Text
  sensorType : Text
  location : Text
  collectData : Text
  portType : Text
  deriving DecidableEq, Repr

abbrev ListView := List Row

def Row.set (row : Row) (column : Nat) (text : Text) : Row :=
  match column with
  | 0 => { row with no := text }
  | 1 => { row with sensorType := text }
  | 2 => { row with location := text }
  | 3 => { row with collectData := text }
  | 4 => { row with portType := text }
  | _ => row

/-- `LISTVIEW_AddRow`. -/
def listviewAddRow (view : ListView) (row : Row) : ListView := view ++ [row]

/-- `LISTVIEW_SetItemText`; a row that is not there is not set. -/
def listviewSetItemText (view : ListView) (column row : Nat) (text : Text) : ListView :=
  view.modify row fun cells => cells.set column text

section Texts

-- what is returned for a point whose name is not in `SensorTable`
variable (stray : Testpoint → TestpointShowInfo)

/-- `tp->getShowInfo(tp)`, a field of it. -/
def Testpoint.shown (tp : Testpoint) (field : ShowField) : Text :=
  shownText (tp.callGetShowInfo.getD (stray tp)) field

def CellText.text : CellText → Text
  | .number n => intText n
  | .sensorType tp => tp.shown stray .sensorType
  | .location tp => tp.shown stray .location
  | .collectData tp => tp.shown stray .collectData
  | .portType tp => tp.shown stray .portType

/-- A call that `_OnPaint` makes; colours are not texts. -/
def ListviewCall.apply (view : ListView) : ListviewCall → ListView
  | .setItemTextColor .. => view
  | .setItemText column row text => listviewSetItemText view column row (text.text stray)

/-- `_aTable` for a test point. -/
def addedRow (tp : Testpoint) : Row :=
  { no := tp.shown stray .testpointNo
    sensorType := tp.shown stray .sensorType
    location := tp.shown stray .location
    collectData := tp.shown stray .collectData
    portType := tp.shown stray .portType }

/-- `InitListview`. -/
def initListview (list : List Testpoint) : ListView :=
  list.foldl (fun view tp => listviewAddRow view (addedRow stray tp)) []

/-- The list view after some passes of `_OnPaint`, and what is sent to the port board. -/
def paintPasses (list : List Testpoint) : Nat → SendStruct × ListView → Option (SendStruct × ListView)
  | 0, screen => some screen
  | n + 1, screen => do
    let (info, calls) ← onPaint list screen.1
    paintPasses list n (info, calls.foldl (ListviewCall.apply stray) screen.2)

end Texts

/-- The walk of `_cbReversiWin`, with `currentTp` as it is so far. -/
def enterWalk (curSel : INT16U) : INT16U → List Testpoint → Option Testpoint → Option Testpoint
  | _, [], currentTp => currentTp
  | i, tp :: rest, _ => if i = curSel then some tp else enterWalk curSel (i + 1) rest (some tp)

/-- `currentTp` after ENTER on the selected row; nothing is copied from an empty list. -/
def enterTestpoint (list : List Testpoint) (sel : Nat) : Option Testpoint :=
  enterWalk (BitVec.ofNat 16 sel) 0 list none

/-! ### The rows added and set -/

variable {stray : Testpoint → TestpointShowInfo}

theorem initListview_eq (list : List Testpoint) : initListview stray list = list.map (addedRow stray) := by
  unfold initListview listviewAddRow
  induction list using List.reverseRecOn with
  | nil => rfl
  | append_singleton list tp ih => rw [List.foldl_append, ih, List.map_append]; rfl

/-- The row that a pass leaves for a test point. -/
def paintedRow (stray : Testpoint → TestpointShowInfo) (row : Nat) (tp : Testpoint) : Row :=
  { addedRow stray tp with no := intText (row + 1 : Nat) }

theorem apply_rowTexts (view : ListView) (row : Nat) (tp : Testpoint) :
    (rowTexts row tp).foldl (ListviewCall.apply stray) view =
      view.set row (paintedRow stray row tp) := by
  simp only [rowTexts, List.foldl_cons, List.foldl_nil, ListviewCall.apply, listviewSetItemText,
    List.modify_modify_eq]
  apply List.ext_getElem?
  intro i
  rw [List.getElem?_modify, List.getElem?_set]
  by_cases here : row = i
  · subst here
    cases found : view[row]? with
    | none => simpa using found
    | some cells =>
      have inside := (List.getElem?_eq_some_iff.mp found).1
      simp [inside, Row.set, paintedRow, addedRow, CellText.text]
  · simp [here]

/-- A visit of a sensor sets its row. -/
theorem onPaintVisit_row (s : Sensor) (before : PaintState) :
    ∃ after, onPaintVisit s.testpoint before = some after ∧
      after.row = (if before.row + 1 ≥ 15 then 0 else before.row + 1) ∧
      ∀ view, after.calls.foldl (ListviewCall.apply stray) view =
        (before.calls.foldl (ListviewCall.apply stray) view).set before.row
          (paintedRow stray before.row s.testpoint) := by
  obtain ⟨after, visited, -⟩ := onPaintVisit_sensor s before
  refine ⟨after, visited, ?_⟩
  simp only [onPaintVisit, Option.bind_eq_bind, Option.bind_eq_some_iff, Option.some.injEq] at visited
  obtain ⟨_, -, alarm, -, lift, -, _, -, _, -, _, -, _, -, rfl⟩ := visited
  refine ⟨rfl, fun view => ?_⟩
  rw [List.foldl_append, List.foldl_append, List.foldl_append, apply_rowTexts]
  cases alarm <;> cases lift <;> rfl

end GasSub.Source
