import GasSub.Source.EquipmentList

/-!
# The paint walk

`_OnPaint` of `user_menu.c`: every pass visits the equipment list, draws one
list-view row per test point and recomputes the output-port byte of the frame
sent over UART1. The window caption, the scrolling selection and the status
line are drawn outside the walk and are not represented.
-/
namespace GasSub.Source
open GasSub.Library.BitMask

inductive GuiColor where
  | red | white
  deriving DecidableEq, Repr

/-- A cell's text: the row number, or a field of `tp->getShowInfo(tp)`. -/
inductive CellText where
  | number (n : Nat)
  | sensorType (tp : Testpoint)
  | location (tp : Testpoint)
  | collectData (tp : Testpoint)
  | portType (tp : Testpoint)
  deriving DecidableEq, Repr

inductive ListviewCall where
  | setItemTextColor (column row : Nat) (color : GuiColor)
  | setItemText (column row : Nat) (text : CellText)
  deriving DecidableEq, Repr

def colorRow (row : Nat) (color : GuiColor) : List ListviewCall :=
  (List.range 5).map fun column => .setItemTextColor column row color

def rowTexts (row : Nat) (tp : Testpoint) : List ListviewCall :=
  [.setItemText 0 row (.number (row + 1)),
    .setItemText 1 row (.sensorType tp),
    .setItemText 2 row (.location tp),
    .setItemText 3 row (.collectData tp),
    .setItemText 4 row (.portType tp)]

/-- The locals of the walk: `ret`, the row counter `i` and the calls made. -/
structure PaintState where
  ret : INT8U
  row : Nat
  calls : List ListviewCall

def merge (ret : INT8U) (condition : Bool) (mask : Option INT8U) : Option INT8U :=
  if condition then mask.map fun m => ret ||| m else some ret

/-- The body of the walk's loop. -/
def onPaintVisit (tp : Testpoint) (s : PaintState) : Option PaintState := do
  let _ ← tp.getShowInfo
  let alarm ← tp.callIfAlarm
  let lift ← tp.callIfLiftAlarm
  let cut ← tp.callIfOutput
  let ret ← merge s.ret cut tp.callControlOutput
  let recover ← tp.callIfRecover
  let ret ← merge ret recover tp.callControlRecover
  some {
    ret := ret
    row := if s.row + 1 ≥ 15 then 0 else s.row + 1
    calls := s.calls ++ (if alarm then colorRow s.row .red else []) ++
      (if lift then colorRow s.row .white else []) ++ rowTexts s.row tp }

def onPaintWalk : List Testpoint → PaintState → Option PaintState
  | [], s => some s
  | tp :: rest, s => do
      let next ← onPaintVisit tp s
      onPaintWalk rest next

/-- `_OnPaint`: walk the list from `ret = 0`, then store `~ret`. Each element of
the list is the test point as it stands, under its lock, at its visit. -/
def onPaint (list : List Testpoint) (info : SendStruct) :
    Option (SendStruct × List ListviewCall) := do
  let s ← onPaintWalk list { ret := 0, row := 0, calls := [] }
  some ({ info with outPut := ~~~ s.ret }, s.calls)

/-! ### The byte the walk computes -/

/-- What one visit merges into `ret`. -/
def Sensor.contribution (s : Sensor) : INT8U :=
  (if s.Cuts then s.ports else 0) ||| (if s.Recovers then s.sparedPorts else 0)

theorem Sensor.contribution_bit (s : Sensor) (i : Nat) (inside : i < 8) :
    s.contribution.getLsbD i = true ↔
      (s.Cuts ∧ s.Controls i) ∨ (s.Recovers ∧ s.Spares i) := by
  have controlled : s.ports.getLsbD i = true ↔ s.Controls i := by
    cases hc : s.config <;> simp [ports, Controls, AnalogueConfig.ports, hc]
  have spared : s.sparedPorts.getLsbD i = true ↔ s.Spares i := by
    cases hc : s.config <;>
      simp [sparedPorts, Spares, AnalogueConfig.ports, hc, inside, Bool.and_eq_false_iff,
        -Bool.and_eq_false_imp]
  unfold contribution
  rw [BitVec.getLsbD_or, Bool.or_eq_true]
  by_cases cut : s.Cuts <;> by_cases recover : s.Recovers <;>
    simp [cut, recover, controlled, spared]

/-- One visit of a sensor succeeds and merges exactly its contribution. -/
theorem onPaintVisit_sensor (s : Sensor) (before : PaintState) :
    ∃ after, onPaintVisit s.testpoint before = some after ∧
      after.ret = before.ret ||| s.contribution := by
  obtain ⟨alarm, hAlarm⟩ := Option.isSome_iff_exists.mp s.callIfAlarm_isSome
  obtain ⟨lift, hLift⟩ := Option.isSome_iff_exists.mp s.callIfLiftAlarm_isSome
  have shown : s.testpoint.getShowInfo = some s.config.kind := rfl
  simp only [onPaintVisit, shown, hAlarm, hLift, s.callIfOutput_eq, s.callIfRecover_eq,
    s.callControlOutput_eq, s.callControlRecover_eq, Option.bind_eq_bind, Option.bind_some]
  by_cases cut : s.Cuts <;> by_cases recover : s.Recovers <;>
    simp [merge, Sensor.contribution, cut, recover, BitVec.or_assoc]

/-- The whole walk succeeds and merges every sensor's contribution. -/
theorem onPaintWalk_sensors (sensors : List Sensor) (before : PaintState) :
    ∃ after, onPaintWalk (sensors.map Sensor.testpoint) before = some after ∧
      after.ret = sensors.foldl (fun ret s => ret ||| s.contribution) before.ret := by
  induction sensors generalizing before with
  | nil => exact ⟨before, rfl, rfl⟩
  | cons s rest ih =>
    obtain ⟨next, visited, merged⟩ := onPaintVisit_sensor s before
    obtain ⟨after, walked, ret⟩ := ih next
    refine ⟨after, ?_, ?_⟩
    · simp only [List.map_cons, onPaintWalk, visited, Option.bind_eq_bind, Option.bind_some, walked]
    · rw [ret, merged, List.foldl_cons]

/-- The output byte a pass over these sensors stores. -/
def outputByte (sensors : List Sensor) : INT8U :=
  ~~~ sensors.foldl (fun ret s => ret ||| s.contribution) 0

/-- `_OnPaint` always completes on a list of sensors, stores `outputByte` and
keeps the other fields of the send structure. -/
theorem onPaint_sensors (sensors : List Sensor) (info : SendStruct) :
    ∃ calls, onPaint (sensors.map Sensor.testpoint) info =
      some ({ info with outPut := outputByte sensors }, calls) := by
  obtain ⟨after, walked, ret⟩ :=
    onPaintWalk_sensors sensors { ret := 0, row := 0, calls := [] }
  refine ⟨after.calls, ?_⟩
  simp only [onPaint, walked, Option.bind_eq_bind, Option.bind_some, ret, outputByte]

/-- A port is off after the pass exactly when some point cuts it, or some
recovering point does not control it. -/
theorem outputByte_off_iff (sensors : List Sensor) (i : Nat) (inside : i < 8) :
    (outputByte sensors).getLsbD i = false ↔
      ∃ s ∈ sensors, (s.Cuts ∧ s.Controls i) ∨ (s.Recovers ∧ s.Spares i) := by
  unfold outputByte
  rw [BitVec.getLsbD_not, getLsbD_foldl_or]
  simp only [inside, decide_true, Bool.true_and, BitVec.ofNat_eq_ofNat, BitVec.getLsbD_zero,
    Bool.false_or, Bool.not_eq_false', List.any_eq_true, Sensor.contribution_bit _ i inside]

end GasSub.Source
