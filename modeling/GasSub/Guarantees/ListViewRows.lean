import GasSub.Library.RoundRobin
import GasSub.Source.InitConf
import GasSub.Source.ListView

/-!
# What is shown and what is opened

The list view gets one row for each test point, but the row counter of `_OnPaint` starts
again at the sixteenth point, and the selection is compared with sixteen bits.
-/
namespace GasSub.Guarantees.ListViewRows
open GasSub.Library.Decimal GasSub.Library.RoundRobin GasSub.Source

variable {stray : Testpoint → TestpointShowInfo}

/-- The four texts of a test point agree; the first column is a number of the row. -/
structure SameTexts (row other : Row) : Prop where
  sensorType : row.sensorType = other.sensorType
  location : row.location = other.location
  collectData : row.collectData = other.collectData
  portType : row.portType = other.portType

instance (row other : Row) : Decidable (SameTexts row other) :=
  decidable_of_iff (row.sensorType = other.sensorType ∧ row.location = other.location ∧
    row.collectData = other.collectData ∧ row.portType = other.portType)
    ⟨fun same => ⟨same.1, same.2.1, same.2.2.1, same.2.2.2⟩,
      fun same => ⟨same.sensorType, same.location, same.collectData, same.portType⟩⟩

/-- Row `r` shows the texts of this test point, and its number or that of the row. -/
structure Shows (stray : Testpoint → TestpointShowInfo) (row : Row) (r : Nat) (tp : Testpoint) :
    Prop where
  texts : SameTexts row (addedRow stray tp)
  no : row.no = intText (r + 1 : Nat) ∨ row.no = (addedRow stray tp).no

/-- The list view after `InitListview` and this many passes of `_OnPaint`. -/
def viewAfter (stray : Testpoint → TestpointShowInfo) (list : List Testpoint) (passes : Nat)
    (info : SendStruct) : Option ListView :=
  (paintPasses stray list passes (info, initListview stray list)).map Prod.snd

/-- Each row shows the test point that ENTER opens on it. -/
def ShownIsOpened (stray : Testpoint → TestpointShowInfo) (list : List Testpoint) (passes : Nat)
    (info : SendStruct) : Prop :=
  ∃ view, viewAfter stray list passes info = some view ∧ view.length = list.length ∧
    ∀ r row, view[r]? = some row → ∃ tp, enterTestpoint list r = some tp ∧ Shows stray row r tp

/-! ### What a pass paints -/

theorem onPaintWalk_rows (sensors : List Sensor) {k : Nat} {before : PaintState}
    (row : before.row = k % 15) :
    ∃ after, onPaintWalk (sensors.map Sensor.testpoint) before = some after ∧
      ∀ view, after.calls.foldl (ListviewCall.apply stray) view =
        deal 15 k (before.calls.foldl (ListviewCall.apply stray) view)
          (sensors.mapIdx fun i s => paintedRow stray ((k + i) % 15) s.testpoint) := by
  induction sensors generalizing k before with
  | nil => exact ⟨before, rfl, fun view => rfl⟩
  | cons s rest ih =>
    obtain ⟨next, visited, advanced, painted⟩ := @onPaintVisit_row stray s before
    have counted : next.row = (k + 1) % 15 := by
      rw [advanced, row]
      split <;> omega
    obtain ⟨after, walked, rows⟩ := ih counted
    refine ⟨after, ?_, fun view => ?_⟩
    · simp only [List.map_cons, onPaintWalk, visited, Option.bind_eq_bind, Option.bind_some, walked]
    · rw [rows, painted, List.mapIdx_cons, deal, row]
      simp only [Nat.add_zero, Nat.add_right_comm k 1, Nat.add_assoc]

/-- The rows that a pass deals out. -/
def paintedRows (stray : Testpoint → TestpointShowInfo) (sensors : List Sensor) : List Row :=
  sensors.mapIdx fun i s => paintedRow stray (i % 15) s.testpoint

/-- The list view behind a pass. -/
def painted (stray : Testpoint → TestpointShowInfo) (sensors : List Sensor) (view : ListView) :
    ListView := deal 15 0 view (paintedRows stray sensors)

theorem onPaint_rows (stray : Testpoint → TestpointShowInfo) (sensors : List Sensor)
    (info : SendStruct) :
    ∃ info' calls, onPaint (sensors.map Sensor.testpoint) info = some (info', calls) ∧
      ∀ view, calls.foldl (ListviewCall.apply stray) view = painted stray sensors view := by
  obtain ⟨after, walked, rows⟩ := @onPaintWalk_rows stray sensors 0
    { ret := 0, row := 0, calls := [] } rfl
  refine ⟨{ info with outPut := ~~~ after.ret }, after.calls, ?_, fun view => ?_⟩
  · simp only [onPaint, walked, Option.bind_eq_bind, Option.bind_some]
  · rw [rows]
    simp only [Nat.zero_add, List.foldl_nil, painted, paintedRows]

/-- Every pass paints the same rows again. -/
theorem paintPasses_rows (sensors : List Sensor) (passes : Nat) (info : SendStruct)
    (view : ListView) :
    ∃ info', paintPasses stray (sensors.map Sensor.testpoint) passes (info, view) =
      some (info', (painted stray sensors)^[passes] view) := by
  induction passes generalizing info view with
  | zero => exact ⟨info, rfl⟩
  | succ passes ih =>
    obtain ⟨next, calls, pass, rows⟩ := onPaint_rows stray sensors info
    obtain ⟨last, done⟩ := ih next (painted stray sensors view)
    refine ⟨last, ?_⟩
    simp only [paintPasses, pass, Option.bind_eq_bind, Option.bind_some, rows,
      Function.iterate_succ_apply, done]

theorem length_painted (sensors : List Sensor) (passes : Nat) (view : ListView) :
    ((painted stray sensors)^[passes] view).length = view.length := by
  induction passes generalizing view with
  | zero => rfl
  | succ passes ih => rw [Function.iterate_succ_apply, ih, painted, length_deal]

/-- The test point whose texts are in row `r`. -/
def shownPoint (passes n r : Nat) : Nat := if passes ≠ 0 ∧ r < 15 then lastDealt 15 n r else r

/-- What is in row `r` behind all passes. -/
def shownRow (stray : Testpoint → TestpointShowInfo) (passes r : Nat) (tp : Testpoint) : Row :=
  if passes ≠ 0 ∧ r < 15 then paintedRow stray r tp else addedRow stray tp

theorem painted_beyond (sensors : List Sensor) (passes : Nat) (view : ListView) {r : Nat}
    (beyond : 15 ≤ r) : ((painted stray sensors)^[passes] view)[r]? = view[r]? := by
  induction passes generalizing view with
  | zero => rfl
  | succ passes ih => rw [Function.iterate_succ_apply, ih, painted, deal_beyond (by decide) beyond]

theorem painted_row (sensors : List Sensor) (passes : Nat) {view : ListView} {r : Nat}
    (place : r < view.length) (early : r < 15) (inside : r < sensors.length) :
    ((painted stray sensors)^[passes + 1] view)[r]? =
      (sensors[lastDealt 15 sensors.length r]?).map fun s => paintedRow stray r s.testpoint := by
  rw [Function.iterate_succ_apply', painted, deal_dealt (by rwa [length_painted]) early
    (by rwa [paintedRows, List.length_mapIdx]), paintedRows, List.getElem?_mapIdx,
    List.length_mapIdx, lastDealt_mod early]

/-- A row holds what was painted last, or what was added, if no pass paints it. -/
theorem passes_row (sensors : List Sensor) (passes : Nat) {r : Nat} (inside : r < sensors.length) :
    ((painted stray sensors)^[passes] (initListview stray (sensors.map Sensor.testpoint)))[r]? =
      (sensors[shownPoint passes sensors.length r]?).map
        fun s => shownRow stray passes r s.testpoint := by
  have added : (initListview stray (sensors.map Sensor.testpoint))[r]? =
      (sensors[r]?).map fun s => addedRow stray s.testpoint := by
    rw [initListview_eq, List.map_map, List.getElem?_map]
    rfl
  have place : r < (initListview stray (sensors.map Sensor.testpoint)).length := by
    rwa [initListview_eq, List.length_map, List.length_map]
  unfold shownPoint shownRow
  cases passes with
  | zero => exact added
  | succ passes =>
    by_cases early : r < 15
    · simp only [early, and_true, ne_eq, Nat.succ_ne_zero, not_false_eq_true, if_true]
      exact painted_row sensors passes place early inside
    · simp only [early, and_false, if_false]
      rw [painted_beyond sensors _ _ (Nat.le_of_not_lt early), added]

/-! ### What ENTER opens -/

/-- The walk stops at the first point whose number has the sixteen bits of the selection. -/
theorem enterWalk_eq {list : List Testpoint} {curSel i : INT16U} {current : Option Testpoint}
    {d : Nat} (inside : d < list.length) (stops : i + BitVec.ofNat 16 d = curSel)
    (first : ∀ e < d, i + BitVec.ofNat 16 e ≠ curSel) :
    enterWalk curSel i list current = list[d]? := by
  induction list generalizing i current d with
  | nil => cases inside
  | cons tp rest ih =>
    have shift : ∀ e, i + 1 + BitVec.ofNat 16 e = i + BitVec.ofNat 16 (e + 1) := by
      intro e
      rw [BitVec.ofNat_add, BitVec.add_assoc, BitVec.add_comm (1 : INT16U)]
      rfl
    rw [enterWalk]
    cases d with
    | zero =>
      have here : i = curSel := by simpa using stops
      rw [if_pos here]
      rfl
    | succ d =>
      have later : i ≠ curSel := by simpa using first 0 (Nat.zero_lt_succ d)
      rw [if_neg later, ih (Nat.lt_of_succ_lt_succ inside) (by rw [shift]; exact stops),
        List.getElem?_cons_succ]
      intro e before
      rw [shift]
      exact first (e + 1) (Nat.succ_lt_succ before)

theorem enterTestpoint_eq {list : List Testpoint} {r : Nat} (inside : r < list.length) :
    enterTestpoint list r = list[r % 65536]? := by
  have low : r % 65536 ≤ r := Nat.mod_le r 65536
  refine enterWalk_eq (Nat.lt_of_le_of_lt low inside) ?_ fun e before => ?_
  · simp [← BitVec.toNat_inj]
  · simp [← BitVec.toNat_inj]
    omega

/-! ### The rows -/

/-- Each row shows one test point, and ENTER opens one. -/
theorem rows_iff (sensors : List Sensor) (passes : Nat) (info : SendStruct) :
    ShownIsOpened stray (sensors.map Sensor.testpoint) passes info ↔
      ∀ r shown opened, r < sensors.length →
        sensors[shownPoint passes sensors.length r]? = some shown →
        sensors[r % 65536]? = some opened →
        Shows stray (shownRow stray passes r shown.testpoint) r opened.testpoint := by
  let view := (painted stray sensors)^[passes] (initListview stray (sensors.map Sensor.testpoint))
  have length : view.length = sensors.length := by
    rw [length_painted, initListview_eq, List.length_map, List.length_map]
  have shownView : viewAfter stray (sensors.map Sensor.testpoint) passes info = some view := by
    obtain ⟨last, done⟩ := @paintPasses_rows stray sensors passes info
      (initListview stray (sensors.map Sensor.testpoint))
    rw [viewAfter, done]
    rfl
  have opens : ∀ r < sensors.length, enterTestpoint (sensors.map Sensor.testpoint) r =
      (sensors[r % 65536]?).map Sensor.testpoint := by
    intro r inside
    rw [enterTestpoint_eq (by rwa [List.length_map]), List.getElem?_map]
  constructor
  · rintro ⟨other, same, -, rows⟩ r shown opened inside showing opening
    obtain rfl : view = other := Option.some.inj (shownView.symm.trans same)
    have row := @passes_row stray sensors passes r inside
    rw [showing] at row
    obtain ⟨tp, entered, shows⟩ := rows r _ row
    rw [opens r inside, opening] at entered
    cases entered
    exact shows
  · intro shows
    refine ⟨view, shownView, by rw [length, List.length_map], fun r row here => ?_⟩
    have inside : r < sensors.length := length ▸ (List.getElem?_eq_some_iff.mp here).1
    rw [passes_row sensors passes inside] at here
    obtain ⟨shown, showing, rfl⟩ := Option.map_eq_some_iff.mp here
    have low : r % 65536 < sensors.length := Nat.lt_of_le_of_lt (Nat.mod_le r 65536) inside
    have opening := List.getElem?_eq_getElem low
    refine ⟨_, by rw [opens r inside, opening]; rfl, ?_⟩
    exact shows r shown _ inside showing opening

theorem shows_added (tp : Testpoint) (r : Nat) : Shows stray (addedRow stray tp) r tp :=
  ⟨⟨rfl, rfl, rfl, rfl⟩, Or.inr rfl⟩

theorem shows_painted_iff (last own : Testpoint) (r : Nat) :
    Shows stray (paintedRow stray r last) r own ↔
      SameTexts (addedRow stray last) (addedRow stray own) := by
  constructor
  · rintro ⟨⟨sensorType, location, collectData, portType⟩, -⟩
    exact ⟨sensorType, location, collectData, portType⟩
  · rintro ⟨sensorType, location, collectData, portType⟩
    exact ⟨⟨sensorType, location, collectData, portType⟩, Or.inl rfl⟩

/-- What is shown is what is opened exactly when the last point that is painted into each
of the first fifteen rows has the texts of the row's own point, and no row from 65536 on
differs from the one whose number has the same sixteen bits. -/
theorem shownIsOpened_iff (stray : Testpoint → TestpointShowInfo) (sensors : List Sensor)
    (passes : Nat) (info : SendStruct) :
    ShownIsOpened stray (sensors.map Sensor.testpoint) passes info ↔
      (∀ r last own, passes ≠ 0 → r < 15 →
        sensors[lastDealt 15 sensors.length r]? = some last → sensors[r]? = some own →
        SameTexts (addedRow stray last.testpoint) (addedRow stray own.testpoint)) ∧
      ∀ r added opened, 65536 ≤ r → sensors[r]? = some added →
        sensors[r % 65536]? = some opened →
        Shows stray (addedRow stray added.testpoint) r opened.testpoint := by
  rw [rows_iff]
  constructor
  · intro shows
    refine ⟨fun r last own some_pass early lasts owns => ?_, fun r added opened late adds opening => ?_⟩
    · have inside := (List.getElem?_eq_some_iff.mp owns).1
      have small : r % 65536 = r := Nat.mod_eq_of_lt (by omega)
      have both : passes ≠ 0 ∧ r < 15 := ⟨some_pass, early⟩
      have row := shows r last own inside (by rwa [shownPoint, if_pos both]) (by rwa [small])
      rwa [shownRow, if_pos both, shows_painted_iff] at row
    · have inside := (List.getElem?_eq_some_iff.mp adds).1
      have unpainted : ¬ (passes ≠ 0 ∧ r < 15) := fun both => absurd both.2 (by omega)
      have row := shows r added opened inside (by rwa [shownPoint, if_neg unpainted]) opening
      rwa [shownRow, if_neg unpainted] at row
  · rintro ⟨first, late⟩ r shown opened inside showing opening
    unfold shownPoint at showing
    unfold shownRow
    split at showing
    · case isTrue both =>
      rw [if_pos both, shows_painted_iff]
      rw [Nat.mod_eq_of_lt (by omega)] at opening
      exact first r shown opened both.1 both.2 showing opening
    · case isFalse unpainted =>
      rw [if_neg unpainted]
      rcases Nat.lt_or_ge r 65536 with low | high
      · rw [Nat.mod_eq_of_lt low, showing] at opening
        obtain rfl := Option.some.inj opening
        exact shows_added shown.testpoint r
      · exact late r shown opened high showing opening

/-- A methane point on this port. -/
def methaneOn (portType : INT16U) : Sensor :=
  { config := .analogue { initConfAnalogue with portType }, upload := uploadNull }

/-- Sixteen methane points, on all voltage ports, and one pass. -/
theorem shownIsOpened_wrong :
    ¬ ShownIsOpened (fun _ => emptyShow)
      (((List.range 16).map fun i => methaneOn (BitVec.ofNat 16 (16 + i))).map Sensor.testpoint) 1
      { clearFreCount := 0, sel := 0, outPut := 0 } := by
  rw [rows_iff]
  intro shows
  have row := shows 0 (methaneOn 31) (methaneOn 16) (by decide) (by decide) (by decide)
  exact absurd row.texts (by decide)

end GasSub.Guarantees.ListViewRows
