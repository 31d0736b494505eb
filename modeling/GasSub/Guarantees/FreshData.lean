import GasSub.Library.Run
import GasSub.Source.DataPath
import GasSub.Source.InitConf

/-!
# Fresh data at the test points

Frames arrive on UART1 while `UartRcv_Task` fetches them and
`UpdateEquipmentList` copies what was fetched. The fetch lowers the very flag
that `UpdateEquipmentList` tests, so a raised flag tells that the copy is out of
date. Beside the program runs a record of the schedule: which frames were
accepted, whether the last one waits, was fetched or was seen by an update.
Updates are fresh exactly when the schedule happens to undo that.
-/
namespace GasSub.Guarantees.FreshData
open GasSub.Source GasSub.Library.Run

inductive Event where
  | frame (block : Vector INT8U 134)
  | uartRcvTask (junk : RcvStruct)
  | updateEquipmentList

/-- What has happened on the line and in the tasks. -/
structure Schedule where
  accepted : List (Vector INT8U 134)
  /-- The frame that arrived last was accepted and has not been fetched. -/
  waiting : Bool
  /-- The last fetch took the frame accepted last. -/
  fetched : Bool
  /-- A frame was accepted since the previous update. -/
  unseen : Bool
  waitingAtEntry : Bool
  unseenAtEntry : Bool

structure Monitored where
  path : DataPath
  schedule : Schedule
  /-- The accepted frame, by number, that `uart1RcvInfo` was decoded from. -/
  source : Option Nat

/-- A program that starts: receiver initialized, tasks at their first step. -/
def Monitored.init (rx : Uart1Rx) (info : RcvStruct) (sensors : List Sensor) : Monitored :=
  { path :=
      { rx := lpcUartInit rx
        uart1RcvInfo := info
        uart1LostCnt := 0
        equipmentList := sensors.map Sensor.testpoint
        rcvTask := .test
        update := .entry }
    schedule := ⟨[], false, false, false, false, false⟩
    source := none }

def step (m : Monitored) : Event → Option Monitored
  | .frame block => some
      { m with
        path := m.path.frameArrives block
        schedule :=
          if WellFormed block then
            { m.schedule with
              accepted := m.schedule.accepted ++ [block]
              waiting := true
              fetched := false
              unseen := true }
          else { m.schedule with waiting := false } }
  | .uartRcvTask junk => some
      (match m.path.rcvTask with
      | .test => { m with path := m.path.uartRcvTask junk }
      | .fetch =>
        { path := m.path.uartRcvTask junk
          schedule := { m.schedule with waiting := false, fetched := m.schedule.waiting }
          source := if m.schedule.waiting then some (m.schedule.accepted.length - 1) else none })
  | .updateEquipmentList => m.path.updateEquipmentList.map fun path =>
      { m with
        path := path
        schedule :=
          match m.path.update with
          | .entry =>
            { m.schedule with
              waitingAtEntry := m.schedule.waiting
              unseenAtEntry := m.schedule.unseen }
          | .guarded rcvOK =>
            if rcvOK = 1 then { m.schedule with unseen := false } else m.schedule }

/-- A call that updates does so from the structure decoded from the frame accepted
last, on every test point; and it does update if a frame was accepted since the
previous update. -/
def FreshUpdate (m : Monitored) : Event → Prop
  | .frame _ => True
  | .uartRcvTask _ => True
  | .updateEquipmentList =>
    match m.path.update with
    | .entry => True
    | .guarded rcvOK =>
      (rcvOK = 1 → ∃ k block t,
        m.source = some k ∧ k + 1 = m.schedule.accepted.length ∧
          m.schedule.accepted[k]? = some block ∧ step m .updateEquipmentList = some t ∧
          UpdatedFrom (decodeBody block) m.path.equipmentList t.path.equipmentList) ∧
      (m.schedule.unseenAtEntry = true → rcvOK = 1)

/-- The schedule a fresh update needs: when a frame was accepted since the
previous update, the last frame to arrive was accepted and waits when the call
reads the flag; and a frame that waits then is fetched before the copy, with no
other accepted in between. -/
def Timely (m : Monitored) : Event → Prop
  | .frame _ => True
  | .uartRcvTask _ => True
  | .updateEquipmentList =>
    match m.path.update with
    | .entry => True
    | .guarded _ =>
      (m.schedule.waitingAtEntry = true → m.schedule.fetched = true) ∧
        (m.schedule.unseenAtEntry = true → m.schedule.waitingAtEntry = true)

/-- What the program and the schedule have in common in every state of a run. -/
structure Follows (m : Monitored) : Prop where
  idle : m.path.rx.readyToRcv = 0
  start : m.path.rx.uart1RcvStart = 0 ∨ m.path.rx.uart1RcvStart = 1
  flag : m.path.rx.uart1RcvOK = if m.schedule.waiting then 1 else 0
  buffer : m.schedule.waiting = true →
    m.schedule.accepted.getLast? = some m.path.rx.dataToRcv
  decoded : ∀ k, m.source = some k →
    ∃ block, m.schedule.accepted[k]? = some block ∧ m.path.uart1RcvInfo = decodeBody block
  fetched : m.schedule.fetched = true ↔
    ∃ k, m.source = some k ∧ k + 1 = m.schedule.accepted.length
  entered : ∀ rcvOK, m.path.update = .guarded rcvOK →
    rcvOK = if m.schedule.waitingAtEntry then 1 else 0
  sensors : ∃ sensors : List Sensor, m.path.equipmentList = sensors.map Sensor.testpoint

theorem follows_init (rx : Uart1Rx) (info : RcvStruct) (sensors : List Sensor) :
    Follows (Monitored.init rx info sensors) where
  idle := rfl
  start := Or.inl rfl
  flag := rfl
  buffer waiting := by cases waiting
  decoded k named := by cases named
  fetched := by simp [Monitored.init]
  entered rcvOK inside := by cases inside
  sensors := ⟨sensors, rfl⟩

/-- A frame arriving at an idle receiver replaces the buffer and sets the flag by
its tail. -/
theorem follows_frame (m t : Monitored) (block : Vector INT8U 134) (follows : Follows m)
    (taken : step m (.frame block) = some t) : Follows t := by
  obtain rfl := Option.some.inj taken
  have received := deliver_frame m.path.rx block follows.idle follows.start
  by_cases accepted : WellFormed block
  · refine ⟨?_, ?_, ?_, fun _ => ?_, fun k named => ?_, ?_, ?_, follows.sensors⟩
    · simp only [DataPath.frameArrives, received]
    · simp only [DataPath.frameArrives, received]
      exact Or.inl trivial
    · simp only [DataPath.frameArrives, received, if_pos accepted]
      rw [if_pos trivial]
    · simp only [DataPath.frameArrives, received, if_pos accepted, List.getLast?_append,
        List.getLast?_singleton, Option.some_or]
    · obtain ⟨old, found, same⟩ := follows.decoded k named
      have inside := (List.getElem?_eq_some_iff.mp found).1
      refine ⟨old, ?_, same⟩
      simp only [if_pos accepted]
      rw [List.getElem?_append_left inside]
      exact found
    · simp only [if_pos accepted, Bool.false_eq_true, false_iff, not_exists, not_and,
        List.length_append, List.length_singleton]
      intro k named last
      obtain ⟨old, found, -⟩ := follows.decoded k named
      have inside := (List.getElem?_eq_some_iff.mp found).1
      omega
    · simp only [if_pos accepted]
      exact follows.entered
  · refine ⟨?_, ?_, ?_, fun waits => ?_, fun k named => ?_, ?_, ?_, follows.sensors⟩
    · simp only [DataPath.frameArrives, received]
    · simp only [DataPath.frameArrives, received]
      exact Or.inl trivial
    · simp only [DataPath.frameArrives, received, if_neg accepted]
      rfl
    · simp only [if_neg accepted] at waits
      cases waits
    · simp only [if_neg accepted]
      exact follows.decoded k named
    · simp only [if_neg accepted]
      exact follows.fetched
    · simp only [if_neg accepted]
      exact follows.entered

/-- The test of `UartRcv_Task` changes nothing the schedule speaks about. -/
theorem uartRcvTask_test (s : DataPath) (junk : RcvStruct) (here : s.rcvTask = .test) :
    (s.uartRcvTask junk).rx = s.rx ∧ (s.uartRcvTask junk).uart1RcvInfo = s.uart1RcvInfo ∧
      (s.uartRcvTask junk).equipmentList = s.equipmentList ∧
      (s.uartRcvTask junk).update = s.update := by
  unfold DataPath.uartRcvTask
  rw [here]
  simp only
  split <;> exact ⟨rfl, rfl, rfl, rfl⟩

/-- A fetch takes the waiting frame and lowers the flag, or takes nothing. -/
theorem follows_task (m t : Monitored) (junk : RcvStruct) (follows : Follows m)
    (taken : step m (.uartRcvTask junk) = some t) : Follows t := by
  cases here : m.path.rcvTask with
  | test =>
    obtain ⟨rx, info, list, update⟩ := uartRcvTask_test m.path junk here
    simp only [step, here, Option.some.injEq] at taken
    subst taken
    refine ⟨?_, ?_, ?_, ?_, ?_, follows.fetched, ?_, ?_⟩
    · rw [rx]
      exact follows.idle
    · rw [rx]
      exact follows.start
    · rw [rx]
      exact follows.flag
    · rw [rx]
      exact follows.buffer
    · rw [info]
      exact follows.decoded
    · rw [update]
      exact follows.entered
    · rw [list]
      exact follows.sensors
  | fetch =>
    simp only [step, here, Option.some.injEq] at taken
    subst taken
    have fetches : m.path.uartRcvTask junk =
        { m.path with
          rx := (uart1GetStruct m.path.rx).2
          uart1RcvInfo := (uart1GetStruct m.path.rx).1.getD junk
          uart1LostCnt := 0
          rcvTask := .test } := by
      unfold DataPath.uartRcvTask
      rw [here]
    rw [fetches]
    cases waits : m.schedule.waiting with
    | false =>
      have down : m.path.rx.uart1RcvOK = 0 := by
        rw [follows.flag, waits]
        rfl
      have nothing : uart1GetStruct m.path.rx = (none, m.path.rx) := if_pos down
      simp only [nothing]
      exact ⟨follows.idle, follows.start, down, fun waiting => absurd waiting Bool.false_ne_true,
        fun k named => absurd named (by simp), by simp, follows.entered, follows.sensors⟩
    | true =>
      have up : m.path.rx.uart1RcvOK ≠ 0 := by
        rw [follows.flag, waits]
        decide
      have something : uart1GetStruct m.path.rx =
          (some (decodeBody m.path.rx.dataToRcv), { m.path.rx with uart1RcvOK := 0 }) := if_neg up
      have last := follows.buffer waits
      rw [List.getLast?_eq_getElem?] at last
      have inside := (List.getElem?_eq_some_iff.mp last).1
      simp only [something, Option.getD_some]
      refine ⟨follows.idle, follows.start, rfl, fun waiting => absurd waiting Bool.false_ne_true,
        fun k named => ?_, ?_, follows.entered, follows.sensors⟩
      · obtain rfl := Option.some.inj named
        exact ⟨m.path.rx.dataToRcv, last, rfl⟩
      · simp only [if_true, true_iff]
        exact ⟨_, rfl, by omega⟩

/-- The call of `UpdateEquipmentList` takes down the flag, or updates the list. -/
theorem follows_update (m t : Monitored) (follows : Follows m)
    (taken : step m .updateEquipmentList = some t) : Follows t := by
  obtain ⟨sensors, list⟩ := follows.sensors
  cases here : m.path.update with
  | entry =>
    simp only [step, DataPath.updateEquipmentList, here, Option.map_some, Option.some.injEq] at taken
    subst taken
    refine ⟨follows.idle, follows.start, follows.flag, follows.buffer, follows.decoded,
      follows.fetched, fun rcvOK inside => ?_, follows.sensors⟩
    obtain rfl := UpdateAt.guarded.inj inside
    exact follows.flag
  | guarded rcvOK =>
    simp only [step, DataPath.updateEquipmentList, here, list, updateWalk_sensors,
      Option.map_some] at taken
    by_cases up : rcvOK = 1
    · simp only [if_pos up, Option.map_some, Option.some.injEq] at taken
      subst taken
      exact ⟨follows.idle, follows.start, follows.flag, follows.buffer, follows.decoded,
        follows.fetched, fun _ inside => UpdateAt.noConfusion inside, ⟨_, rfl⟩⟩
    · simp only [if_neg up, Option.map_some, Option.some.injEq] at taken
      subst taken
      exact ⟨follows.idle, follows.start, follows.flag, follows.buffer, follows.decoded,
        follows.fetched, fun _ inside => UpdateAt.noConfusion inside, ⟨sensors, rfl⟩⟩

theorem follows_step (m : Monitored) (e : Event) (t : Monitored) (follows : Follows m)
    (taken : step m e = some t) : Follows t := by
  cases e with
  | frame block => exact follows_frame m t block follows taken
  | uartRcvTask junk => exact follows_task m t junk follows taken
  | updateEquipmentList => exact follows_update m t follows taken

/-- A call that has seen the flag up updates every point from `uart1RcvInfo`. -/
theorem update_takes (m : Monitored) (follows : Follows m)
    (here : m.path.update = .guarded 1) :
    ∃ t, step m .updateEquipmentList = some t ∧
      UpdatedFrom m.path.uart1RcvInfo m.path.equipmentList t.path.equipmentList := by
  obtain ⟨sensors, list⟩ := follows.sensors
  have walked := updateWalk_sensors m.path.uart1RcvInfo sensors
  rw [← list] at walked
  have taken : step m .updateEquipmentList = some
      { m with
        path := { m.path with
          equipmentList := (sensors.map (Sensor.refresh m.path.uart1RcvInfo)).map Sensor.testpoint
          update := .entry }
        schedule := { m.schedule with unseen := false } } := by
    simp only [step, DataPath.updateEquipmentList, here, if_true, walked, Option.map_some]
  exact ⟨_, taken, updateWalk_updated _ _ _ walked⟩

/-- One call is fresh exactly when the schedule is timely. -/
theorem freshUpdate_iff (m : Monitored) (e : Event) (follows : Follows m) :
    FreshUpdate m e ↔ Timely m e := by
  cases e with
  | frame block => exact Iff.rfl
  | uartRcvTask junk => exact Iff.rfl
  | updateEquipmentList =>
    unfold FreshUpdate Timely
    cases here : m.path.update with
    | entry => exact Iff.rfl
    | guarded rcvOK =>
      have flag : rcvOK = 1 ↔ m.schedule.waitingAtEntry = true := by
        rw [follows.entered rcvOK here]
        cases m.schedule.waitingAtEntry <;> decide
      simp only [flag, follows.fetched]
      refine and_congr (forall_congr' fun waited => ?_) Iff.rfl
      constructor
      · intro fresh
        obtain ⟨k, block, t, named, last, -⟩ := fresh
        exact ⟨k, named, last⟩
      · intro fetched
        obtain ⟨k, named, last⟩ := fetched
        obtain ⟨block, found, decoded⟩ := follows.decoded k named
        obtain rfl := flag.mpr waited
        obtain ⟨t, taken, updated⟩ := update_takes m follows here
        rw [decoded] at updated
        exact ⟨k, block, t, named, last, found, taken, updated⟩

/-- In a run from the start of the program, every update is fresh exactly when
every call is timely. -/
theorem freshUpdate_iff_timely (rx : Uart1Rx) (info : RcvStruct) (sensors : List Sensor)
    (events : List Event) :
    EachStep step FreshUpdate (Monitored.init rx info sensors) events ↔
      EachStep step Timely (Monitored.init rx info sensors) events :=
  eachStep_congr follows_step freshUpdate_iff (follows_init rx info sensors)

def zeroStruct : RcvStruct :=
  ⟨Vector.replicate 16 0, Vector.replicate 16 0, Vector.replicate 16 0, 0⟩

/-- One default methane point. -/
def quiet : Monitored :=
  Monitored.init ⟨Vector.replicate 134 0, 0, 0, 0, 0⟩ zeroStruct
    [{ config := .analogue initConfAnalogue, upload := uploadNull }]

/-- A frame of zeros, a full iteration of `UartRcv_Task`, then
`UpdateEquipmentList` reads the flag. -/
def fetchedFirst : List Event :=
  [.frame (((Vector.replicate 134 0).setIfInBounds 132 0xE5).setIfInBounds 133 0x5E), .uartRcvTask zeroStruct,
    .uartRcvTask zeroStruct, .updateEquipmentList]

/-- The fetch has lowered the flag, and the call returns without an update. -/
theorem freshUpdate_fetchedFirst :
    ¬ EachStep step FreshUpdate quiet (fetchedFirst ++ [.updateEquipmentList]) := by
  intro each
  have skipped : (fetchedFirst.foldlM step quiet).any (fun t =>
      t.path.update == .guarded 0 && t.schedule.unseenAtEntry) = true := by
    decide +kernel
  obtain ⟨t, reached, observed⟩ := (Option.any_eq_true _ _).mp skipped
  simp only [Bool.and_eq_true, beq_iff_eq] at observed
  have fresh := eachStep_last each reached
  simp only [FreshUpdate, observed.1] at fresh
  exact absurd (fresh.2 observed.2) (by decide)

end GasSub.Guarantees.FreshData
