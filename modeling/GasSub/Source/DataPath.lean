import GasSub.Source.EquipmentList
import GasSub.Source.Uart1Receive

/-!
# From UART1 to the test points

`UartRcv_Task` of `task_UartRcv.c` and `UpdateEquipmentList` of
`EquipmentList.c`, which share the flag `uart1RcvOK` with the receive interrupt
and the decoded copy `uart1RcvInfo` with each other. A task is interrupted
where it reads or writes shared data, so each has a place between its test of
the flag and its guarded section. The sending half of the task, the delays and
the posting of the upload data are not represented.
-/
namespace GasSub.Source

/-- Where `UartRcv_Task` stands: before its test of the flag, or in the branch
that fetches. -/
inductive UartRcvTaskAt where
  | test
  | fetch
  deriving DecidableEq, Repr

/-- Where the caller of `UpdateEquipmentList` stands: before the call, or inside
it with the flag value it has read. -/
inductive UpdateAt where
  | entry
  | guarded (rcvOK : INT8U)
  deriving DecidableEq, Repr

structure DataPath where
  rx : Uart1Rx
  uart1RcvInfo : RcvStruct
  uart1LostCnt : INT32U
  equipmentList : List Testpoint
  rcvTask : UartRcvTaskAt
  update : UpdateAt

/-- A frame arrives: header and body, one interrupt per byte. -/
def DataPath.frameArrives (s : DataPath) (block : Vector INT8U 134) : DataPath :=
  { s with rx := deliver s.rx (0x5A :: 0xA5 :: block.toList) }

/-- One step of `UartRcv_Task`. A fetch that finds the flag lowered again stores
an uninitialized structure, here `junk`. -/
def DataPath.uartRcvTask (s : DataPath) (junk : RcvStruct) : DataPath :=
  match s.rcvTask with
  | .test =>
    if s.rx.uart1RcvOK = 1 then { s with rcvTask := .fetch }
    else { s with uart1LostCnt := s.uart1LostCnt + 1 }
  | .fetch =>
    let fetched := uart1GetStruct s.rx
    { s with
      rx := fetched.2
      uart1RcvInfo := fetched.1.getD junk
      uart1LostCnt := 0
      rcvTask := .test }

/-- The walk of `UpdateEquipmentList` over the copied structure. -/
def updateWalk (rcvTemp : RcvStruct) : List Testpoint → Option (List Testpoint)
  | [] => some []
  | tp :: rest => do
      let updated ← tp.callGetDataFromUart rcvTemp
      let others ← updateWalk rcvTemp rest
      some (updated :: others)

/-- One step of `UpdateEquipmentList`: the read of the flag, or the copy under the
semaphore and the walk that uses it. -/
def DataPath.updateEquipmentList (s : DataPath) : Option DataPath :=
  match s.update with
  | .entry => some { s with update := .guarded s.rx.uart1RcvOK }
  | .guarded rcvOK =>
    if rcvOK = 1 then
      (updateWalk s.uart1RcvInfo s.equipmentList).map fun list =>
        { s with equipmentList := list, update := .entry }
    else some { s with update := .entry }

/-- Each point of the list went through its `getDataFromUart` with `rev`. -/
def UpdatedFrom (rev : RcvStruct) (before after : List Testpoint) : Prop :=
  List.Forall₂ (fun tp updated => tp.callGetDataFromUart rev = some updated) before after

theorem updateWalk_updated (rev : RcvStruct) (before after : List Testpoint)
    (walked : updateWalk rev before = some after) : UpdatedFrom rev before after := by
  induction before generalizing after with
  | nil =>
    obtain rfl := Option.some.inj walked
    exact List.Forall₂.nil
  | cons tp rest ih =>
    simp only [updateWalk, Option.bind_eq_bind, Option.bind_eq_some_iff, Option.some.injEq] at walked
    obtain ⟨updated, called, others, tail, same⟩ := walked
    subst same
    exact List.Forall₂.cons called (ih others tail)

/-- The reading of a sensor with the port value `rev` reports for it. -/
def Sensor.refresh (rev : RcvStruct) (s : Sensor) : Sensor :=
  let portType := match s.config with
    | .analogue conf => conf.portType
    | .switch conf => conf.portType
    | .accumulate conf => conf.portType
    | .tristate conf => conf.portType
  { s with upload := { s.upload with
      collectData := portValue rev portType s.upload.collectData } }

theorem Sensor.callGetDataFromUart_eq (rev : RcvStruct) (s : Sensor) :
    s.testpoint.callGetDataFromUart rev = some (s.refresh rev).testpoint := by
  refine (s.call_eq _ _ _ _).trans ?_
  cases hc : s.config <;>
    simp [getDataFromUartAnalogue, getDataFromUartSwitch, getDataFromUartAccumulate,
      getDataFromUartTristate, Sensor.testpoint, initTestpoint, refresh, hc, Testpoint.collect]

/-- The walk over sensors returns, with every reading refreshed. -/
theorem updateWalk_sensors (rev : RcvStruct) (sensors : List Sensor) :
    updateWalk rev (sensors.map Sensor.testpoint) =
      some ((sensors.map (Sensor.refresh rev)).map Sensor.testpoint) := by
  induction sensors with
  | nil => rfl
  | cons s rest ih =>
    simp only [List.map_cons, updateWalk, s.callGetDataFromUart_eq, ih, Option.bind_eq_bind,
      Option.bind_some]

end GasSub.Source
