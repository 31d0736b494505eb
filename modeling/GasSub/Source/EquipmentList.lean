import GasSub.Source.SensorOperation

/-!
# Building a test point

`initTestpoint` of `EquipmentList.c` and the indirect calls made through the
pointers it installs. `Sensor` is the typed view: a configuration of one of the
four kinds with the current upload data. `Sensor.testpoint` is the structure the
code builds for it, so a list of sensors is an equipment list whose every
pointer matches its configuration.
-/
namespace GasSub.Source

/-! ### Copying a configuration into the test point -/

def setConfigAnalogue (src : AnalogueConfig) : AnalogueConfig :=
  { testpointNo := src.testpointNo
    sensorName := src.sensorName
    portType := src.portType
    outputControl := #v[control0 src.outputControl, control1 src.outputControl]
    outage := src.outage
    recover := src.recover
    alarm := src.alarm
    liftAlarm := src.liftAlarm
    measureRange := src.measureRange
    coefficient := src.coefficient
    location := src.location }

def setConfigSwitch (src : SwitchConfig) : SwitchConfig :=
  { testpointNo := src.testpointNo
    sensorName := src.sensorName
    portType := src.portType
    outputControl := #v[control0 src.outputControl, control1 src.outputControl]
    location := src.location }

def setConfigAccumulate (src : AccumulateConfig) : AccumulateConfig :=
  { testpointNo := src.testpointNo
    sensorName := src.sensorName
    portType := src.portType
    measureMaxVal := src.measureMaxVal
    coefficient := src.coefficient
    shift := src.shift
    location := src.location }

def setConfigTristate (src : TristateConfig) : TristateConfig :=
  { testpointNo := src.testpointNo
    sensorName := src.sensorName
    portType := src.portType
    outputControl := #v[control0 src.outputControl, control1 src.outputControl]
    current := Vector.ofFn src.current.get
    location := src.location }

/-- The `setConfig_*` call of the kind the source configuration has. -/
def SensorConfig.copy : SensorConfig → SensorConfig
  | .analogue src => .analogue (setConfigAnalogue src)
  | .switch src => .switch (setConfigSwitch src)
  | .accumulate src => .accumulate (setConfigAccumulate src)
  | .tristate src => .tristate (setConfigTristate src)

/-- A loop that copies an array cell by cell copies the array. -/
theorem ofFn_get {α : Type} {n : Nat} (cells : Vector α n) : Vector.ofFn cells.get = cells := by
  apply Vector.ext
  intro i bound
  rw [Vector.getElem_ofFn]
  rfl

/-- Every field is copied: none is dropped, exchanged or left uninitialized. -/
@[simp] theorem SensorConfig.copy_eq (conf : SensorConfig) : conf.copy = conf := by
  cases conf <;>
    simp only [copy, setConfigAnalogue, setConfigSwitch, setConfigAccumulate, setConfigTristate,
      controls_eta, ofFn_get]

/-! ### `initTestpoint` -/

/-- `Upload_NULL`, copied by `setUpload`, over a zeroed `testpointNo`. -/
def uploadNull : UploadInfo :=
  { testpointNo := 0, collectTime := [], collectData := 0, sensorState := 0 }

/-- `initTestpoint(thisp, sensorName, config)` with a successful allocation and
`config` of the kind `sensorName` names. The number first stored into
`upload.testpointNo` is overwritten by 0 before the function returns. -/
def initTestpoint (conf : SensorConfig) : Testpoint :=
  { equipmentType := conf.kind.code
    config := some conf.copy
    upload := uploadNull
    setConfig := some conf.kind
    getShowInfo := some conf.kind
    getDataFromUart := some conf.kind
    ifAlarm := some conf.kind
    ifLiftAlarm := some conf.kind
    ifOutput := some conf.kind
    controlOutput := some conf.kind
    ifRecover := some conf.kind
    controlRecover := some conf.kind }

/-! ### The arms of `initTestpoint` -/

/-- `thisp->setConfig(thisp->config, config)` with the pointer to the function of a kind,
a block allocated for a kind and the source structure: defined if all three agree. -/
def setConfigCall (function : SensorKind) (allocated : Option SensorKind) (config : SensorConfig) :
    Option SensorConfig :=
  if allocated = some function ∧ config.kind = function then some config.copy else none

/-- The switch of `initTestpoint` on a test point with any contents, and what the new
`config` block was allocated for. Its `testpointNo` is stored before that, and
overwritten. -/
def initTestpointSwitch (thisp : Testpoint) : Testpoint × Option SensorKind :=
  if thisp.equipmentType = SensorKind.analogue.code then
    ({ thisp with
        setConfig := some .analogue
        getShowInfo := some .analogue
        getDataFromUart := some .analogue
        ifAlarm := some .analogue
        ifLiftAlarm := some .analogue
        ifOutput := some .analogue
        controlOutput := some .analogue
        ifRecover := some .analogue
        controlRecover := some .analogue }, some .analogue)
  else if thisp.equipmentType = SensorKind.switch.code then
    ({ thisp with
        setConfig := some .switch
        getShowInfo := some .switch
        getDataFromUart := some .switch
        ifAlarm := some .switch
        ifLiftAlarm := some .switch
        ifOutput := some .switch
        controlOutput := some .switch
        ifRecover := some .switch
        controlRecover := some .switch }, some .switch)
  else if thisp.equipmentType = SensorKind.accumulate.code then
    ({ thisp with
        setConfig := some .accumulate
        getShowInfo := some .accumulate
        getDataFromUart := some .accumulate
        ifAlarm := some .accumulate
        ifLiftAlarm := some .accumulate
        ifOutput := some .accumulate
        controlOutput := some .accumulate
        ifRecover := some .accumulate
        controlRecover := some .accumulate }, some .accumulate)
  else if thisp.equipmentType = SensorKind.tristate.code then
    ({ thisp with
        setConfig := some .tristate
        getShowInfo := some .tristate
        getDataFromUart := some .tristate
        ifAlarm := some .tristate
        ifLiftAlarm := some .tristate
        ifOutput := some .tristate
        controlOutput := some .tristate
        ifRecover := some .tristate
        controlRecover := some .tristate }, some .tristate)
  else
    -- the default arm leaves `ifLiftAlarm` as it was
    ({ thisp with
        config := none
        setConfig := none
        getShowInfo := none
        getDataFromUart := none
        ifAlarm := none
        ifOutput := none
        controlOutput := none
        ifRecover := none
        controlRecover := none }, none)

/-- `initTestpoint(thisp, sensorName, config)` as it stands, on the uninitialized
`thisp` that `malloc` returns. -/
def initTestpointArms (thisp : Testpoint) (sensorName : INT16U) (config : SensorConfig) :
    Option Testpoint :=
  let switched := initTestpointSwitch { thisp with equipmentType := sensorName }
  let filled := { switched.1 with upload := uploadNull }
  match filled.setConfig with
  | none => some filled
  | some function =>
    (setConfigCall function switched.2 config).map fun copied => { filled with config := some copied }

/-- With the number of the kind of `config`, nothing of the old contents is left. -/
theorem initTestpointArms_eq (thisp : Testpoint) (conf : SensorConfig) :
    initTestpointArms thisp conf.kind.code conf = some (initTestpoint conf) := by
  cases conf <;> rfl

/-! ### Indirect calls -/

section Calls

variable {β : Type}

/-- `tp->f(tp)` where the four kinds have the given functions. -/
def Testpoint.call (pointer : Option SensorKind)
    (analogue switch accumulate tristate : Testpoint → Option β) (tp : Testpoint) : Option β :=
  match pointer with
  | none => none
  | some .analogue => analogue tp
  | some .switch => switch tp
  | some .accumulate => accumulate tp
  | some .tristate => tristate tp

end Calls

def Testpoint.callGetDataFromUart (rev : RcvStruct) (tp : Testpoint) : Option Testpoint :=
  tp.call tp.getDataFromUart (getDataFromUartAnalogue rev) (getDataFromUartSwitch rev)
    (getDataFromUartAccumulate rev) (getDataFromUartTristate rev)

def Testpoint.callIfAlarm (tp : Testpoint) : Option Bool :=
  tp.call tp.ifAlarm ifAlarmAnalogue ifAlarmSwitch ifAlarmAccumulate ifAlarmTristate

def Testpoint.callIfLiftAlarm (tp : Testpoint) : Option Bool :=
  tp.call tp.ifLiftAlarm ifLiftAlarmAnalogue ifLiftAlarmSwitch ifLiftAlarmAccumulate
    ifLiftAlarmTristate

def Testpoint.callIfOutput (tp : Testpoint) : Option Bool :=
  tp.call tp.ifOutput ifOutputAnalogue ifOutputSwitch ifOutputAccumulate ifOutputTristate

def Testpoint.callIfRecover (tp : Testpoint) : Option Bool :=
  tp.call tp.ifRecover ifRecoverAnalogue ifRecoverSwitch ifRecoverAccumulate ifRecoverTristate

def Testpoint.callControlOutput (tp : Testpoint) : Option INT8U :=
  tp.call tp.controlOutput controlOutputAnalogue controlOutputSwitch controlOutputAccumulate
    controlOutputTristate

def Testpoint.callControlRecover (tp : Testpoint) : Option INT8U :=
  tp.call tp.controlRecover controlRecoverAnalogue controlRecoverSwitch controlRecoverAccumulate
    controlRecoverTristate

/-! ### The typed view -/

structure Sensor where
  config : SensorConfig
  upload : UploadInfo
  deriving DecidableEq, Repr

/-- The test point `initTestpoint` builds, holding the sensor's current data. -/
def Sensor.testpoint (s : Sensor) : Testpoint :=
  { initTestpoint s.config with upload := s.upload }

def Sensor.analogue (s : Sensor) : Option AnalogueConfig :=
  match s.config with
  | .analogue conf => some conf
  | _ => none

/-- The analogue test point satisfies `ifOutput` at its current reading. -/
def Sensor.Cuts (s : Sensor) : Prop := ifOutputAnalogue s.testpoint = some true

/-- The analogue test point satisfies `ifRecover` at its current reading. -/
def Sensor.Recovers (s : Sensor) : Prop := ifRecoverAnalogue s.testpoint = some true

instance (s : Sensor) : Decidable s.Cuts := inferInstanceAs (Decidable (_ = _))
instance (s : Sensor) : Decidable s.Recovers := inferInstanceAs (Decidable (_ = _))

/-- Bit `i` of `outputControl[0] & outputControl[1]` is set for this analogue point. -/
def Sensor.Controls (s : Sensor) (i : Nat) : Prop :=
  ∃ conf, s.config = .analogue conf ∧ conf.ports.getLsbD i = true

/-- It is an analogue point and bit `i` is not among its ports. -/
def Sensor.Spares (s : Sensor) (i : Nat) : Prop :=
  ∃ conf, s.config = .analogue conf ∧ conf.ports.getLsbD i = false

@[simp] theorem Sensor.testpoint_analogueConf (s : Sensor) :
    s.testpoint.analogueConf = s.analogue := by
  simp only [testpoint, initTestpoint, Testpoint.analogueConf, SensorConfig.copy_eq, analogue]
  cases s.config <;> rfl

@[simp] theorem Sensor.testpoint_upload (s : Sensor) : s.testpoint.upload = s.upload := rfl

/-! ### Dispatch is safe on sensors

Each indirect call of the paint walk returns, with the value the sensor's own
data determine. -/

theorem Sensor.call_eq {β : Type} (s : Sensor)
    (analogue switch accumulate tristate : Testpoint → Option β) :
    s.testpoint.call (some s.config.kind) analogue switch accumulate tristate =
      match s.config with
      | .analogue _ => analogue s.testpoint
      | .switch _ => switch s.testpoint
      | .accumulate _ => accumulate s.testpoint
      | .tristate _ => tristate s.testpoint := by
  cases hc : s.config <;> rfl

theorem Sensor.callIfOutput_eq (s : Sensor) :
    s.testpoint.callIfOutput = some (decide s.Cuts) := by
  refine (s.call_eq _ _ _ _).trans ?_
  cases hc : s.config with
  | analogue conf =>
    simp only [Cuts, ifOutputAnalogue, testpoint_analogueConf, Sensor.analogue, hc, Option.map_some,
      Option.some.injEq, Bool.decide_eq_true]
  | switch => simp [Cuts, ifOutputAnalogue, Sensor.analogue, hc, ifOutputSwitch]
  | accumulate => simp [Cuts, ifOutputAnalogue, Sensor.analogue, hc, ifOutputAccumulate]
  | tristate => simp [Cuts, ifOutputAnalogue, Sensor.analogue, hc, ifOutputTristate]

theorem Sensor.callIfRecover_eq (s : Sensor) :
    s.testpoint.callIfRecover = some (decide s.Recovers) := by
  refine (s.call_eq _ _ _ _).trans ?_
  cases hc : s.config with
  | analogue conf =>
    simp only [Recovers, ifRecoverAnalogue, testpoint_analogueConf, Sensor.analogue, hc,
      Option.map_some, Option.some.injEq, Bool.decide_eq_true]
  | switch => simp [Recovers, ifRecoverAnalogue, Sensor.analogue, hc, ifRecoverSwitch]
  | accumulate => simp [Recovers, ifRecoverAnalogue, Sensor.analogue, hc, ifRecoverAccumulate]
  | tristate => simp [Recovers, ifRecoverAnalogue, Sensor.analogue, hc, ifRecoverTristate]

theorem Sensor.callIfAlarm_isSome (s : Sensor) : s.testpoint.callIfAlarm.isSome := by
  refine (congrArg Option.isSome (s.call_eq _ _ _ _)).trans ?_
  cases hc : s.config <;>
    simp [ifAlarmAnalogue, ifAlarmSwitch, ifAlarmAccumulate, ifAlarmTristate, Sensor.analogue, hc]

theorem Sensor.callIfLiftAlarm_isSome (s : Sensor) : s.testpoint.callIfLiftAlarm.isSome := by
  refine (congrArg Option.isSome (s.call_eq _ _ _ _)).trans ?_
  cases hc : s.config <;>
    simp [ifLiftAlarmAnalogue, ifLiftAlarmSwitch, ifLiftAlarmAccumulate, ifLiftAlarmTristate,
      Sensor.analogue, hc]

/-- The ports of an analogue point, none for the other kinds. -/
def Sensor.ports (s : Sensor) : INT8U :=
  match s.config with
  | .analogue conf => conf.ports
  | _ => 0

/-- The complement of its ports for an analogue point, none for the other kinds. -/
def Sensor.sparedPorts (s : Sensor) : INT8U :=
  match s.config with
  | .analogue conf => ~~~ conf.ports
  | _ => 0

theorem Sensor.callControlOutput_eq (s : Sensor) :
    s.testpoint.callControlOutput = some s.ports := by
  refine (s.call_eq _ _ _ _).trans ?_
  cases hc : s.config <;>
    simp [controlOutputAnalogue_eq, controlOutputSwitch, controlOutputAccumulate,
      controlOutputTristate, Sensor.analogue, hc, ports]

theorem Sensor.callControlRecover_eq (s : Sensor) :
    s.testpoint.callControlRecover = some s.sparedPorts := by
  refine (s.call_eq _ _ _ _).trans ?_
  cases hc : s.config <;>
    simp [controlRecoverAnalogue_eq, controlRecoverSwitch, controlRecoverAccumulate,
      controlRecoverTristate, Sensor.analogue, hc, sparedPorts]

end GasSub.Source
