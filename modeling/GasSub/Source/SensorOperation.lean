import GasSub.Library.BitMask
import GasSub.Source.Sensor

/-!
# Sensor operations

`Sensor_Operation.c`: reading a port value into a test point, and the alarm,
cut and recover decisions with their port masks. A test point carries function
pointers; a pointer is modelled by the kind whose function it holds, `none`
being NULL. A function that casts `tp->config` fails (`none`) when the test
point's configuration is not of the kind it casts to.
-/
namespace GasSub.Source
open GasSub.Library.BitMask

/-- What `tp->config` points to. -/
inductive SensorConfig where
  | analogue (conf : AnalogueConfig)
  | switch (conf : SwitchConfig)
  | accumulate (conf : AccumulateConfig)
  | tristate (conf : TristateConfig)
  deriving DecidableEq, Repr

def SensorConfig.kind : SensorConfig → SensorKind
  | .analogue _ => .analogue
  | .switch _ => .switch
  | .accumulate _ => .accumulate
  | .tristate _ => .tristate

/-- `struct Testpoint`. The list link and the per-point lock are not data of
the point and are represented by the list and the walk over it. -/
structure Testpoint where
  equipmentType : INT16U
  config : Option SensorConfig
  upload : UploadInfo
  setConfig : Option SensorKind
  getShowInfo : Option SensorKind
  getDataFromUart : Option SensorKind
  ifAlarm : Option SensorKind
  ifLiftAlarm : Option SensorKind
  ifOutput : Option SensorKind
  ifRecover : Option SensorKind
  controlOutput : Option SensorKind
  controlRecover : Option SensorKind
  deriving DecidableEq, Repr

/-- `(Analogue_Config *)tp->config`, for the functions that read through it. -/
def Testpoint.analogueConf (tp : Testpoint) : Option AnalogueConfig :=
  match tp.config with
  | some (.analogue conf) => some conf
  | _ => none

/-! ### Reading a port -/

/-- The common body of `getDataFromUart_*`: select the port's group and bit. -/
def portValue (rev : RcvStruct) (portType : INT16U) (old : INT32S) : INT32S :=
  let movebit : Fin 16 := ⟨portType.toNat % 16, Nat.mod_lt _ (by decide)⟩
  let group := portType.toNat / 16
  if group = portFreq then (rev.fre.get movebit).setWidth 32
  else if group = portAD then (rev.ad.get movebit).setWidth 32
  else if group = portCount then rev.count.get movebit
  else if group = portSel then (rev.sel >>> movebit.val &&& 1).setWidth 32
  else old

def Testpoint.collect (rev : RcvStruct) (portType : INT16U) (tp : Testpoint) : Testpoint :=
  { tp with upload :=
      { tp.upload with collectData := portValue rev portType tp.upload.collectData } }

def getDataFromUartAnalogue (rev : RcvStruct) (tp : Testpoint) : Option Testpoint :=
  match tp.config with
  | some (.analogue conf) => some (tp.collect rev conf.portType)
  | _ => none

def getDataFromUartSwitch (rev : RcvStruct) (tp : Testpoint) : Option Testpoint :=
  match tp.config with
  | some (.switch conf) => some (tp.collect rev conf.portType)
  | _ => none

def getDataFromUartAccumulate (rev : RcvStruct) (tp : Testpoint) : Option Testpoint :=
  match tp.config with
  | some (.accumulate conf) => some (tp.collect rev conf.portType)
  | _ => none

def getDataFromUartTristate (rev : RcvStruct) (tp : Testpoint) : Option Testpoint :=
  match tp.config with
  | some (.tristate conf) => some (tp.collect rev conf.portType)
  | _ => none

/-! ### Threshold decisions -/

/-- Shared shape of the alarm, cut and recover tests: at or beyond a configured
bound. -/
def reachesBound (range : Range) (data : INT32S) : Bool :=
  if range.minval ≠ valueUndef ∧ data.toInt ≤ range.minval.toInt then true
  else if range.maxval ≠ valueUndef ∧ data.toInt ≥ range.maxval.toInt then true
  else false

theorem reachesBound_iff (range : Range) (data : INT32S) :
    reachesBound range data = true ↔
      (range.minval ≠ valueUndef ∧ data.toInt ≤ range.minval.toInt) ∨
        (range.maxval ≠ valueUndef ∧ range.maxval.toInt ≤ data.toInt) := by
  unfold reachesBound
  split_ifs <;> simp_all

def ifAlarmAnalogue (tp : Testpoint) : Option Bool :=
  tp.analogueConf.map fun conf => reachesBound conf.alarm tp.upload.collectData

def ifAlarmSwitch (_ : Testpoint) : Option Bool := some false
def ifAlarmAccumulate (_ : Testpoint) : Option Bool := some false
def ifAlarmTristate (_ : Testpoint) : Option Bool := some false

/-- Lifting an alarm compares the other way, and strictly: below the configured
minimum or above the configured maximum. -/
def ifLiftAlarmAnalogue (tp : Testpoint) : Option Bool :=
  tp.analogueConf.map fun conf =>
    let data := tp.upload.collectData
    if conf.liftAlarm.minval ≠ valueUndef ∧ data.toInt < conf.liftAlarm.minval.toInt then true
    else if conf.liftAlarm.maxval ≠ valueUndef ∧ data.toInt > conf.liftAlarm.maxval.toInt then true
    else false

def ifLiftAlarmSwitch (_ : Testpoint) : Option Bool := some false
def ifLiftAlarmAccumulate (_ : Testpoint) : Option Bool := some false
def ifLiftAlarmTristate (_ : Testpoint) : Option Bool := some false

def ifOutputAnalogue (tp : Testpoint) : Option Bool :=
  tp.analogueConf.map fun conf => reachesBound conf.outage tp.upload.collectData

def ifOutputSwitch (_ : Testpoint) : Option Bool := some false
def ifOutputAccumulate (_ : Testpoint) : Option Bool := some false
def ifOutputTristate (_ : Testpoint) : Option Bool := some false

def ifRecoverAnalogue (tp : Testpoint) : Option Bool :=
  tp.analogueConf.map fun conf => reachesBound conf.recover tp.upload.collectData

def ifRecoverSwitch (_ : Testpoint) : Option Bool := some false
def ifRecoverAccumulate (_ : Testpoint) : Option Bool := some false
def ifRecoverTristate (_ : Testpoint) : Option Bool := some false

/-! ### Port masks -/

/-- `(control >> i) & 1`. -/
def portBit (control : INT8U) (i : Nat) : INT8U := control >>> i &&& 1

def controlOutputAnalogue (tp : Testpoint) : Option INT8U :=
  tp.analogueConf.map fun conf =>
    collectBits (fun i => portBit (control0 conf.outputControl) i &&& portBit (control1 conf.outputControl) i) 8

def controlOutputSwitch (_ : Testpoint) : Option INT8U := some 0
def controlOutputAccumulate (_ : Testpoint) : Option INT8U := some 0
def controlOutputTristate (_ : Testpoint) : Option INT8U := some 0

def controlRecoverAnalogue (tp : Testpoint) : Option INT8U :=
  tp.analogueConf.map fun conf =>
    collectBits (fun i =>
      -- C's `!` yields 1 for a zero operand and 0 otherwise
      if portBit (control0 conf.outputControl) i &&& portBit (control1 conf.outputControl) i = 0 then 1 else 0) 8

def controlRecoverSwitch (_ : Testpoint) : Option INT8U := some 0
def controlRecoverAccumulate (_ : Testpoint) : Option INT8U := some 0
def controlRecoverTristate (_ : Testpoint) : Option INT8U := some 0

/-- The ports an analogue test point controls. -/
def AnalogueConfig.ports (conf : AnalogueConfig) : INT8U :=
  control0 conf.outputControl &&& control1 conf.outputControl

theorem portBit_single (control : INT8U) (i j : Nat) (positive : j ≠ 0) :
    (portBit control i).getLsbD j = false := by
  cases j with
  | zero => contradiction
  | succ j => simp [portBit]

@[simp] theorem portBit_zero (control : INT8U) (i : Nat) :
    (portBit control i)[0] = control.getLsbD i := by
  simp [portBit]

/-- The cut mask is the conjunction of the two control bytes. -/
theorem collectBits_ports (conf : AnalogueConfig) :
    collectBits (fun i => portBit (control0 conf.outputControl) i &&& portBit (control1 conf.outputControl) i) 8 =
      conf.ports := by
  apply BitVec.eq_of_getLsbD_eq
  intro k inside
  rw [getLsbD_collectBits _ 8 k inside]
  · simp [inside, AnalogueConfig.ports]
  · intro i j positive
    simp [portBit_single _ i j positive]

/-- Both control bits of port `i` vanish together exactly when the point does
not control that port. -/
theorem portBits_eq_zero_iff (conf : AnalogueConfig) (i : Nat) :
    (portBit (control0 conf.outputControl) i &&& portBit (control1 conf.outputControl) i = 0) ↔
      conf.ports.getLsbD i = false := by
  constructor
  · intro h
    have bit := congrArg (fun v : INT8U => v[0]) h
    simpa [AnalogueConfig.ports] using bit
  · intro h
    apply BitVec.eq_of_getLsbD_eq
    intro j _
    by_cases first : j = 0
    · subst first
      simpa [AnalogueConfig.ports] using h
    · simp [portBit_single _ i j first]

/-- The recover mask is the complement of the cut mask. -/
theorem collectBits_not_ports (conf : AnalogueConfig) :
    collectBits (fun i =>
      if portBit (control0 conf.outputControl) i &&& portBit (control1 conf.outputControl) i = 0 then (1 : INT8U)
      else 0) 8 = ~~~ conf.ports := by
  apply BitVec.eq_of_getLsbD_eq
  intro k inside
  rw [getLsbD_collectBits _ 8 k inside]
  · simp only [portBits_eq_zero_iff, inside, decide_true, Bool.true_and, BitVec.getLsbD_not]
    cases conf.ports.getLsbD k <;> simp
  · intro i j positive
    cases j with
    | zero => contradiction
    | succ j => split <;> simp

theorem controlOutputAnalogue_eq (tp : Testpoint) :
    controlOutputAnalogue tp = tp.analogueConf.map AnalogueConfig.ports := by
  simp only [controlOutputAnalogue, collectBits_ports]

theorem controlRecoverAnalogue_eq (tp : Testpoint) :
    controlRecoverAnalogue tp = tp.analogueConf.map fun conf => ~~~ conf.ports := by
  simp only [controlRecoverAnalogue, collectBits_not_ports]

end GasSub.Source
