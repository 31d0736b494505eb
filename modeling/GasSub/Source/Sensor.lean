import Mathlib.Data.List.TakeWhile
import Mathlib.Algebra.Order.Ring.Int

/-!
# Sensor and test-point data

The structures of `Sensor.h` and the integer types of `os_cpu.h`. Machine
integers are bit vectors of the width the C type has; a signed type is read
through `BitVec.toInt`. A `char location[30]` always holds a C string, so it is
carried with its length bound and its freedom from NUL bytes.
-/
namespace GasSub.Source

abbrev INT8U := BitVec 8
abbrev INT8S := BitVec 8
abbrev INT16U := BitVec 16
abbrev INT16S := BitVec 16
abbrev INT32U := BitVec 32
abbrev INT32S := BitVec 32

/-- The bit pattern of a C `float`. -/
abbrev FloatBits := BitVec 32

/-- `VALUE_UNDEF`: a threshold that is not configured. -/
def valueUndef : INT32S := BitVec.ofInt 32 (-2147483640)

def portFreq : Nat := 0
def portAD : Nat := 1
def portCount : Nat := 2
def portSel : Nat := 3

/-- The four sensor kinds; `code` is the number the C code gives each. -/
inductive SensorKind where
  | analogue | switch | accumulate | tristate
  deriving DecidableEq, Repr

def SensorKind.code : SensorKind → INT16U
  | .analogue => 1
  | .switch => 2
  | .accumulate => 3
  | .tristate => 4

structure Range where
  minval : INT32S
  maxval : INT32S
  deriving DecidableEq, Repr

/-- The C string at the start of a buffer. -/
def cString (bytes : List INT8U) : List INT8U := bytes.takeWhile (· ≠ 0)

theorem cString_of_nulFree {bytes : List INT8U} (nulFree : 0 ∉ bytes) : cString bytes = bytes := by
  rw [cString, List.takeWhile_eq_self_iff]
  intro byte member
  have differs : byte ≠ 0 := fun zero => nulFree (zero ▸ member)
  exact decide_eq_true differs

/-- A text in front of the NUL that ends it. -/
theorem cString_append_nul {text : List INT8U} (nulFree : 0 ∉ text) (rest : List INT8U) :
    cString (text ++ 0 :: rest) = text := by
  have visible : ∀ byte ∈ text, decide (byte ≠ 0) = true := by
    intro byte member
    exact decide_eq_true fun zero => nulFree (zero ▸ member)
  unfold cString
  rw [List.takeWhile_append_of_pos visible, List.takeWhile_cons_of_neg (by decide),
    List.append_nil]

/-- What a `char [30]` location field holds: at most 29 characters before the NUL. -/
structure Location where
  chars : List INT8U
  fits : chars.length ≤ 29
  nulFree : 0 ∉ chars
  deriving DecidableEq, Repr

/-- `outputControl[0]` of a configuration. -/
def control0 (outputControl : Vector INT8U 2) : INT8U := outputControl[0]

/-- `outputControl[1]` of a configuration. -/
def control1 (outputControl : Vector INT8U 2) : INT8U := outputControl[1]

theorem controls_eta (outputControl : Vector INT8U 2) :
    #v[control0 outputControl, control1 outputControl] = outputControl := by
  apply Vector.ext
  intro i bound
  have cases : i = 0 ∨ i = 1 := by omega
  rcases cases with rfl | rfl <;> rfl

structure AnalogueConfig where
  testpointNo : INT32S
  sensorName : INT16S
  location : Location
  portType : INT16U
  outputControl : Vector INT8U 2
  outage : Range
  recover : Range
  alarm : Range
  liftAlarm : Range
  measureRange : Range
  coefficient : FloatBits
  deriving DecidableEq, Repr

structure SwitchConfig where
  testpointNo : INT32S
  sensorName : INT16S
  location : Location
  portType : INT16U
  outputControl : Vector INT8U 2
  deriving DecidableEq, Repr

structure AccumulateConfig where
  testpointNo : INT32S
  sensorName : INT16S
  location : Location
  portType : INT16U
  measureMaxVal : INT32S
  shift : INT32S
  coefficient : FloatBits
  deriving DecidableEq, Repr

structure TristateConfig where
  testpointNo : INT32S
  sensorName : INT16S
  location : Location
  portType : INT16U
  outputControl : Vector INT8U 2
  current : Vector INT32S 4
  deriving DecidableEq, Repr

/-! The levels of a tristate point; a configuration file holds no `current[3]`. -/

def TristateConfig.current0 (conf : TristateConfig) : INT32S := conf.current[0]
def TristateConfig.current1 (conf : TristateConfig) : INT32S := conf.current[1]
def TristateConfig.current2 (conf : TristateConfig) : INT32S := conf.current[2]

structure UploadInfo where
  testpointNo : INT32S
  collectTime : List INT8U
  collectData : INT32S
  sensorState : INT8S
  deriving DecidableEq, Repr

/-- `RcvStruct`: what the port board reports over UART1. -/
structure RcvStruct where
  fre : Vector INT16U 16
  ad : Vector INT16U 16
  count : Vector INT32U 16
  sel : INT16U
  deriving DecidableEq, Repr

/-- `SendStruct`: what the substation commands over UART1. -/
structure SendStruct where
  clearFreCount : INT16U
  sel : INT16U
  outPut : INT8U
  deriving DecidableEq, Repr

end GasSub.Source
