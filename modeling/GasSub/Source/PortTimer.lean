import GasSub.Source.Sensor

/-!
# The timer of the Modbus master

`porttimer_m.c` over timer 3: the match value, whether the timer runs and whether
its interrupt is enabled, and the mode variable of `mbrtu_m.c` that says what the
timer is for. An Enable starts the timer anew with a base of 50 microseconds.
-/
namespace GasSub.Source

/-- `eMBMasterTimerMode`. -/
inductive EMBMasterTimerMode where
  | t35 | respondTimeout | convertDelay
  deriving DecidableEq, Repr

/-- The values of the enumeration. -/
def EMBMasterTimerMode.value : EMBMasterTimerMode → Nat
  | .t35 => 0
  | .respondTimeout => 1
  | .convertDelay => 2

def mbMasterDelayMsConvert : Nat := 200
def mbMasterTimeoutMsRespond : Nat := 100

structure Timer3 where
  matchValue : INT32U
  prescaleValue : INT16U
  running : Bool
  interruptEnabled : Bool
  deriving DecidableEq, Repr

/-- The timer, what it is for, and beside them the Enable calls made so far, the last
one first. -/
structure MasterTimers where
  usT35TimeOut50us : INT16U
  usPrescalerValue : INT16U
  eMasterCurTimerMode : EMBMasterTimerMode
  timer3 : Timer3
  enables : List EMBMasterTimerMode
  deriving DecidableEq, Repr

/-- `xMBMasterPortTimersInit`. -/
def xMBMasterPortTimersInit (t : MasterTimers) (usTimeOut50us : INT16U) : MasterTimers :=
  { t with
    usPrescalerValue := 50
    usT35TimeOut50us := usTimeOut50us
    timer3 := { t.timer3 with running := false, interruptEnabled := false } }

def vMBMasterSetCurTimerMode (t : MasterTimers) (eMBTimerMode : EMBMasterTimerMode) :
    MasterTimers := { t with eMasterCurTimerMode := eMBTimerMode }

/-- What the three Enables do to timer 3, for their match value. -/
def startTimer3 (t : MasterTimers) (matchValue : INT32U) : MasterTimers :=
  { t with timer3 := ⟨matchValue, t.usPrescalerValue, true, true⟩ }

/-- An Enable call goes on record. -/
def MasterTimers.record (t : MasterTimers) (mode : EMBMasterTimerMode) : MasterTimers :=
  { t with enables := mode :: t.enables }

/-- `vMBMasterPortTimersT35Enable`: the call that sets the mode is commented out. -/
def vMBMasterPortTimersT35Enable (t : MasterTimers) : MasterTimers :=
  (startTimer3 t (t.usT35TimeOut50us.setWidth 32)).record .t35

/-- `(uint16_t)(ms * 1000 / 50)`. -/
def ticks (ms : Nat) : INT32U := (BitVec.ofNat 16 (ms * 1000 / 50)).setWidth 32

def vMBMasterPortTimersConvertDelayEnable (t : MasterTimers) : MasterTimers :=
  (startTimer3 (vMBMasterSetCurTimerMode t .convertDelay) (ticks mbMasterDelayMsConvert)).record
    .convertDelay

/-- `vMBMasterPortTimersRespondTimeoutEnable`: the match value is computed from the mode. -/
def vMBMasterPortTimersRespondTimeoutEnable (t : MasterTimers) : MasterTimers :=
  (startTimer3 (vMBMasterSetCurTimerMode t .respondTimeout)
    (ticks EMBMasterTimerMode.respondTimeout.value)).record .respondTimeout

def vMBMasterPortTimersDisable (t : MasterTimers) : MasterTimers :=
  { t with timer3 := { t.timer3 with running := false, interruptEnabled := false } }

/-- Timer 3 can expire. -/
def MasterTimers.Armed (t : MasterTimers) : Prop :=
  t.timer3.running = true ∧ t.timer3.interruptEnabled = true

instance (t : MasterTimers) : Decidable t.Armed := inferInstanceAs (Decidable (_ ∧ _))

end GasSub.Source
