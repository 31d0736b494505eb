import GasSub.Library.Run
import GasSub.Source.MbRtuMaster

/-!
# What timer 3 of the Modbus master is for

Frames sent, bytes received, bytes asked for and expiries of timer 3 in any
order, from power-on. `T35Enable` leaves the mode as it is and
`RespondTimeoutEnable` computes its match value from a mode: at an expiry mode
and match value are those of the last Enable exactly when that was
`ConvertDelayEnable`, or no other Enable than `T35Enable` was ever called.
-/
namespace GasSub.Guarantees.TimerMode
open GasSub.Source GasSub.Library.Run

/-- What happens to the RTU machines; `prepare` is what the request functions leave in the
send buffer. -/
inductive Event where
  | start
  | stop
  | prepare (buffer : Vector INT8U 253)
  | send (ucSlaveAddress : INT8U) (usLength : INT16U)
  | received (ucByte : INT8U)
  | transmitterEmpty
  | expired

def step (m : RtuMaster) : Event → Option RtuMaster
  | .start => some (eMBMasterRTUStart m)
  | .stop => some (eMBMasterRTUStop m)
  | .prepare buffer => some { m with ucMasterRTUSndBuf := buffer }
  | .send ucSlaveAddress usLength => (eMBMasterRTUSend m ucSlaveAddress usLength).map Prod.snd
  | .received ucByte => some (xMBMasterRTUReceiveFSM m ucByte)
  | .transmitterEmpty => xMBMasterRTUTransmitFSM m
  | .expired => some (if m.timers.Armed then (xMBMasterRTUTimerExpired m).1 else m)

/-- The zeroed static variables after `xMBMasterPortTimersInit`. -/
def powerOn (usTimeOut50us : INT16U) : RtuMaster where
  eSndState := .txIdle
  eRcvState := .rxInit
  ucMasterRTUSndBuf := Vector.replicate 253 0
  ucMasterRTURcvBuf := Vector.replicate 256 0
  pucMasterSndBufferCur := 0
  usMasterSndBufferCount := 0
  usMasterRcvBufferPos := 0
  xFrameIsBroadcast := false
  errorType := .respondTimeout
  timers := xMBMasterPortTimersInit ⟨0, 0, .t35, ⟨0, 0, false, false⟩, []⟩ usTimeOut50us
  line := []

/-- The match value an Enable of this mode should load. -/
def configured (t : MasterTimers) : EMBMasterTimerMode → INT32U
  | .t35 => t.usT35TimeOut50us.setWidth 32
  | .convertDelay => ticks mbMasterDelayMsConvert
  | .respondTimeout => ticks mbMasterTimeoutMsRespond

/-- At an expiry the mode and the match value are those of the last Enable, and a request
is executed only after `ConvertDelayEnable`. -/
def ExpiryMeets (m : RtuMaster) : Event → Prop
  | .expired => m.timers.Armed → ∃ last, m.timers.enables.head? = some last ∧
      m.timers.eMasterCurTimerMode = last ∧
      m.timers.timer3.matchValue = configured m.timers last ∧
      (.execute ∈ (xMBMasterRTUTimerExpired m).2 → last = .convertDelay)
  | _ => True

/-- At an expiry the last Enable was `ConvertDelayEnable`, or only `T35Enable` was called. -/
def FreshMode (m : RtuMaster) : Event → Prop
  | .expired => m.timers.Armed →
      m.timers.enables.head? = some .convertDelay ∨ ∀ mode ∈ m.timers.enables, mode = .t35
  | _ => True

instance (m : RtuMaster) (event : Event) : Decidable (FreshMode m event) := by
  cases event with
  | expired => exact inferInstanceAs (Decidable (_ → _ ∨ _))
  | _ => exact inferInstanceAs (Decidable True)

/-! ### What the Enables leave -/

/-- The mode that a history of Enable calls leaves behind. -/
def modeLeft : List EMBMasterTimerMode → EMBMasterTimerMode
  | [] => .t35
  | .t35 :: earlier => modeLeft earlier
  | mode :: _ => mode

/-- The match value that an Enable loads. -/
def loaded (t : MasterTimers) : EMBMasterTimerMode → INT32U
  | .t35 => t.usT35TimeOut50us.setWidth 32
  | .convertDelay => ticks mbMasterDelayMsConvert
  | .respondTimeout => ticks EMBMasterTimerMode.respondTimeout.value

/-- What the timer and the mode have in common with the calls made. -/
structure Recorded (t : MasterTimers) : Prop where
  mode : t.eMasterCurTimerMode = modeLeft t.enables
  value : t.Armed → ∃ last, t.enables.head? = some last ∧ t.timer3.matchValue = loaded t last

theorem recorded_t35Enable {t : MasterTimers} (recorded : Recorded t) :
    Recorded (vMBMasterPortTimersT35Enable t) where
  mode := recorded.mode
  value _ := ⟨.t35, rfl, rfl⟩

theorem recorded_convertDelayEnable (t : MasterTimers) :
    Recorded (vMBMasterPortTimersConvertDelayEnable t) where
  mode := rfl
  value _ := ⟨.convertDelay, rfl, rfl⟩

theorem recorded_respondTimeoutEnable (t : MasterTimers) :
    Recorded (vMBMasterPortTimersRespondTimeoutEnable t) where
  mode := rfl
  value _ := ⟨.respondTimeout, rfl, rfl⟩

theorem recorded_disable {t : MasterTimers} (recorded : Recorded t) :
    Recorded (vMBMasterPortTimersDisable t) where
  mode := recorded.mode
  value armed := by cases armed.1

theorem recorded_powerOn (usTimeOut50us : INT16U) : Recorded (powerOn usTimeOut50us).timers where
  mode := rfl
  value armed := by cases armed.1

/-- Sending a frame leaves the timer alone. -/
theorem timers_send {m : RtuMaster} {ucSlaveAddress : INT8U} {usLength : INT16U}
    {result : EMBErrorCode × RtuMaster}
    (sent : eMBMasterRTUSend m ucSlaveAddress usLength = some result) :
    result.2.timers = m.timers := by
  unfold eMBMasterRTUSend at sent
  split at sent
  · obtain rfl := Option.some.inj sent
    rfl
  · split at sent
    · obtain ⟨after, framed, rfl⟩ := Option.map_eq_some_iff.mp sent
      simp only [rtuFrame] at framed
      split at framed
      · obtain rfl := Option.some.inj framed
        rfl
      · cases framed
    · obtain rfl := Option.some.inj sent
      rfl

theorem recorded_receive {m : RtuMaster} (ucByte : INT8U) (recorded : Recorded m.timers) :
    Recorded (xMBMasterRTUReceiveFSM m ucByte).timers := by
  have enabled := recorded_t35Enable recorded
  unfold xMBMasterRTUReceiveFSM
  split
  · exact enabled
  · exact enabled
  · exact recorded_t35Enable (recorded_disable recorded)
  · split
    · exact enabled
    · exact enabled

theorem recorded_transmit {m after : RtuMaster} (recorded : Recorded m.timers)
    (sent : xMBMasterRTUTransmitFSM m = some after) : Recorded after.timers := by
  unfold xMBMasterRTUTransmitFSM at sent
  split at sent
  · obtain rfl := Option.some.inj sent
    exact recorded
  · obtain rfl := Option.some.inj sent
    exact recorded
  · split at sent
    · obtain rfl := Option.some.inj sent
      simp only [rtuFrameSent, RtuMaster.onTimers]
      split
      · exact recorded_convertDelayEnable _
      · exact recorded_respondTimeoutEnable _
    · split at sent
      · obtain rfl := Option.some.inj sent
        exact recorded
      · cases sent

theorem step_recorded (m : RtuMaster) (event : Event) (after : RtuMaster)
    (recorded : Recorded m.timers) (taken : step m event = some after) : Recorded after.timers := by
  cases event with
  | start =>
    obtain rfl := Option.some.inj taken
    exact recorded_t35Enable recorded
  | stop =>
    obtain rfl := Option.some.inj taken
    exact recorded_disable recorded
  | prepare buffer =>
    obtain rfl := Option.some.inj taken
    exact recorded
  | send ucSlaveAddress usLength =>
    obtain ⟨result, sent, rfl⟩ := Option.map_eq_some_iff.mp taken
    rw [timers_send sent]
    exact recorded
  | received ucByte =>
    obtain rfl := Option.some.inj taken
    exact recorded_receive ucByte recorded
  | transmitterEmpty => exact recorded_transmit recorded taken
  | expired =>
    obtain rfl := Option.some.inj taken
    split
    · exact recorded_disable recorded
    · exact recorded

/-! ### An expiry -/

theorem modeLeft_t35_iff (enables : List EMBMasterTimerMode) :
    modeLeft enables = .t35 ↔ ∀ mode ∈ enables, mode = .t35 := by
  induction enables with
  | nil => simp [modeLeft]
  | cons mode earlier ih =>
    cases mode with
    | t35 => simp [modeLeft, ih]
    | respondTimeout => simp [modeLeft]
    | convertDelay => simp [modeLeft]

/-- A request is executed in the mode of the convert delay only. -/
theorem execute_iff (m : RtuMaster) :
    .execute ∈ (xMBMasterRTUTimerExpired m).2 ↔ m.timers.eMasterCurTimerMode = .convertDelay := by
  simp only [xMBMasterRTUTimerExpired, List.mem_append]
  constructor
  · intro posted
    rcases posted with (received | failed) | executed
    · split at received <;> simp at received
    · split at failed <;> simp at failed
    · by_contra other
      rw [if_neg other] at executed
      cases executed
  · intro mode
    rw [if_pos mode]
    exact Or.inr List.mem_cons_self

theorem configured_iff (t : MasterTimers) (mode : EMBMasterTimerMode) :
    loaded t mode = configured t mode ↔ mode ≠ .respondTimeout := by
  cases mode with
  | t35 => simp [loaded, configured]
  | convertDelay => simp [loaded, configured]
  | respondTimeout =>
    have apart : loaded t .respondTimeout ≠ configured t .respondTimeout :=
      show ticks EMBMasterTimerMode.respondTimeout.value ≠ ticks mbMasterTimeoutMsRespond by decide
    exact ⟨fun same => absurd same apart, fun no => absurd rfl no⟩

theorem expiry_iff (m : RtuMaster) (event : Event) (recorded : Recorded m.timers) :
    ExpiryMeets m event ↔ FreshMode m event := by
  cases event with
  | expired =>
    simp only [ExpiryMeets, FreshMode]
    refine forall_congr' fun armed => ?_
    obtain ⟨last, called, value⟩ := recorded.value armed
    obtain ⟨earlier, history⟩ : ∃ earlier, m.timers.enables = last :: earlier :=
      List.head?_eq_some_iff.mp called
    have mode := recorded.mode
    rw [execute_iff, called, value]
    simp only [Option.some.injEq, exists_eq_left', configured_iff]
    cases last with
    | convertDelay => simp [mode, history, modeLeft]
    | respondTimeout => simp [mode, history, modeLeft]
    | t35 =>
      rw [mode, history, modeLeft_t35_iff]
      constructor
      · intro meets
        exact Or.inr meets.1
      · intro fresh
        have only := fresh.resolve_left (by decide)
        refine ⟨only, by decide, fun delay => ?_⟩
        rw [(modeLeft_t35_iff _).mpr only] at delay
        exact delay
  | _ => exact Iff.rfl

/-- In every run from power-on, every expiry sees the mode and the match value of the last
Enable exactly when at every expiry that was `ConvertDelayEnable`, or no other than
`T35Enable` was called before. -/
theorem expiries_meet_iff (usTimeOut50us : INT16U) (events : List Event) :
    EachStep step ExpiryMeets (powerOn usTimeOut50us) events ↔
      EachStep step FreshMode (powerOn usTimeOut50us) events :=
  eachStep_congr step_recorded expiry_iff (recorded_powerOn usTimeOut50us)

/-! ### Two failing runs -/

/-- Start-up, then a frame of a one-byte PDU to `address`, sent to its end. -/
def request (address : INT8U) : List Event :=
  [.start, .expired, .send address 1] ++ List.replicate 5 .transmitterEmpty

/-- A byte arrives where the answer to a broadcast would be. -/
def answered : List Event := request 0 ++ [.received 1]

theorem stale_of_not_fresh {events : List Event}
    (stale : ¬ EachStep step FreshMode (powerOn 35) events) :
    ¬ EachStep step ExpiryMeets (powerOn 35) events :=
  fun meets => stale ((eachStep_congr step_recorded expiry_iff (recorded_powerOn 35)).mp meets)

/-- The time-out of a request to slave 1 comes after 20 units instead of 2000; after a
broadcast, a byte from the line makes the expiry that ends its frame execute a request. -/
theorem expiries_stale :
    ¬ EachStep step ExpiryMeets (powerOn 35) (request 1 ++ [.expired]) ∧
    ¬ EachStep step ExpiryMeets (powerOn 35) (answered ++ [.expired]) ∧
    ((request 1).foldlM step (powerOn 35)).any (fun m : RtuMaster =>
      m.timers.Armed ∧ m.timers.timer3.matchValue = 20 ∧
        configured m.timers .respondTimeout = 2000) = true ∧
    (answered.foldlM step (powerOn 35)).any (fun m : RtuMaster =>
      m.timers.enables.head? = some .t35 ∧
        (xMBMasterRTUTimerExpired m).2 = [.frameReceived, .execute]) = true := by
  refine ⟨stale_of_not_fresh ?_, stale_of_not_fresh ?_, ?_, ?_⟩
  · decide +kernel
  · decide +kernel
  · decide +kernel
  · decide +kernel

end GasSub.Guarantees.TimerMode
