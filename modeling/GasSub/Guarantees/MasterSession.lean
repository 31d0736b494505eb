import GasSub.Guarantees.MasterLine
import GasSub.Guarantees.MasterRequests
import GasSub.Guarantees.SlaveSession
import GasSub.Guarantees.TimerMode

/-!
# A Modbus master and its slaves on one line

The application of the master makes one request after another. Each goes over the line, the
slaves hear it, and the master hears what they send until the timer expires; the task that
polls runs whenever it can. Over an error-free line master and slaves are the abstract
network: every request ends with the result that the network has for it, the slaves serve
it as the devices do, and the rows of the master are its copies of them.
-/
namespace GasSub.Guarantees.MasterSession
open GasSub.Source
open GasSub.Library.ByteMemory GasSub.Library.ByteWord GasSub.Library.Cells GasSub.Library.EventFlags
open GasSub.Library.FrameReceiver GasSub.Library.ModbusMirror GasSub.Library.ModbusProtocol
open GasSub.Guarantees.LineFraming GasSub.Guarantees.MasterLine GasSub.Guarantees.MasterRequests
open GasSub.Guarantees.SlaveRequests GasSub.Guarantees.SlaveSession

/-! ### The task that polls -/

/-- It polls until it is blocked; `eEvent` is what the variable of the poll holds. -/
def serve (eEvent : INT32U) : (fuel : Nat) → Master → Option Master
  | 0, m => some m
  | fuel + 1, m =>
    match m.node.xMasterOsEvent.waiter with
    | .blocked _ => some m
    | .running => (eMBMasterPoll m eEvent).bind fun polled => serve eEvent fuel polled.2
    | .ready _ => (eMBMasterPollResume m eEvent).bind fun polled => serve eEvent fuel polled.2

/-- The flag group with these flags and the polling task blocked. -/
def blockedWith (flags : OSFlags) : OSFlagGrp := ⟨flags, .blocked (masterFlags.mask polledEvents)⟩

def withGroup (m : Master) (g : OSFlagGrp) : Master :=
  { m with node := { m.node with xMasterOsEvent := g } }

/-- A post while the task waits. -/
theorem post_blocked {e : EMBMasterEventType} (polled : e ∈ polledEvents) :
    xMBMasterPortEventPost (blockedWith 0) e = ⟨masterFlags.code e, .ready (masterFlags.code e)⟩ := by
  cases e <;> first | rfl | exact absurd polled (by decide)

theorem post_running (e : EMBMasterEventType) :
    xMBMasterPortEventPost ⟨0, .running⟩ e = ⟨masterFlags.code e, .running⟩ :=
  congrArg (fun flags => OSFlagGrp.mk flags .running) BitVec.zero_or

section
variable {m : Master} {e : EMBMasterEventType} (polled : e ∈ polledEvents) (eEvent : INT32U) (fuel : Nat)
include polled

/-- The event that woke the task. -/
theorem serve_ready
    (group : m.node.xMasterOsEvent = ⟨masterFlags.code e, .ready (masterFlags.code e)⟩) :
    serve eEvent (fuel + 1) m =
      (masterSwitch (withGroup m ⟨0, .running⟩) e.value).bind (serve eEvent fuel) := by
  have got : xMBMasterPortEventGetResume m.node.xMasterOsEvent eEvent = (some e.value, ⟨0, .running⟩) := by
    rw [group]
    cases e <;> first | rfl | exact absurd polled (by decide)
  rw [serve, group]
  dsimp only
  rw [eMBMasterPollResume, got, masterGot, Option.bind_map]
  rfl

/-- An event that the task posts itself. -/
theorem serve_posted (enabled : m.eMBState = .enabled) (group : m.node.xMasterOsEvent = ⟨0, .running⟩) :
    serve eEvent (fuel + 1) (m.post e) = (masterSwitch m e.value).bind (serve eEvent fuel) := by
  have posted : (m.post e).node.xMasterOsEvent = ⟨masterFlags.code e, .running⟩ :=
    (congrArg (xMBMasterPortEventPost · e) group).trans (post_running e)
  have got : xMBMasterPortEventGet (m.post e).node.xMasterOsEvent eEvent = (some e.value, ⟨0, .running⟩) := by
    rw [posted]
    cases e <;> first | rfl | exact absurd polled (by decide)
  have taken : withGroup (m.post e) ⟨0, .running⟩ = m := by
    rw [← group]
    rfl
  have works : ¬ (m.post e).eMBState ≠ .enabled := not_not_intro enabled
  rw [serve, posted]
  dsimp only
  rw [eMBMasterPoll, if_neg works, got, masterGot, Option.bind_map]
  change (masterSwitch (withGroup (m.post e) ⟨0, .running⟩) e.value).bind (serve eEvent fuel) = _
  rw [taken]

end

/-- Nothing is posted for the task. -/
theorem serve_blocked {m : Master} {flags : OSFlags} (eEvent : INT32U) (fuel : Nat)
    (enabled : m.eMBState = .enabled) (group : m.node.xMasterOsEvent = ⟨flags, .running⟩)
    (nothing : flags &&& masterFlags.mask polledEvents = 0) :
    serve eEvent (fuel + 1) m = some (withGroup m (blockedWith flags)) := by
  have got : xMBMasterPortEventGet m.node.xMasterOsEvent eEvent = (none, blockedWith flags) := by
    rw [group]
    unfold xMBMasterPortEventGet osFlagPend
    dsimp only
    rw [if_pos nothing]
    rfl
  rw [serve, group]
  dsimp only
  rw [eMBMasterPoll, if_neg (not_not_intro enabled), got]
  change serve eEvent fuel (withGroup m (blockedWith flags)) = _
  cases fuel <;> rfl

theorem masterSwitch_frameReceived (m : Master) :
    masterSwitch m (EMBMasterEventType.value .frameReceived) = some (masterReceived m) := if_pos rfl

theorem masterSwitch_execute (m : Master) :
    masterSwitch m (EMBMasterEventType.value .execute) = masterExecute m := rfl

theorem masterSwitch_frameSent (m : Master) :
    masterSwitch m (EMBMasterEventType.value .frameSent) = masterFrameSent m := rfl

theorem masterSwitch_errorProcess (m : Master) :
    masterSwitch m (EMBMasterEventType.value .errorProcess) = some (masterErrorProcess m) := rfl

/-! ### The frame of a request -/

/-- The frame of a request to `a` is on the line, and nothing came back yet. -/
structure Awaiting (before : Master) (a : INT8U) (r : Request) (m : Master) : Prop where
  enabled : m.eMBState = .enabled
  receiver : m.node.rtu.eRcvState = .rxIdle
  transmitter : m.node.rtu.eSndState = .txXfwr
  group : m.node.xMasterOsEvent = blockedWith 0
  taken : m.node.xMasterRunRes = 0
  dest : m.node.ucMBMasterDestAddress = a
  length : m.node.usMasterSendPDULength = BitVec.ofNat 16 r.pdu.length
  request : Placed m.node.sndBuf 1 r.pdu
  frame : m.ucMBFrame = some .send
  broadcast : m.node.rtu.xFrameIsBroadcast = decide (a = mbAddressBroadcast)
  mode : m.node.rtu.timers.eMasterCurTimerMode =
    if a = mbAddressBroadcast then .convertDelay else .respondTimeout
  regs : m.node.regs = before.node.regs

/-- Nothing is going on. -/
structure Resting (m : Master) : Prop where
  enabled : m.eMBState = .enabled
  receiver : m.node.rtu.eRcvState = .rxIdle
  transmitter : m.node.rtu.eSndState = .txIdle
  group : m.node.xMasterOsEvent = blockedWith 0
  free : m.node.xMasterRunRes = 1

/-- The master with the bytes of the frame gone to the line. -/
def withSent (m : Master) (sent : RtuMaster) : Master := { m with node := { m.node with rtu := sent } }

theorem masterFrameSent_eq {m : Master} {e : EMBErrorCode} {framed : RtuMaster}
    (called : eMBMasterRTUSend m.node.rtu m.node.ucMBMasterDestAddress m.node.usMasterSendPDULength =
      some (e, framed)) :
    masterFrameSent m = some { withSent m framed with ucMBFrame := some .send } := by
  rw [masterFrameSent, called]
  rfl

/-- A request that is issued goes to the line as one frame. -/
theorem request_goes_out {m : Master} (resting : Resting m) {a : INT8U} {r : Request}
    (near : a.toNat ≤ mbMasterTotalSlaveNum) (sized : r.pdu.length ≤ 250) (eEvent : INT32U) :
    ∃ loaded sent, serve eEvent 2 { m with node := issued m.node a r } = some loaded ∧
      transmitAll (loaded.node.rtu.usMasterSndBufferCount.toNat + 1) loaded.node.rtu = some sent ∧
      sent.line = loaded.node.rtu.line ++ lineFrame a r.pdu ∧ Awaiting m a r (withSent loaded sent) := by
  have polled : EMBMasterEventType.frameSent ∈ polledEvents := by decide
  have group : (issued m.node a r).xMasterOsEvent =
      ⟨masterFlags.code .frameSent, .ready (masterFlags.code .frameSent)⟩ :=
    (congrArg (xMBMasterPortEventPost · .frameSent) resting.group).trans (post_blocked polled)
  have content : Placed (memoryOf (issued m.node a r).rtu.ucMasterRTUSndBuf) 1 r.pdu := by
    refine (placed_congr fun i bound => ?_).mpr (placed_replace m.node.sndBuf 1 r.pdu)
    exact memoryOf_bufferOf _ (by omega)
  have idle : (issued m.node a r).rtu.eRcvState = .rxIdle := by
    rw [issued, MasterNode.post]
    exact resting.receiver
  have taken : (issued m.node a r).xMasterRunRes = 0 := by
    rw [issued, MasterNode.post]
    dsimp only
    rw [resting.free]
    rfl
  have dest : (issued m.node a r).ucMBMasterDestAddress = a := rfl
  have length : (issued m.node a r).usMasterSendPDULength = BitVec.ofNat 16 r.pdu.length := rfl
  have regs : (issued m.node a r).regs = m.node.regs := by rw [issued, MasterNode.post]
  generalize issued m.node a r = node at group content idle taken dest length regs ⊢
  obtain ⟨framed, called, sending, start, receiver, -, -, -⟩ :=
    eMBMasterRTUSend_frame idle near sized content
  rw [← dest, ← length] at called
  obtain ⟨sent, run, out⟩ := transmitAll_frame sending
  have placed := sending.placed
  rw [start, lineFrame, placed_cons, placed_append] at placed
  obtain ⟨first, request, -⟩ := placed
  have broadcast : sent.xFrameIsBroadcast = decide (a = mbAddressBroadcast) := by
    rw [out.broadcast, first]
  refine ⟨withGroup { withSent (withGroup { m with node := node } ⟨0, .running⟩) framed with
    ucMBFrame := some .send } (blockedWith 0), sent, ?_, ?_, out.line, ?_⟩
  · rw [serve_ready (m := { m with node := node }) polled eEvent 1 group, masterSwitch_frameSent,
      masterFrameSent_eq called, Option.bind_some]
    exact serve_blocked eEvent 0 resting.enabled rfl BitVec.zero_and
  · change transmitAll (framed.usMasterSndBufferCount.toNat + 1) framed = _
    rw [sending.count]
    exact run
  · refine ⟨resting.enabled, out.receiver.trans receiver, out.transmitter, rfl, taken, dest, length, ?_, rfl,
      broadcast, ?_, regs⟩
    · change Placed (memoryOf sent.ucMasterRTUSndBuf) 1 r.pdu
      rw [out.buffer]
      exact request
    · change sent.timers.eMasterCurTimerMode = _
      rw [out.mode, broadcast]
      simp only [decide_eq_true_eq]

/-- The request has ended with this event, which the task that made it has not seen yet. -/
structure Ended (event : EMBMasterEventType) (regs : MasterRegs) (m : Master) : Prop where
  enabled : m.eMBState = .enabled
  receiver : m.node.rtu.eRcvState = .rxIdle
  transmitter : m.node.rtu.eSndState = .txIdle
  group : m.node.xMasterOsEvent = blockedWith (masterFlags.code event)
  free : m.node.xMasterRunRes = 1
  regs : m.node.regs = regs

/-- A request is being dealt with by the task that polls. -/
structure Busy (m : Master) : Prop where
  enabled : m.eMBState = .enabled
  receiver : m.node.rtu.eRcvState = .rxIdle
  transmitter : m.node.rtu.eSndState = .txIdle
  group : m.node.xMasterOsEvent = ⟨0, .running⟩
  taken : m.node.xMasterRunRes = 0

theorem setTimeOut_node (m : Master) (ucDestAddress : INT8U) (value : Bool) :
    (m.setTimeOut ucDestAddress value).node = m.node ∧
      (m.setTimeOut ucDestAddress value).eMBState = m.eMBState := by
  unfold Master.setTimeOut
  split
  · exact ⟨rfl, rfl⟩
  · split <;> exact ⟨rfl, rfl⟩

/-- The task posts the end of the request and releases the resource. -/
theorem ends {m after : Master} (busy : Busy m) {event : EMBMasterEventType} (last : event ∈ finishedEvents)
    (node : after.node = vMBMasterRunResRelease (m.node.post event)) (state : after.eMBState = m.eMBState)
    (eEvent : INT32U) (fuel : Nat) :
    ∃ rested, serve eEvent (fuel + 1) after = some rested ∧ Ended event m.node.regs rested := by
  have one : m.node.xMasterRunRes + 1 = 1 := by rw [busy.taken]; rfl
  have room : (m.node.post event).xMasterRunRes < 65535 := by
    change m.node.xMasterRunRes < 65535
    rw [busy.taken]
    decide
  have released : after.node = { m.node with
      xMasterOsEvent := ⟨masterFlags.code event, .running⟩, xMasterRunRes := 1 } := by
    rw [node, vMBMasterRunResRelease, if_pos room, MasterNode.post, busy.group, post_running]
    dsimp only
    rw [one]
  have nothing : masterFlags.code event &&& masterFlags.mask polledEvents = 0 := by
    cases event <;> first | rfl | exact absurd last (by decide)
  refine ⟨_, serve_blocked eEvent fuel (state.trans busy.enabled) (by rw [released]) nothing, ?_⟩
  exact ⟨state.trans busy.enabled, by rw [withGroup, released]; exact busy.receiver,
    by rw [withGroup, released]; exact busy.transmitter, rfl, by rw [withGroup, released],
    by rw [withGroup, released]⟩

/-- The error that the request ends with. -/
def errorEvent : EMBMasterErrorEventType → EMBMasterEventType
  | .respondTimeout => .errorRespondTimeout
  | .receiveData => .errorReceiveData
  | .executeFunction => .errorExecuteFunction

theorem masterErrorProcess_ends {m : Master} (busy : Busy m) (eEvent : INT32U) (fuel : Nat) :
    ∃ rested, serve eEvent (fuel + 1) (masterErrorProcess m) = some rested ∧
      Ended (errorEvent m.node.rtu.errorType) m.node.regs rested := by
  unfold masterErrorProcess
  dsimp only
  cases m.node.rtu.errorType with
  | respondTimeout =>
    refine ends busy (show EMBMasterEventType.errorRespondTimeout ∈ finishedEvents by decide) ?_ ?_ eEvent fuel
    · exact congrArg vMBMasterRunResRelease (setTimeOut_node _ _ _).1
    · exact (setTimeOut_node _ _ _).2
  | receiveData =>
    refine ends busy (show EMBMasterEventType.errorReceiveData ∈ finishedEvents by decide) ?_ ?_ eEvent fuel
    · rfl
    · rfl
  | executeFunction =>
    refine ends busy (show EMBMasterEventType.errorExecuteFunction ∈ finishedEvents by decide) ?_ ?_ eEvent fuel
    · rfl
    · rfl

theorem value_none {e : EMBException} (none : e.value = EMBException.exNone.value) : e = .exNone := by
  cases e <;> first | rfl | exact absurd none (by decide)

/-- What the poll does with the exception of a handler. -/
def concluded (m : Master) (exception : INT8U) : Master :=
  if exception ≠ EMBException.exNone.value then (m.setErrorType .executeFunction).post .errorProcess
  else (vMBMasterCBRequestScuuess m).release

def endEvent (exception : INT8U) : EMBMasterEventType :=
  if exception ≠ EMBException.exNone.value then .errorExecuteFunction else .processSucess

theorem concluded_ends {m : Master} (busy : Busy m) (exception : INT8U) (eEvent : INT32U) (fuel : Nat) :
    ∃ rested, serve eEvent (fuel + 2) (concluded m exception) = some rested ∧
      Ended (endEvent exception) m.node.regs rested := by
  unfold concluded endEvent
  by_cases failed : exception ≠ EMBException.exNone.value
  · rw [if_pos failed, if_pos failed]
    rw [serve_posted (m := m.setErrorType .executeFunction) (by decide) eEvent (fuel + 1) busy.enabled busy.group,
      masterSwitch_errorProcess]
    exact masterErrorProcess_ends (m := m.setErrorType .executeFunction)
      ⟨busy.enabled, busy.receiver, busy.transmitter, busy.group, busy.taken⟩ eEvent fuel
  · rw [if_neg failed, if_neg failed]
    refine ends busy (show EMBMasterEventType.processSucess ∈ finishedEvents by decide) ?_ ?_ eEvent (fuel + 1)
    · exact congrArg vMBMasterRunResRelease (setTimeOut_node _ _ _).1
    · exact (setTimeOut_node _ _ _).2

/-- The task that made the request learns how it ended. -/
theorem eMBMasterWaitRequestFinish_ended {event : EMBMasterEventType} {regs : MasterRegs} {m : Master}
    (ended : Ended event regs m) (last : event ∈ finishedEvents) :
    ∃ node, eMBMasterWaitRequestFinish m.node = some (requestResult (masterFlags.code event), node) ∧
      Resting { m with node := node } ∧ node.regs = regs := by
  have taken : masterFlags.code event &&& masterFlags.mask finishedEvents = masterFlags.code event := by
    cases event <;> first | rfl | exact absurd last (by decide)
  have some : masterFlags.code event ≠ 0 := by
    cases event <;> decide
  have cleared : masterFlags.code event &&& ~~~masterFlags.code event = 0 := by
    cases event <;> rfl
  unfold eMBMasterWaitRequestFinish
  rw [ended.group, blockedWith]
  dsimp only
  rw [taken, if_neg some, cleared]
  exact ⟨_, rfl, ⟨ended.enabled, ended.receiver, ended.transmitter, rfl, ended.free⟩, ended.regs⟩

/-! ### What comes back -/

/-- What the master hears until the timer expires, and the events that posts. -/
def masterHears (m : Master) (run : List INT8U) : Master :=
  let expired := xMBMasterRTUTimerExpired (run.foldl xMBMasterRTUReceiveFSM m.node.rtu)
  expired.2.foldl Master.post (withSent m expired.1)

/-- One event wakes the task. -/
theorem wakes {m : Master} (group : m.node.xMasterOsEvent = blockedWith 0) (run : List INT8U) {rtu : RtuMaster}
    {e : EMBMasterEventType} (polled : e ∈ polledEvents)
    (expired : xMBMasterRTUTimerExpired (run.foldl xMBMasterRTUReceiveFSM m.node.rtu) = (rtu, [e]))
    (eEvent : INT32U) (fuel : Nat) :
    serve eEvent (fuel + 1) (masterHears m run) =
      (masterSwitch (withGroup (withSent m rtu) ⟨0, .running⟩) e.value).bind (serve eEvent fuel) := by
  have heard : masterHears m run = (withSent m rtu).post e := by
    rw [masterHears, expired]
    rfl
  have woken : ((withSent m rtu).post e).node.xMasterOsEvent =
      ⟨masterFlags.code e, .ready (masterFlags.code e)⟩ :=
    (congrArg (xMBMasterPortEventPost · e) group).trans (post_blocked polled)
  rw [heard]
  exact serve_ready polled eEvent fuel woken

/-- The task executes the frame that `ucMBFrame` points to. -/
theorem masterExecute_exception {m : Master} {frame : MasterBuffer} (points : m.ucMBFrame = some frame)
    (high : m.node.buffer frame 1 >>> 7 ≠ 0) :
    masterExecute m = some (concluded m (m.node.buffer frame 2)) := by
  refine (congrArg (Option.map _) points).trans ?_
  rw [Option.map_some]
  simp only [if_pos high]
  rfl

theorem masterExecute_handled {m : Master} {frame : MasterBuffer} (points : m.ucMBFrame = some frame)
    (low : ¬ m.node.buffer frame 1 >>> 7 ≠ 0) {called : EMBException × MasterNode × INT16U}
    (handled : executeHandler m frame (m.node.buffer frame 1) = called) :
    masterExecute m =
      some (concluded { m with node := called.2.1, usLength := called.2.2 } called.1.value) := by
  refine (congrArg (Option.map _) points).trans ?_
  rw [Option.map_some]
  simp only [if_neg low, handled]
  rfl

theorem answer_place {m : RtuMaster} {f : RcvFrame} (received : eMBMasterRTUReceive m = .ok f) :
    f.pucFrame = 1 := by
  unfold eMBMasterRTUReceive at received
  split at received
  · obtain rfl := Except.ok.inj received
    rfl
  · cases received

/-- The master with an answer handed over. -/
def withAnswer (m : Master) (pdu : List INT8U) : Master :=
  { m with
    ucRcvAddress := m.node.ucMBMasterDestAddress
    ucMBFrame := some .receive
    usLength := BitVec.ofNat 16 pdu.length }

/-- An answer from the slave that was asked is to be executed. -/
theorem masterReceived_answer {m : Master} {pdu : List INT8U}
    (frame : frameOf (memoryOf m.node.rtu.ucMasterRTURcvBuf) (eMBMasterRTUReceive m.node.rtu) =
      some (m.node.ucMBMasterDestAddress, pdu)) :
    masterReceived m = (withAnswer m pdu).post .execute ∧
      Placed (memoryOf m.node.rtu.ucMasterRTURcvBuf) 1 pdu := by
  unfold GasSub.Source.masterReceived
  cases received : eMBMasterRTUReceive m.node.rtu with
  | error e =>
    rw [received] at frame
    cases frame
  | ok f =>
    rw [received] at frame
    obtain ⟨address, content⟩ := Prod.mk.inj (Option.some.inj frame)
    have place := answer_place received
    have length : f.usLength.toNat = pdu.length := by
      rw [← content, RcvFrame.pdu, List.length_map, List.length_range]
    dsimp only
    rw [if_pos address, address, withAnswer, ← length, BitVec.ofNat_toNat, BitVec.setWidth_eq]
    refine ⟨rfl, ?_⟩
    rw [Placed, ← length, ← place]
    exact content

/-- A request has no function code that stands for an exception. -/
theorem code_low (r : Request) : ¬ r.code >>> 7 ≠ 0 := by
  cases r <;> simp only [Request.code] <;> decide

theorem exception_high (r : Request) : (r.code ||| 0x80) >>> 7 ≠ 0 := by
  cases r <;> simp only [Request.code] <;> decide

theorem setBuffer_buffer (m : MasterNode) (frame : MasterBuffer) : m.setBuffer (m.buffer frame) frame = m := by
  cases frame <;> simp only [MasterNode.setBuffer, MasterNode.buffer, bufferOf_memoryOf]

/-- A handler that leaves the frame alone. -/
theorem callMasterHandler_notes {m : MasterNode} {handler : MasterHandler} (frame : MasterBuffer)
    {usLength : INT16U} {accepted : Prop} {d : Device}
    (notes : Notes m (m.buffer frame) usLength accepted d (handler.call m (m.buffer frame) 1 usLength)) :
    ∃ regs, callMasterHandler handler frame m usLength =
        ((handler.call m (m.buffer frame) 1 usLength).eStatus, { m with regs := regs }, usLength) ∧
      (accepted → RowIs m.regs m.ucMBMasterDestAddress d regs) ∧ (¬ accepted → regs = m.regs) := by
  refine ⟨_, ?_, notes.noted, notes.ignored⟩
  unfold callMasterHandler
  dsimp only
  rw [notes.buf, notes.usLen]
  generalize (handler.call m (m.buffer frame) 1 usLength).regs = regs
  exact congrArg (fun node => (_, node, usLength)) (setBuffer_buffer { m with regs := regs } frame)

theorem executeHandler_one {m : Master} {r : Request} (frame : MasterBuffer)
    (single : m.node.rtu.xFrameIsBroadcast = false) :
    executeHandler m frame r.code = callMasterHandler (handlerOf r) frame m.node m.usLength := by
  rw [executeHandler, findMasterHandler_code]
  exact if_neg (by rw [single]; exact Bool.false_ne_true)

theorem executeHandler_all {m : Master} {r : Request} {frame : MasterBuffer} {length : INT16U}
    (several : m.node.rtu.xFrameIsBroadcast = true) (sized : m.node.usMasterSendPDULength = length) :
    executeHandler m frame r.code =
      callForSlaves (handlerOf r) frame mbMasterTotalSlaveNum 1 (.exIllegalFunction, m.node, length) := by
  rw [executeHandler, findMasterHandler_code, ← sized]
  exact if_pos several

/-- The handler is called for one slave after another. -/
theorem callForSlaves_told {r : Request} (sized : r.pdu.length ≤ 250) (slaves j : Nat)
    (inside : j + slaves ≤ 256) (status : EMBException) {m : MasterNode}
    (all : m.rtu.xFrameIsBroadcast = true) (request : Placed m.sndBuf 1 r.pdu) :
    ∃ exception dest regs,
      callForSlaves (handlerOf r) .send slaves j (status, m, BitVec.ofNat 16 r.pdu.length) =
        (exception, { m with ucMBMasterDestAddress := dest, regs := regs }, BitVec.ofNat 16 r.pdu.length) ∧
      (if slaves = 0 then exception = status
        else (exception = .exNone ↔ endingForAll slaveSizes r = .done)) ∧
      ∀ b : INT8U, Agree (within slaveSizes) (copyOf regs b)
        (if j ≤ b.toNat ∧ b.toNat < j + slaves then learnForAll slaveSizes (copyOf m.regs b) r
        else copyOf m.regs b) := by
  induction slaves generalizing j status m with
  | zero =>
    refine ⟨status, m.ucMBMasterDestAddress, m.regs, rfl, ?_, fun b => ?_⟩
    · rw [if_pos rfl]
    · rw [if_neg (by omega)]
      exact .refl _ _
  | succ slaves ih =>
    have here : (BitVec.ofNat 8 j : INT8U).toNat = j := by
      rw [BitVec.toNat_ofNat]
      omega
    have notes := toldAll_notes (m := { m with ucMBMasterDestAddress := BitVec.ofNat 8 j }) r all request sized
    obtain ⟨regs, called, noted, ignored⟩ := callMasterHandler_notes .send notes
    have row : RowIs m.regs (BitVec.ofNat 8 j) (learnForAll slaveSizes (copyOf m.regs (BitVec.ofNat 8 j)) r)
        regs := by
      by_cases done : endingForAll slaveSizes r = .done
      · exact noted done
      · rw [ignored done, learnForAll_refused _ done]
        exact .refl _ _
    obtain ⟨exception, dest, final, run, verdict, rows⟩ := ih (j + 1) (by omega)
      ((handlerOf r).call { m with ucMBMasterDestAddress := BitVec.ofNat 8 j } m.sndBuf 1
        (BitVec.ofNat 16 r.pdu.length)).eStatus
      (m := { m with ucMBMasterDestAddress := BitVec.ofNat 8 j, regs := regs }) all request
    refine ⟨exception, dest, final, ?_, ?_, fun b => ?_⟩
    · rw [callForSlaves, called]
      exact run
    · rw [if_neg (Nat.succ_ne_zero slaves)]
      by_cases last : slaves = 0
      · rw [if_pos last] at verdict
        rw [verdict]
        exact notes.status
      · rw [if_neg last] at verdict
        exact verdict
    · refine (rows b).trans ?_
      by_cases same : b = BitVec.ofNat 8 j
      · subst same
        rw [here, if_neg (by omega), if_pos (by omega), row.row]
        exact .refl _ _
      · have apart : b.toNat ≠ j := fun number => same (BitVec.eq_of_toNat_eq (number.trans here.symm))
        have kept := row.others b same
        by_cases later : j + 1 ≤ b.toNat ∧ b.toNat < j + 1 + slaves
        · rw [if_pos later, if_pos (by omega)]
          exact kept.learnForAll r
        · rw [if_neg later, if_neg (by omega)]
          exact kept

/-- An answer is in the receive buffer when the task executes it. -/
structure Answering (before : Master) (a : INT8U) (r : Request) (pdu : List INT8U) (m : Master) : Prop where
  busy : Busy m
  dest : m.node.ucMBMasterDestAddress = a
  request : Placed m.node.sndBuf 1 r.pdu
  single : m.node.rtu.xFrameIsBroadcast = false
  frame : m.ucMBFrame = some .receive
  length : m.usLength = BitVec.ofNat 16 pdu.length
  placed : Placed (m.node.buffer .receive) 1 pdu
  regs : m.node.regs = before.node.regs

section
variable {before m : Master} {a : INT8U} {r : Request} (awaiting : Awaiting before a r m) (eEvent : INT32U)
include awaiting

/-- Nobody answers. -/
theorem silent_ends (one : a ≠ mbAddressBroadcast) :
    ∃ rested, serve eEvent 5 (masterHears m []) = some rested ∧
      Ended .errorRespondTimeout before.node.regs rested := by
  have single : m.node.rtu.xFrameIsBroadcast = false := by
    rw [awaiting.broadcast]
    exact decide_eq_false one
  have mode : m.node.rtu.timers.eMasterCurTimerMode ≠ .convertDelay := by
    rw [awaiting.mode, if_neg one]
    decide
  obtain ⟨rtu, expired, receiver, transmitter, failed⟩ : ∃ rtu,
      xMBMasterRTUTimerExpired m.node.rtu = (rtu, [.errorProcess]) ∧ rtu.eRcvState = .rxIdle ∧
        rtu.eSndState = .txIdle ∧ rtu.errorType = .respondTimeout :=
    ⟨_, silence_expires awaiting.receiver awaiting.transmitter single mode, rfl, rfl, rfl⟩
  have ended := masterErrorProcess_ends (m := withGroup (withSent m rtu) ⟨0, .running⟩)
    ⟨awaiting.enabled, receiver, transmitter, rfl, awaiting.taken⟩ eEvent 3
  rw [wakes awaiting.group [] (by decide) expired eEvent 4, masterSwitch_errorProcess,
    Option.bind_some, ← awaiting.regs]
  change ∃ rested, _ ∧ Ended (errorEvent rtu.errorType) _ _ at ended
  rw [failed] at ended
  exact ended

/-- An answer of the slave comes in. -/
theorem answer_executes (one : a ≠ mbAddressBroadcast) (pdu : List INT8U) (long : 1 ≤ pdu.length)
    (short : pdu.length ≤ 253) :
    ∃ loaded, serve eEvent 5 (masterHears m (lineFrame a pdu)) =
      (masterExecute loaded).bind (serve eEvent 3) ∧ Answering before a r pdu loaded := by
  have decoded := (decodeFrame_eq_some_iff (lineFrame a pdu) a pdu).mpr ⟨rfl, long, short⟩
  have mode : m.node.rtu.timers.eMasterCurTimerMode ≠ .convertDelay := by
    rw [awaiting.mode, if_neg one]
    decide
  obtain ⟨rtu, expired, answered⟩ : ∃ rtu,
      xMBMasterRTUTimerExpired ((lineFrame a pdu).foldl xMBMasterRTUReceiveFSM m.node.rtu) =
        (rtu, [.frameReceived]) ∧ Answered m.node.rtu (lineFrame a pdu) rtu := by
    obtain ⟨posts, answered⟩ := answer_expires awaiting.receiver mode (fits_of_decodeFrame _ _ decoded)
    exact ⟨_, Prod.ext rfl posts, answered⟩
  have frame := answered.frame
  rw [decoded, ← awaiting.dest] at frame
  obtain ⟨received, placed⟩ := masterReceived_answer (m := withGroup (withSent m rtu) ⟨0, .running⟩) frame
  rw [wakes awaiting.group (lineFrame a pdu) (by decide) expired eEvent 4, masterSwitch_frameReceived, Option.bind_some, received,
    serve_posted (m := withAnswer (withGroup (withSent m rtu) ⟨0, .running⟩) pdu) (by decide) eEvent 3
      awaiting.enabled rfl, masterSwitch_execute]
  refine ⟨_, rfl, ⟨awaiting.enabled, answered.receiver, answered.transmitter, rfl, awaiting.taken⟩,
    awaiting.dest, ?_, ?_, rfl, rfl, placed, awaiting.regs⟩
  · have request := awaiting.request
    rw [MasterNode.sndBuf, ← answered.rest.buffer] at request
    exact request
  · exact answered.rest.broadcast.trans (awaiting.broadcast.trans (decide_eq_false one))

/-- The slave refuses. -/
theorem refused_ends (one : a ≠ mbAddressBroadcast) {x : INT8U}
    (failed : x ≠ EMBException.exNone.value) :
    ∃ rested, serve eEvent 5 (masterHears m (lineFrame a ((Reply.refused x).pdu r))) = some rested ∧
      Ended .errorExecuteFunction before.node.regs rested := by
  obtain ⟨loaded, run, answering⟩ := answer_executes awaiting eEvent one [r.code ||| 0x80, x]
    (Nat.le_add_left 1 1) (Nat.le_add_left 2 251)
  obtain ⟨code, rest⟩ := placed_cons.mp answering.placed
  have exception : loaded.node.buffer .receive 2 = x := (placed_cons.mp rest).1
  have high : loaded.node.buffer .receive 1 >>> 7 ≠ 0 := by
    rw [code]
    exact exception_high r
  have ended := concluded_ends answering.busy x eEvent 1
  rw [endEvent, if_pos failed, answering.regs] at ended
  rw [Reply.pdu, run, masterExecute_exception answering.frame high, exception]
  exact ended

/-- The slave grants the request. -/
theorem granted_ends (one : a ≠ mbAddressBroadcast) (sized : r.pdu.length ≤ 250) {e : Device}
    (granted : ∀ x, (r.serve slaveSizes slaveLimits e).2 ≠ .refused x) :
    ∃ rested regs,
      serve eEvent 5 (masterHears m (lineFrame a ((r.serve slaveSizes slaveLimits e).2.pdu r))) =
        some rested ∧ Ended .processSucess regs rested ∧
      RowIs before.node.regs a (learn (copyOf before.node.regs a) r (r.serve slaveSizes slaveLimits e).2)
        regs := by
  obtain ⟨rest, head⟩ := pdu_granted r granted
  have long : 1 ≤ ((r.serve slaveSizes slaveLimits e).2.pdu r).length := by
    rw [head]
    exact Nat.succ_pos _
  obtain ⟨loaded, run, answering⟩ := answer_executes awaiting eEvent one _ long (length_reply_le e r)
  have code : loaded.node.buffer .receive 1 = r.code := by
    have placed := answering.placed
    rw [head] at placed
    exact (placed_cons.mp placed).1
  have notes := answered_notes r granted answering.single answering.request sized answering.placed
  rw [← answering.length] at notes
  obtain ⟨regs, called, noted, -⟩ := callMasterHandler_notes .receive notes
  have row := noted trivial
  rw [answering.dest, answering.regs] at row
  have low : ¬ loaded.node.buffer .receive 1 >>> 7 ≠ 0 := by
    rw [code]
    exact code_low r
  have handled := (executeHandler_one .receive answering.single).trans called
  rw [← code, notes.status.mpr trivial] at handled
  rw [run, masterExecute_handled answering.frame low handled, Option.bind_some]
  have busy : Busy { loaded with node := { loaded.node with regs := regs }, usLength := loaded.usLength } :=
    ⟨answering.busy.enabled, answering.busy.receiver, answering.busy.transmitter, answering.busy.group,
      answering.busy.taken⟩
  obtain ⟨rested, served, ended⟩ := concluded_ends busy EMBException.exNone.value eEvent 1
  exact ⟨rested, regs, served, ended, row⟩

/-- A request to all is executed for every row. -/
theorem told_ends (all : a = mbAddressBroadcast) (sized : r.pdu.length ≤ 250) :
    ∃ rested regs event, serve eEvent 5 (masterHears m []) = some rested ∧ Ended event regs rested ∧
      event = (if endingForAll slaveSizes r = .done then .processSucess else .errorExecuteFunction) ∧
      ∀ b : INT8U, 1 ≤ b.toNat → b.toNat ≤ mbMasterTotalSlaveNum → Agree (within slaveSizes) (copyOf regs b)
        (learnForAll slaveSizes (copyOf before.node.regs b) r) := by
  have several : m.node.rtu.xFrameIsBroadcast = true := by
    rw [awaiting.broadcast]
    exact decide_eq_true all
  have mode : m.node.rtu.timers.eMasterCurTimerMode = .convertDelay := by
    rw [awaiting.mode, if_pos all]
  obtain ⟨rtu, expired, receiver, transmitter, broadcast, buffer⟩ : ∃ rtu,
      xMBMasterRTUTimerExpired m.node.rtu = (rtu, [.execute]) ∧ rtu.eRcvState = .rxIdle ∧
        rtu.eSndState = .txIdle ∧ rtu.xFrameIsBroadcast = true ∧
        rtu.ucMasterRTUSndBuf = m.node.rtu.ucMasterRTUSndBuf :=
    ⟨_, broadcast_expires awaiting.receiver several mode, rfl, rfl, several, rfl⟩
  have request : Placed (memoryOf rtu.ucMasterRTUSndBuf) 1 r.pdu := by
    rw [buffer]
    exact awaiting.request
  have length : m.node.usMasterSendPDULength = BitVec.ofNat 16 r.pdu.length := awaiting.length
  have code : memoryOf rtu.ucMasterRTUSndBuf 1 = r.code := (placed_cons.mp request).1
  have low : ¬ memoryOf rtu.ucMasterRTUSndBuf 1 >>> 7 ≠ 0 := by
    rw [code]
    exact code_low r
  obtain ⟨exception, dest, regs, called, verdict, rows⟩ := callForSlaves_told sized mbMasterTotalSlaveNum 1
    (by decide) .exIllegalFunction (m := (withGroup (withSent m rtu) ⟨0, .running⟩).node) broadcast request
  rw [if_neg (by decide)] at verdict
  have handled := (executeHandler_all (m := withGroup (withSent m rtu) ⟨0, .running⟩) broadcast length).trans called
  rw [← code] at handled
  have executed := masterExecute_handled (m := withGroup (withSent m rtu) ⟨0, .running⟩) awaiting.frame low handled
  have busy : Busy { withGroup (withSent m rtu) ⟨0, .running⟩ with
      node := { (withGroup (withSent m rtu) ⟨0, .running⟩).node with ucMBMasterDestAddress := dest, regs := regs }
      usLength := BitVec.ofNat 16 r.pdu.length } :=
    ⟨awaiting.enabled, receiver, transmitter, rfl, awaiting.taken⟩
  obtain ⟨rested, served, ended⟩ := concluded_ends busy exception.value eEvent 2
  refine ⟨rested, regs, _, ?_, ended, ?_, fun b positive near => ?_⟩
  · rw [wakes awaiting.group [] (by decide) expired eEvent 4, masterSwitch_execute,
      executed, Option.bind_some]
    exact served
  · have accepted : exception.value ≠ EMBException.exNone.value ↔ ¬ endingForAll slaveSizes r = .done := by
      rw [← verdict]
      exact not_congr ⟨value_none, fun none => by rw [none]⟩
    rw [endEvent]
    by_cases done : endingForAll slaveSizes r = .done
    · rw [if_pos done, if_neg fun failed => accepted.mp failed done]
    · rw [if_neg done, if_pos (accepted.mpr done)]
  · have row := rows b
    rw [if_pos ⟨positive, by omega⟩] at row
    rw [← awaiting.regs]
    exact row

end

/-! ### The end for the application -/

/-- The master hears what comes back, and the application is told how its request ended. -/
def finishes (eEvent : INT32U) (m : Master) (replies : List INT8U) : Option (EMBMasterReqErrCode × Master) :=
  (serve eEvent 5 (masterHears m replies)).bind fun m =>
    (eMBMasterWaitRequestFinish m.node).map fun ended => (ended.1, { m with node := ended.2 })

theorem finishes_ended {m rested : Master} {replies : List INT8U} {regs : MasterRegs} {event : EMBMasterEventType}
    {eEvent : INT32U} (served : serve eEvent 5 (masterHears m replies) = some rested)
    (ended : Ended event regs rested) (last : event ∈ finishedEvents) :
    ∃ after, finishes eEvent m replies = some (requestResult (masterFlags.code event), after) ∧
      Resting after ∧ after.node.regs = regs := by
  obtain ⟨node, waited, resting, same⟩ := eMBMasterWaitRequestFinish_ended ended last
  refine ⟨{ rested with node := node }, ?_, resting, same⟩
  rw [finishes, served, Option.bind_some, waited]
  rfl

/-! ### From the start -/

/-- A master after `eMBMasterInit`, with any contents of its rows. -/
def masterInit (usTimeOut50us : INT16U) (regs : MasterRegs) (slave : SlaveNode) : Master where
  eMBState := .disabled
  node := {
    rtu := TimerMode.powerOn usTimeOut50us
    usMasterSendPDULength := 0
    ucMBMasterDestAddress := 0
    xMasterOsEvent := ⟨0, .running⟩
    xMasterRunRes := 1
    regs := regs
    slave := slave }
  ucMBFrame := none
  ucRcvAddress := 0
  usLength := 0
  commxTimeOut1 := false
  commxTimeOut2 := false

/-- `eMBMasterEnable`, the first silence and the polls for what that posts. -/
def masterStarted (eEvent : INT32U) (m : Master) : Option Master :=
  serve eEvent 2 (masterHears (eMBMasterEnable m).2 [])

theorem masterStarted_resting (eEvent : INT32U) (usTimeOut50us : INT16U) (regs : MasterRegs) (slave : SlaveNode) :
    ∃ m, masterStarted eEvent (masterInit usTimeOut50us regs slave) = some m ∧ Resting m ∧
      m.node.regs = regs := by
  have started : (eMBMasterEnable (masterInit usTimeOut50us regs slave)).2.eMBState = .enabled := rfl
  have group : (eMBMasterEnable (masterInit usTimeOut50us regs slave)).2.node.xMasterOsEvent = ⟨0, .running⟩ := rfl
  have free : (eMBMasterEnable (masterInit usTimeOut50us regs slave)).2.node.xMasterRunRes = 1 := rfl
  have same : (eMBMasterEnable (masterInit usTimeOut50us regs slave)).2.node.regs = regs := rfl
  obtain ⟨rtu, expired, receiver, transmitter⟩ : ∃ rtu,
      xMBMasterRTUTimerExpired (eMBMasterEnable (masterInit usTimeOut50us regs slave)).2.node.rtu =
        (rtu, [.ready]) ∧ rtu.eRcvState = .rxIdle ∧ rtu.eSndState = .txIdle := ⟨_, rfl, rfl, rfl⟩
  unfold masterStarted
  generalize (eMBMasterEnable (masterInit usTimeOut50us regs slave)).2 = m at started group free same expired ⊢
  have heard : masterHears m [] = (withSent m rtu).post .ready := by
    rw [masterHears, List.foldl_nil, expired]
    rfl
  refine ⟨withGroup (withSent m rtu) (blockedWith 0), ?_, ⟨started, receiver, transmitter, rfl, free⟩, same⟩
  rw [heard, serve_posted (m := withSent m rtu) (by decide) eEvent 1 started group]
  change serve eEvent 1 (withSent m rtu) = _
  exact serve_blocked eEvent 0 started group BitVec.zero_and

/-- All rows clear. -/
def clearRows : MasterRegs := ⟨fun _ => 0, fun _ => 0, fun _ => 0, fun _ => 0⟩

end GasSub.Guarantees.MasterSession
