import GasSub.Guarantees.LineFraming
import GasSub.Guarantees.SlaveRequests

/-!
# The Modbus slave on its line

Runs of bytes arrive, each ended by the silence timer, and the slave is polled and its
transmit interrupt served until it is quiet again, before the next byte arrives. Along such a session the slave puts
on the line the replies that the device has for the requests addressed to it, one line
frame each and nothing else, and its registers are those of the device.
-/
namespace GasSub.Guarantees.SlaveSession
open GasSub.Source
open GasSub.Library.ByteMemory GasSub.Library.ByteWord GasSub.Library.Cells
open GasSub.Library.FrameReceiver GasSub.Library.ModbusProtocol
open GasSub.Guarantees.LineFraming GasSub.Guarantees.SlaveRequests

/-! ### A session -/

/-- Polls for the pending events and for those they post. -/
def pollAll : (fuel : Nat) → Slave → List EMBEventType → Slave
  | 0, s, _ => s
  | _ + 1, s, [] => s
  | fuel + 1, s, e :: pending =>
    let polled := eMBPoll s (some e)
    pollAll fuel polled.2.1 (pending ++ polled.2.2)

/-- As many transmit interrupts, with the events they post. -/
def transmitAll : Nat → RtuSlave → RtuSlave × List EMBEventType
  | 0, s => (s, [])
  | n + 1, s =>
    let step := xMBRTUTransmitFSM s
    let rest := transmitAll n step.1
    (rest.1, step.2 ++ rest.2)

/-- The frame that is loaded, if there is one, and the poll after it. -/
def sends (s : Slave) : Slave :=
  if s.rtu.serial.xTxEnable then
    let sent := transmitAll (s.rtu.usSndBufferCount.toNat + 1) s.rtu
    pollAll 3 { s with rtu := sent.1 } sent.2
  else s

/-- What the slave does with a run of bytes and the silence behind it, until it is quiet. -/
def hears (s : Slave) (run : List INT8U) : Slave :=
  let expired := xMBRTUTimerT35Expired (run.foldl xMBRTUReceiveFSM s.rtu)
  sends (pollAll 3 { s with rtu := expired.1 } expired.2)

/-- The slave waits for a frame. -/
structure Waiting (s : Slave) : Prop where
  enabled : s.eMBState = .enabled
  table : s.table = xFuncHandlers
  receiver : s.rtu.eRcvState = .rxIdle
  transmitter : s.rtu.eSndState = .txIdle
  serial : s.rtu.serial = ⟨true, false⟩

/-! ### Reception -/

/-- What the receiver leaves alone. -/
structure SendSideKept (before after : RtuSlave) : Prop where
  eSndState : after.eSndState = before.eSndState
  serial : after.serial = before.serial
  line : after.line = before.line

theorem sendSide_take (s : RtuSlave) (byte : INT8U) : SendSideKept s (xMBRTUReceiveFSM s byte) := by
  unfold xMBRTUReceiveFSM
  cases s.eRcvState with
  | rxInit => exact ⟨rfl, rfl, rfl⟩
  | rxIdle => exact ⟨rfl, rfl, rfl⟩
  | rxRcv =>
    dsimp only
    split <;> exact ⟨rfl, rfl, rfl⟩
  | rxError => exact ⟨rfl, rfl, rfl⟩

theorem sendSide_takes (s : RtuSlave) (run : List INT8U) :
    SendSideKept s (run.foldl xMBRTUReceiveFSM s) := by
  induction run generalizing s with
  | nil => exact ⟨rfl, rfl, rfl⟩
  | cons byte run ih =>
    have first := sendSide_take s byte
    have rest := ih (xMBRTUReceiveFSM s byte)
    exact ⟨rest.eSndState.trans first.eSndState, rest.serial.trans first.serial,
      rest.line.trans first.line⟩

/-- What the receiver has of a run. -/
theorem slaveView_run {s : RtuSlave} (idle : s.eRcvState = .rxIdle) (run : List INT8U) :
    slaveView (run.foldl xMBRTUReceiveFSM s) =
      if run = [] then .idle else if run.length ≤ mbSerPduSizeMax then .receiving run else .overrun := by
  have start : slaveView s = .idle := by rw [slaveView, idle]
  have view : slaveView (run.foldl xMBRTUReceiveFSM s) =
      run.foldl (Receiver.take mbSerPduSizeMax) (slaveView s) := slaveLine_simulates.view_takes s run
  rw [view, start]
  cases run with
  | nil => rfl
  | cons x run => rw [takes_idle (by decide), if_neg (List.cons_ne_nil x run)]

/-- The silence behind a run posts an event for a run that fits. -/
theorem expired_posts {s : RtuSlave} (idle : s.eRcvState = .rxIdle) (run : List INT8U) :
    (xMBRTUTimerT35Expired (run.foldl xMBRTUReceiveFSM s)).2 =
      if Fits mbSerPduSizeMax run then [.frameReceived] else [] := by
  have view := slaveView_run idle run
  unfold xMBRTUTimerT35Expired
  dsimp only
  generalize run.foldl xMBRTUReceiveFSM s = after at view ⊢
  by_cases empty : run = []
  · rw [if_pos empty] at view
    rw [if_neg fun fits => fits.1 empty]
    cases state : after.eRcvState <;> simp [slaveView, state] at view ⊢
  · rw [if_neg empty] at view
    by_cases short : run.length ≤ mbSerPduSizeMax
    · rw [if_pos short] at view
      rw [if_pos ⟨empty, short⟩]
      cases state : after.eRcvState <;> simp [slaveView, state] at view ⊢
    · rw [if_neg short] at view
      rw [if_neg fun fits => short fits.2]
      cases state : after.eRcvState <;> simp [slaveView, state] at view ⊢

theorem received_run {s : RtuSlave} (idle : s.eRcvState = .rxIdle) {run : List INT8U}
    (fits : Fits mbSerPduSizeMax run) : (run.foldl xMBRTUReceiveFSM s).received = run := by
  have view := slaveView_run idle run
  rw [if_neg fits.1, if_pos fits.2] at view
  unfold slaveView at view
  split at view
  · cases view
  · cases view
  · exact Receiver.receiving.inj view
  · cases view

/-- What `eMBRTUReceive` hands over of a run is what the run is decoded to. -/
theorem received_frame {s : RtuSlave} {run : List INT8U} (received : s.received = run)
    (short : run.length ≤ mbSerPduSizeMax) :
    frameOf s.ucRTUBuf (eMBRTUReceive s) = decodeFrame run := by
  have length : s.usRcvBufferPos = run.length := by rw [← received, length_received]
  have run : decodeFrame run = decodeFrame ((List.range s.usRcvBufferPos).map s.ucRTUBuf) := by
    rw [← received, RtuSlave.received]
  rw [run]
  exact frameOf_handedOver s.ucRTUBuf (by rw [length]; exact short)

/-- What no run changes that is not for the slave. -/
structure Unmoved (s after : Slave) : Prop where
  waiting : Waiting after
  node : after.node = s.node
  ucMBAddress : after.ucMBAddress = s.ucMBAddress
  line : after.rtu.line = s.rtu.line

/-- The slave when the silence behind a run is over. -/
def heard (s : Slave) (run : List INT8U) : Slave :=
  { s with rtu := (xMBRTUTimerT35Expired (run.foldl xMBRTUReceiveFSM s.rtu)).1 }

theorem heard_unmoved {s : Slave} (waiting : Waiting s) (run : List INT8U) : Unmoved s (heard s run) := by
  have kept := sendSide_takes s.rtu run
  exact ⟨⟨waiting.enabled, waiting.table, rfl, kept.eSndState.trans waiting.transmitter,
    kept.serial.trans waiting.serial⟩, rfl, rfl, kept.line⟩

theorem sends_waiting {s : Slave} (waiting : Waiting s) : sends s = s := by
  rw [sends, waiting.serial]
  rfl

theorem eMBPoll_received {s : Slave} (enabled : s.eMBState = .enabled) :
    (eMBPoll s (some .frameReceived)).2 = pollReceived s := by
  unfold eMBPoll
  rw [if_neg (not_not_intro enabled)]

theorem eMBPoll_execute {s : Slave} (enabled : s.eMBState = .enabled) :
    (eMBPoll s (some .execute)).2 = (pollExecute s, []) := by
  unfold eMBPoll
  rw [if_neg (not_not_intro enabled)]

theorem eMBPoll_sent (s : Slave) : (eMBPoll s (some .frameSent)).2 = (s, []) := by
  unfold eMBPoll
  split <;> rfl

/-- The poll for a run that was received. -/
theorem hears_received {s : Slave} (waiting : Waiting s) {run : List INT8U}
    (fits : Fits mbSerPduSizeMax run) :
    hears s run = sends (pollAll 2 (pollReceived (heard s run)).1 (pollReceived (heard s run)).2) := by
  have posted := expired_posts waiting.receiver run
  rw [if_pos fits] at posted
  have polled := eMBPoll_received (s := heard s run) waiting.enabled
  unfold hears
  dsimp only
  rw [posted]
  change sends (pollAll 2 (eMBPoll (heard s run) (some .frameReceived)).2.1
    ([] ++ (eMBPoll (heard s run) (some .frameReceived)).2.2)) = _
  rw [polled, List.nil_append]

theorem heard_frame {s : Slave} (waiting : Waiting s) {run : List INT8U}
    (fits : Fits mbSerPduSizeMax run) :
    frameOf (heard s run).rtu.ucRTUBuf (eMBRTUReceive (heard s run).rtu) = decodeFrame run :=
  received_frame (s := (heard s run).rtu) (received_run waiting.receiver fits) fits.2

/-- A run that is no frame, or one for another station, changes nothing. -/
theorem hears_ignored {s : Slave} (waiting : Waiting s) {run : List INT8U}
    (ignored : ∀ address pdu, decodeFrame run = some (address, pdu) →
      address ≠ s.ucMBAddress ∧ address ≠ mbAddressBroadcast) :
    Unmoved s (hears s run) ∧ (hears s run).rtu = (heard s run).rtu := by
  have still := heard_unmoved waiting run
  by_cases fits : Fits mbSerPduSizeMax run
  · have frame := heard_frame waiting fits
    rw [hears_received waiting fits]
    unfold pollReceived
    cases received : eMBRTUReceive (heard s run).rtu with
    | error e =>
      rw [show pollAll 2 (heard s run) [] = heard s run from rfl, sends_waiting still.waiting]
      exact ⟨still, rfl⟩
    | ok f =>
      rw [received] at frame
      obtain ⟨other, notAll⟩ := ignored _ _ frame.symm
      dsimp only
      rw [if_neg fun ours => ours.elim other notAll]
      have unchanged : Waiting { heard s run with
          ucRcvAddress := f.ucRcvAddress, ucMBFrame := f.pucFrame, usLength := f.usLength } :=
        ⟨still.waiting.enabled, still.waiting.table, still.waiting.receiver, still.waiting.transmitter,
          still.waiting.serial⟩
      rw [pollAll, sends_waiting unchanged]
      exact ⟨⟨unchanged, still.node, still.ucMBAddress, still.line⟩, rfl⟩
  · have posted := expired_posts waiting.receiver run
    rw [if_neg fits] at posted
    unfold hears
    dsimp only
    rw [posted]
    change Unmoved s (sends (heard s run)) ∧ (sends (heard s run)).rtu = _
    rw [sends_waiting still.waiting]
    exact ⟨still, rfl⟩

/-- A frame for the slave is in the buffer when the poll executes it. -/
structure Loaded (s : Slave) (address : INT8U) (pdu : List INT8U) (loaded : Slave) : Prop where
  unmoved : Unmoved s loaded
  ucRcvAddress : loaded.ucRcvAddress = address
  ucMBFrame : loaded.ucMBFrame = 1
  usLength : loaded.usLength = BitVec.ofNat 16 pdu.length
  placed : Placed loaded.rtu.ucRTUBuf 1 pdu

theorem place_of_received {s : RtuSlave} {f : RcvFrame} (received : eMBRTUReceive s = .ok f) :
    f.pucFrame = 1 := by
  unfold eMBRTUReceive at received
  split at received
  · obtain rfl := Except.ok.inj received
    rfl
  · cases received

theorem hears_addressed {s : Slave} (waiting : Waiting s) {run : List INT8U} {address : INT8U}
    {pdu : List INT8U} (decoded : decodeFrame run = some (address, pdu))
    (ours : address = s.ucMBAddress ∨ address = mbAddressBroadcast) :
    ∃ loaded, Loaded s address pdu loaded ∧ loaded.rtu = (heard s run).rtu ∧
      hears s run = sends (pollExecute loaded) := by
  have fits := fits_of_decodeFrame run (address, pdu) decoded
  have still := heard_unmoved waiting run
  have frame := heard_frame waiting fits
  rw [decoded] at frame
  rw [hears_received waiting fits]
  unfold pollReceived
  cases received : eMBRTUReceive (heard s run).rtu with
  | error e =>
    rw [received] at frame
    cases frame
  | ok f =>
    rw [received] at frame
    obtain ⟨rfl, content⟩ := Prod.mk.inj (Option.some.inj frame)
    have place := place_of_received received
    have length : f.usLength.toNat = pdu.length := by
      rw [← content, RcvFrame.pdu, List.length_map, List.length_range]
    dsimp only
    rw [still.ucMBAddress, if_pos ours]
    refine ⟨{ heard s run with
      ucRcvAddress := f.ucRcvAddress, ucMBFrame := f.pucFrame, usLength := f.usLength }, ?_, rfl, ?_⟩
    · refine ⟨⟨⟨still.waiting.enabled, still.waiting.table, still.waiting.receiver,
        still.waiting.transmitter, still.waiting.serial⟩, still.node, still.ucMBAddress, still.line⟩,
        rfl, place, ?_, ?_⟩
      · rw [← length, BitVec.ofNat_toNat, BitVec.setWidth_eq]
      · rw [Placed, ← length, ← place]
        exact content
    · have executed : ∀ t : Slave, t.eMBState = .enabled → pollAll 2 t [.execute] = pollExecute t := by
        intro t enabled
        change pollAll 1 (eMBPoll t (some .execute)).2.1 ([] ++ (eMBPoll t (some .execute)).2.2) = _
        rw [eMBPoll_execute enabled]
        rfl
      exact congrArg sends (executed _ still.waiting.enabled)

/-! ### The reply -/

/-- The reply of the device is what the handler leaves for a request. -/
theorem callHandler_served {s : Slave} {r : Request} (table : s.table = xFuncHandlers)
    (request : Placed s.rtu.ucRTUBuf s.ucMBFrame r.pdu)
    (length : s.usLength = BitVec.ofNat 16 r.pdu.length) (sized : r.pdu.length ≤ 253)
    (byte : ∀ address count, r = .readHoldings address count → count.toNat < 256) :
    Served s.node r s.ucMBFrame (callHandler s) := by
  have code : s.rtu.ucRTUBuf s.ucMBFrame = r.code := (placed_cons.mp request).1
  unfold callHandler
  rw [table, code, length]
  cases r with
  | readCoils address count => exact eMBFuncReadCoils_served request
  | readDiscretes address count => exact eMBFuncReadDiscreteInputs_served request
  | readHoldings address count => exact eMBFuncReadHoldingRegister_served request (byte _ _ rfl)
  | readInputs address count => exact eMBFuncReadInputRegister_served request
  | writeCoil address value => exact eMBFuncWriteCoil_served request
  | writeHolding address value => exact eMBFuncWriteHoldingRegister_served request
  | writeCoils address values => exact eMBFuncWriteMultipleCoils_served request sized
  | writeHoldings address values => exact eMBFuncWriteMultipleHoldingRegister_served request sized
  | readWrite address count start values =>
    exact eMBFuncReadWriteMultipleHoldingRegister_served request sized

/-! ### Sending -/

/-- A frame that is being sent. -/
structure Sending (s : RtuSlave) (frame : List INT8U) : Prop where
  transmitter : s.eSndState = .txXmit
  count : s.usSndBufferCount.toNat = frame.length
  placed : Placed s.ucRTUBuf s.pucSndBufferCur frame

/-- What is sent is the line frame of the PDU. -/
theorem eMBRTUSend_frame {s : RtuSlave} (idle : s.eRcvState = .rxIdle) (ucSlaveAddress : INT8U)
    {usLength : INT16U} {pdu : List INT8U} (content : slice s.ucRTUBuf 1 usLength.toNat = pdu)
    (short : usLength.toNat ≤ 253) :
    Sending (eMBRTUSend s ucSlaveAddress 1 usLength).2 (lineFrame ucSlaveAddress pdu) ∧
      (eMBRTUSend s ucSlaveAddress 1 usLength).2.serial = ⟨false, true⟩ ∧
      (eMBRTUSend s ucSlaveAddress 1 usLength).2.eRcvState = .rxIdle ∧
      (eMBRTUSend s ucSlaveAddress 1 usLength).2.line = s.line := by
  have length : usLength.toNat = pdu.length := by rw [← content, length_slice]
  have one : (1 : INT16U).toNat = 1 := rfl
  have two : (2 : INT16U).toNat = 2 := rfl
  have count : (1 + usLength).toNat = pdu.length + 1 := by
    rw [BitVec.toNat_add, one]
    omega
  have next : (1 + usLength + 1).toNat = pdu.length + 2 := by
    rw [BitVec.toNat_add, count, one]
    omega
  have total : (1 + usLength + 2).toNat = pdu.length + 3 := by
    rw [BitVec.toNat_add, count, two]
    omega
  have front : Placed (store s.ucRTUBuf 0 [ucSlaveAddress]) 0 (ucSlaveAddress :: pdu) := by
    rw [placed_cons]
    refine ⟨store_byte_self _ _ _, ?_⟩
    have behind : Placed (store s.ucRTUBuf 0 [ucSlaveAddress]) (0 + 1) pdu ↔ Placed s.ucRTUBuf (0 + 1) pdu :=
      placed_congr fun i _ => store_outside _ _ _ _ (Or.inr (by simp only [List.length_singleton]; omega))
    rw [behind]
    rw [Placed, ← length]
    exact content
  have run : (List.range (1 + usLength).toNat).map
      (fun i => store s.ucRTUBuf (1 - 1 + mbSerPduAddrOff) [ucSlaveAddress] (1 - 1 + i)) =
      ucSlaveAddress :: pdu := by
    rw [count]
    exact front
  unfold eMBRTUSend
  rw [if_pos idle]
  dsimp only
  rw [run, count, next]
  refine ⟨⟨rfl, ?_, ?_⟩, rfl, idle, rfl⟩
  · rw [length_lineFrame]
    exact total
  · change Placed (store (store (store s.ucRTUBuf 0 [ucSlaveAddress]) (pdu.length + 1)
      [(usMBCRC16 (ucSlaveAddress :: pdu)).2]) (pdu.length + 2) [(usMBCRC16 (ucSlaveAddress :: pdu)).1]) 0
      (ucSlaveAddress :: pdu ++ [(usMBCRC16 (ucSlaveAddress :: pdu)).2, (usMBCRC16 (ucSlaveAddress :: pdu)).1])
    refine placed_append.mpr ⟨(placed_congr fun i inside => ?_).mpr front, ?_⟩
    · rw [List.length_cons] at inside
      rw [store_outside _ _ _ _ (Or.inl (by omega)), store_outside _ _ _ _ (Or.inl (by omega))]
    · rw [List.length_cons, Nat.zero_add, placed_cons, placed_cons]
      refine ⟨?_, store_byte_self _ _ _, placed_nil⟩
      rw [store_outside _ _ _ _ (Or.inl (Nat.lt_succ_self _)), store_byte_self]

/-- The interrupts put the frame on the line. -/
theorem transmitAll_frame {s : RtuSlave} {frame : List INT8U} (sending : Sending s frame) :
    (transmitAll (frame.length + 1) s).1.line = s.line ++ frame ∧
      (transmitAll (frame.length + 1) s).1.eSndState = .txIdle ∧
      (transmitAll (frame.length + 1) s).1.serial = ⟨true, false⟩ ∧
      (transmitAll (frame.length + 1) s).1.eRcvState = s.eRcvState := by
  induction frame generalizing s with
  | nil =>
    have done : s.usSndBufferCount = 0 := BitVec.eq_of_toNat_eq sending.count
    have step : xMBRTUTransmitFSM s =
        (vMBPortSerialEnable { s with eSndState := .txIdle } true false, [.frameSent]) := by
      unfold xMBRTUTransmitFSM
      rw [sending.transmitter]
      dsimp only
      rw [if_neg (not_not_intro done)]
    rw [List.length_nil, transmitAll, transmitAll, step]
    exact ⟨(List.append_nil s.line).symm, rfl, rfl, rfl⟩
  | cons byte frame ih =>
    have more : s.usSndBufferCount.toNat = frame.length + 1 := sending.count
    have zero : (0 : INT16U).toNat = 0 := rfl
    have one : (1 : INT16U).toNat = 1 := rfl
    have positive : s.usSndBufferCount ≠ 0 := by
      rintro none
      rw [none, zero] at more
      omega
    obtain ⟨first, rest⟩ := placed_cons.mp sending.placed
    have step : xMBRTUTransmitFSM s = ({ s with
        line := s.line ++ [byte]
        pucSndBufferCur := s.pucSndBufferCur + 1
        usSndBufferCount := s.usSndBufferCount - 1 }, []) := by
      unfold xMBRTUTransmitFSM
      rw [sending.transmitter]
      dsimp only
      rw [if_pos positive, first]
    have less : (s.usSndBufferCount - 1).toNat = frame.length := by
      rw [BitVec.toNat_sub_of_le (BitVec.le_def.mpr (by rw [more, one]; omega)), more, one,
        Nat.add_sub_cancel]
    obtain ⟨line, state, serial, receiver⟩ := ih (s := { s with
        line := s.line ++ [byte]
        pucSndBufferCur := s.pucSndBufferCur + 1
        usSndBufferCount := s.usSndBufferCount - 1 }) ⟨sending.transmitter, less, rest⟩
    rw [List.length_cons, transmitAll, step]
    refine ⟨?_, state, serial, receiver⟩
    rw [line, List.append_assoc]
    rfl

/-- The transmit machine posts the end of a frame only. -/
theorem transmitAll_posts (n : Nat) (s : RtuSlave) : ∀ e ∈ (transmitAll n s).2, e = .frameSent := by
  induction n generalizing s with
  | zero => simp [transmitAll]
  | succ n ih =>
    intro e member
    rcases List.mem_append.mp member with here | later
    · unfold xMBRTUTransmitFSM at here
      split at here
      · cases here
      · split at here
        · cases here
        · exact List.mem_singleton.mp here
    · exact ih _ e later

theorem pollAll_sent (fuel : Nat) (s : Slave) {events : List EMBEventType}
    (sent : ∀ e ∈ events, e = .frameSent) : pollAll fuel s events = s := by
  induction fuel generalizing events with
  | zero => rfl
  | succ fuel ih =>
    cases events with
    | nil => rfl
    | cons e pending =>
      obtain rfl := sent e List.mem_cons_self
      rw [pollAll, eMBPoll_sent, List.append_nil]
      exact ih fun e member => sent e (List.mem_cons_of_mem _ member)

theorem sends_eq (s : Slave) : sends s =
    if s.rtu.serial.xTxEnable then
      { s with rtu := (transmitAll (s.rtu.usSndBufferCount.toNat + 1) s.rtu).1 }
    else s := by
  unfold sends
  split
  · exact pollAll_sent _ _ (transmitAll_posts _ _)
  · rfl

/-- The slave with a reply loaded goes back to waiting with the reply on the line. -/
theorem sends_frame {s : Slave} {frame : List INT8U} (enabled : s.eMBState = .enabled)
    (table : s.table = xFuncHandlers) (receiver : s.rtu.eRcvState = .rxIdle)
    (serial : s.rtu.serial = ⟨false, true⟩) (sending : Sending s.rtu frame) :
    Waiting (sends s) ∧ (sends s).node = s.node ∧ (sends s).ucMBAddress = s.ucMBAddress ∧
      (sends s).rtu.line = s.rtu.line ++ frame := by
  obtain ⟨line, state, serialAfter, receiverAfter⟩ := transmitAll_frame sending
  rw [sends_eq, serial, if_pos rfl, sending.count]
  exact ⟨⟨enabled, table, receiverAfter.trans receiver, state, serialAfter⟩, rfl, rfl, line⟩

/-- What a request asks for that the slave can take as it is: it fits a frame, and a read of
holding registers has a count of one byte. `eMBFuncReadHoldingRegister` assigns the low byte of
the count over the high one, so that of 259 registers it sends 3 where the device has an
exception. -/
structure Taken (r : Request) : Prop where
  sized : r.pdu.length ≤ 253
  byte : ∀ address count, r = .readHoldings address count → count.toNat < 256

/-- What is sent on a request to `address`. -/
def repliesTo (own address : INT8U) (pdu : List INT8U) : List INT8U :=
  if address = mbAddressBroadcast then [] else lineFrame own pdu

/-- The slave waits again with the tables of `device`, and has sent `sent`. -/
structure Outcome (s : Slave) (device : Device) (sent : List INT8U) (after : Slave) : Prop where
  waiting : Waiting after
  ucMBAddress : after.ucMBAddress = s.ucMBAddress
  device : deviceOf after.node.regs = device
  line : after.rtu.line = s.rtu.line ++ sent

theorem sends_node (s : Slave) : (sends s).node = s.node := by
  rw [sends_eq]
  split <;> rfl

theorem pollExecute_node (s : Slave) : (pollExecute s).node = (callHandler s).node := by
  unfold pollExecute
  dsimp only
  split <;> rfl

section
variable {s loaded : Slave} {address : INT8U} {pdu : List INT8U}

theorem execute_broadcast (load : Loaded s address pdu loaded) (all : address = mbAddressBroadcast) :
    Outcome s (deviceOf (callHandler loaded).node.regs) [] (sends (pollExecute loaded)) := by
  have still := load.unmoved
  have executed : pollExecute loaded = { loaded with
      node := (callHandler loaded).node
      usLength := (callHandler loaded).usLen
      rtu := { loaded.rtu with ucRTUBuf := (callHandler loaded).buf } } :=
    if_neg (not_not_intro (load.ucRcvAddress.trans all))
  have waits : Waiting (pollExecute loaded) := by
    rw [executed]
    exact ⟨still.waiting.enabled, still.waiting.table, still.waiting.receiver,
      still.waiting.transmitter, still.waiting.serial⟩
  rw [sends_waiting waits]
  refine ⟨waits, ?_, ?_, ?_⟩
  · rw [executed]
    exact still.ucMBAddress
  · rw [executed]
  · rw [executed, List.append_nil]
    exact still.line

theorem pollExecute_own (load : Loaded s address pdu loaded) (one : address ≠ mbAddressBroadcast) :
    pollExecute loaded =
      let answer := errorFrame (loaded.rtu.ucRTUBuf 1) 1 (callHandler loaded)
      { loaded with
        node := (callHandler loaded).node
        ucMBFrame := 1
        usLength := answer.2
        rtu := (eMBRTUSend { loaded.rtu with ucRTUBuf := answer.1 } loaded.ucMBAddress 1 answer.2).2 } := by
  have executed : pollExecute loaded =
      let answer := errorFrame (loaded.rtu.ucRTUBuf loaded.ucMBFrame) loaded.ucMBFrame (callHandler loaded)
      { loaded with
        node := (callHandler loaded).node
        usLength := answer.2
        rtu := (eMBRTUSend { loaded.rtu with ucRTUBuf := answer.1 } loaded.ucMBAddress loaded.ucMBFrame
          answer.2).2 } :=
    if_pos fun all => one (load.ucRcvAddress.symm.trans all)
  rw [load.ucMBFrame] at executed
  exact executed

theorem execute_own (load : Loaded s address pdu loaded) (one : address ≠ mbAddressBroadcast)
    (short : (answered (loaded.rtu.ucRTUBuf 1) 1 (callHandler loaded)).length ≤ 253) :
    Outcome s (deviceOf (callHandler loaded).node.regs)
      (lineFrame s.ucMBAddress (answered (loaded.rtu.ucRTUBuf 1) 1 (callHandler loaded)))
      (sends (pollExecute loaded)) := by
  have still := load.unmoved
  have executed := pollExecute_own load one
  unfold answered at short ⊢
  generalize errorFrame (loaded.rtu.ucRTUBuf 1) 1 (callHandler loaded) = answer at executed short ⊢
  rw [length_slice] at short
  obtain ⟨sending, serial, receiver, line⟩ := eMBRTUSend_frame
    (s := { loaded.rtu with ucRTUBuf := answer.1 }) still.waiting.receiver loaded.ucMBAddress rfl short
  obtain ⟨waits, node, own, after⟩ := sends_frame (s := pollExecute loaded)
    (by rw [executed]; exact still.waiting.enabled) (by rw [executed]; exact still.waiting.table)
    (by rw [executed]; exact receiver) (by rw [executed]; exact serial) (by rw [executed]; exact sending)
  refine ⟨waits, ?_, ?_, ?_⟩
  · rw [own, executed]
    exact still.ucMBAddress
  · rw [node, executed]
  · rw [after, executed]
    dsimp only
    rw [line, still.ucMBAddress]
    exact congrArg (· ++ _) still.line

end

/-- A request for the slave: its tables become those the device has then, and what the device
replies is sent. -/
theorem hears_request {s : Slave} (waiting : Waiting s) {address : INT8U} {r : Request} (taken : Taken r)
    (ours : address = s.ucMBAddress ∨ address = mbAddressBroadcast) :
    Outcome s (r.serve slaveSizes slaveLimits (deviceOf s.node.regs)).1
      (repliesTo s.ucMBAddress address ((r.serve slaveSizes slaveLimits (deviceOf s.node.regs)).2.pdu r))
      (hears s (lineFrame address r.pdu)) := by
  have decoded := (decodeFrame_eq_some_iff (lineFrame address r.pdu) address r.pdu).mpr
    ⟨rfl, Nat.succ_pos _, taken.sized⟩
  obtain ⟨loaded, load, -, run⟩ := hears_addressed waiting decoded ours
  have still := load.unmoved
  obtain ⟨device, reply, -⟩ := callHandler_served still.waiting.table
    (by rw [load.ucMBFrame]; exact load.placed) load.usLength taken.sized taken.byte
  have code : loaded.rtu.ucRTUBuf 1 = r.code := (placed_cons.mp load.placed).1
  rw [still.node] at device reply
  rw [load.ucMBFrame, ← code] at reply
  rw [run, ← device, ← reply, repliesTo]
  by_cases all : address = mbAddressBroadcast
  · rw [if_pos all]
    exact execute_broadcast load all
  · rw [if_neg all]
    refine execute_own load all ?_
    rw [reply]
    exact length_reply_le _ r

/-! ### Whole sessions -/

/-- Runs on the line: requests to the slave or to all, and whatever is no frame or is one for
another station. A PDU to the slave that is none of the requests is left out. -/
inductive Traffic (own : INT8U) : List INT8U → Option (INT8U × Request) → Prop where
  | request (address : INT8U) (r : Request) (taken : Taken r)
      (ours : address = own ∨ address = mbAddressBroadcast) :
      Traffic own (lineFrame address r.pdu) (some (address, r))
  | other (run : List INT8U) (ignored : ∀ address pdu, decodeFrame run = some (address, pdu) →
      address ≠ own ∧ address ≠ mbAddressBroadcast) : Traffic own run none

/-- The device that serves one request after another, and what it sends. -/
def answersTo (own : INT8U) : Device → List (Option (INT8U × Request)) → Device × List INT8U
  | d, [] => (d, [])
  | d, none :: rest => answersTo own d rest
  | d, some (address, r) :: rest =>
    let served := r.serve slaveSizes slaveLimits d
    let later := answersTo own served.1 rest
    (later.1, repliesTo own address (served.2.pdu r) ++ later.2)

theorem hears_session {s : Slave} (waiting : Waiting s)
    (items : List (List INT8U × Option (INT8U × Request)))
    (traffic : ∀ item ∈ items, Traffic s.ucMBAddress item.1 item.2) :
    Outcome s (answersTo s.ucMBAddress (deviceOf s.node.regs) (items.map Prod.snd)).1
      (answersTo s.ucMBAddress (deviceOf s.node.regs) (items.map Prod.snd)).2
      ((items.map Prod.fst).foldl hears s) := by
  induction items generalizing s with
  | nil => exact ⟨waiting, rfl, rfl, (List.append_nil _).symm⟩
  | cons item items ih =>
    obtain ⟨run, heard⟩ := item
    have later : ∀ item ∈ items, Traffic s.ucMBAddress item.1 item.2 :=
      fun item member => traffic item (List.mem_cons_of_mem _ member)
    cases traffic (run, heard) List.mem_cons_self with
    | other _ ignored =>
      obtain ⟨still, -⟩ := hears_ignored waiting ignored
      have rest := ih still.waiting (by rw [still.ucMBAddress]; exact later)
      rw [still.ucMBAddress, still.node] at rest
      exact ⟨rest.waiting, rest.ucMBAddress.trans still.ucMBAddress, rest.device,
        rest.line.trans (by rw [still.line]; rfl)⟩
    | request address r taken ours =>
      have first := hears_request waiting taken ours
      have rest := ih first.waiting (by rw [first.ucMBAddress]; exact later)
      rw [first.ucMBAddress, first.device] at rest
      exact ⟨rest.waiting, rest.ucMBAddress.trans first.ucMBAddress, rest.device,
        rest.line.trans (by rw [first.line, List.append_assoc]; rfl)⟩

/-- The slave after `eMBInit`, `eMBEnable` and the first silence. -/
def started (s : Slave) (ucSlaveAddress : INT8U) : Slave :=
  let s := (eMBEnable (eMBInit s ucSlaveAddress).2).2
  let expired := xMBRTUTimerT35Expired s.rtu
  pollAll 3 { s with rtu := expired.1 } expired.2

theorem started_waiting {s : Slave} (table : s.table = xFuncHandlers)
    (transmitter : s.rtu.eSndState = .txIdle) {ucSlaveAddress : INT8U}
    (one : ucSlaveAddress ≠ mbAddressBroadcast) (inside : ucSlaveAddress ≤ mbAddressMax) :
    Waiting (started s ucSlaveAddress) ∧ (started s ucSlaveAddress).ucMBAddress = ucSlaveAddress ∧
      (started s ucSlaveAddress).node = s.node ∧ (started s ucSlaveAddress).rtu.line = s.rtu.line ∧
      (started s ucSlaveAddress).rtu.ucRTUBuf = s.rtu.ucRTUBuf := by
  have accepted : ¬ (ucSlaveAddress = mbAddressBroadcast ∨ mbAddressMax < ucSlaveAddress) :=
    fun either => either.elim one (BitVec.not_lt.mpr inside)
  have init : (eMBInit s ucSlaveAddress).2 =
      { s with ucMBAddress := ucSlaveAddress, eMBState := .disabled } := by
    rw [eMBInit, if_neg accepted]
  unfold started
  rw [init]
  exact ⟨⟨rfl, table, rfl, transmitter, rfl⟩, rfl, rfl, rfl, rfl⟩

/-- From its start the slave is the device: whatever runs arrive, frames for it, for all, for
others or none, its registers are those of the device after the requests for it, and it
sends the device's replies to them in their order and nothing else. -/
theorem slave_serves (s : Slave) (ucSlaveAddress : INT8U) (table : s.table = xFuncHandlers)
    (transmitter : s.rtu.eSndState = .txIdle) (one : ucSlaveAddress ≠ mbAddressBroadcast)
    (inside : ucSlaveAddress ≤ mbAddressMax) (items : List (List INT8U × Option (INT8U × Request)))
    (traffic : ∀ item ∈ items, Traffic ucSlaveAddress item.1 item.2) :
    let after := (items.map Prod.fst).foldl hears (started s ucSlaveAddress)
    let device := answersTo ucSlaveAddress (deviceOf s.node.regs) (items.map Prod.snd)
    deviceOf after.node.regs = device.1 ∧ after.rtu.line = s.rtu.line ++ device.2 := by
  obtain ⟨waiting, own, node, line, -⟩ := started_waiting table transmitter one inside
  have session := hears_session waiting items (by rw [own]; exact traffic)
  rw [own, node] at session
  exact ⟨session.device, session.line.trans (by rw [line])⟩

/-- The static variables before `eMBInit`, with all registers clear. -/
def powerOn : Slave where
  eMBState := .notInitialized
  ucMBAddress := 0
  table := xFuncHandlers
  rtu := .reset
  node := ⟨⟨fun _ => 0, fun _ => 0, fun _ => 0, fun _ => 0⟩, fun _ => 0, 0⟩
  ucMBFrame := 0
  ucRcvAddress := 0
  usLength := 0

/-- A register is written at all stations and read at this one, with a stray byte between. -/
theorem slave_serves_written :
    let items := [(lineFrame 0 (Request.writeHolding 3 0xBEEF).pdu, some (0, .writeHolding 3 0xBEEF)),
      ([0x55], none), (lineFrame 7 (Request.readHoldings 3 1).pdu, some (7, .readHoldings 3 1))]
    let after := (items.map Prod.fst).foldl hears (started powerOn 7)
    let device := answersTo 7 (deviceOf powerOn.node.regs) (items.map Prod.snd)
    deviceOf after.node.regs = device.1 ∧ after.rtu.line = powerOn.rtu.line ++ device.2 := by
  refine slave_serves powerOn 7 rfl rfl (by decide) (by decide) _ fun item member => ?_
  rcases List.mem_cons.mp member with rfl | member
  · exact .request 0 (.writeHolding 3 0xBEEF) ⟨by decide, nofun⟩ (Or.inr rfl)
  · rcases List.mem_cons.mp member with rfl | member
    · refine .other [0x55] fun address pdu decoded => ?_
      rw [decodeFrame, if_neg (by decide)] at decoded
      cases decoded
    · obtain rfl := List.mem_singleton.mp member
      refine .request 7 (.readHoldings 3 1) ⟨by decide, fun address count same => ?_⟩ (Or.inl rfl)
      cases same
      decide

end GasSub.Guarantees.SlaveSession
