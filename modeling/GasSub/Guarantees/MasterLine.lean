import GasSub.Guarantees.LineFraming
import GasSub.Guarantees.SlaveRequests
import GasSub.Source.MbMaster

/-!
# The Modbus master at its line

A frame of the master goes from the send buffer to the line byte by byte, and what it takes
in from the line until the timer expires is handed over as it came. What the timer posts
tells an answer, a request to all and a slave that stays silent apart.
-/
namespace GasSub.Guarantees.MasterLine
open GasSub.Source
open GasSub.Library.ByteMemory GasSub.Library.Cells GasSub.Library.FrameReceiver
open GasSub.Guarantees.LineFraming GasSub.Guarantees.SlaveRequests

/-! ### Buffers as memory -/

section
variable {n : Nat} (v : Vector INT8U n)

theorem memoryOf_of_lt {i : Nat} (inside : i < n) : memoryOf v i = v[i] := by
  have bound : i < v.toList.length := by rw [Vector.length_toList]; exact inside
  rw [memoryOf, List.getD_eq_getElem?_getD, List.getElem?_eq_getElem bound]
  exact Vector.getElem_toList ..

theorem memoryOf_bufferOf (m : Memory) {i : Nat} (inside : i < n) : memoryOf (bufferOf n m) i = m i := by
  rw [memoryOf_of_lt _ inside, bufferOf, Vector.getElem_ofFn]

theorem bufferOf_memoryOf : bufferOf n (memoryOf v) = v := by
  apply Vector.ext
  intro i inside
  rw [bufferOf, Vector.getElem_ofFn]
  exact memoryOf_of_lt v inside

theorem memoryOf_set {i : Nat} (inside : i < n) (x : INT8U) :
    memoryOf (v.set i x inside) = replace (memoryOf v) i [x] := by
  refine replace_eq_of _ _ _ (fun j bound => ?_) fun j outside => ?_
  · obtain rfl := Nat.lt_one_iff.mp bound
    rw [Nat.add_zero, memoryOf_of_lt _ inside, Vector.getElem_set_self]
    rfl
  · rw [List.length_singleton] at outside
    by_cases small : j < n
    · rw [memoryOf_of_lt _ small, memoryOf_of_lt _ small, Vector.getElem_set_ne _ _ (by omega)]
    · rw [memoryOf, memoryOf, List.getD_eq_getElem?_getD, List.getD_eq_getElem?_getD,
        List.getElem?_eq_none (by rw [Vector.length_toList]; omega),
        List.getElem?_eq_none (by rw [Vector.length_toList]; omega)]

theorem take_eq_slice {k : Nat} (inside : k ≤ n) : v.toList.take k = slice (memoryOf v) 0 k := by
  apply List.ext_getElem
  · rw [List.length_take, Vector.length_toList, length_slice]
    exact Nat.min_eq_left inside
  · intro i _ bound
    rw [length_slice] at bound
    simp only [slice, List.getElem_map, List.getElem_range, Nat.zero_add]
    rw [memoryOf_of_lt v (by omega), List.getElem_take]
    exact Vector.getElem_toList ..

end

/-! ### Sending -/

/-- A frame that the master is sending. -/
structure Sending (m : RtuMaster) (frame : List INT8U) : Prop where
  transmitter : m.eSndState = .txXmit
  count : m.usMasterSndBufferCount.toNat = frame.length
  placed : Placed (memoryOf m.ucMasterRTUSndBuf) m.pucMasterSndBufferCur frame
  inside : m.pucMasterSndBufferCur + frame.length ≤ 253

/-- What is sent is the line frame of the PDU in the send buffer. -/
theorem eMBMasterRTUSend_frame {m : RtuMaster} (idle : m.eRcvState = .rxIdle) {ucSlaveAddress : INT8U}
    (near : ucSlaveAddress.toNat ≤ mbMasterTotalSlaveNum) {pdu : List INT8U} (short : pdu.length ≤ 250)
    (content : Placed (memoryOf m.ucMasterRTUSndBuf) 1 pdu) :
    ∃ sent, eMBMasterRTUSend m ucSlaveAddress (BitVec.ofNat 16 pdu.length) = some (.enoerr, sent) ∧
      Sending sent (lineFrame ucSlaveAddress pdu) ∧ sent.pucMasterSndBufferCur = 0 ∧
      sent.eRcvState = .rxIdle ∧ sent.line = m.line ∧ sent.timers = m.timers ∧
      sent.errorType = m.errorType := by
  have one : (1 : INT16U).toNat = 1 := rfl
  have two : (2 : INT16U).toNat = 2 := rfl
  have length : (BitVec.ofNat 16 pdu.length).toNat = pdu.length := toNat_count (by omega)
  have count : (1 + BitVec.ofNat 16 pdu.length).toNat = pdu.length + 1 := by
    rw [BitVec.toNat_add, one, length]
    omega
  have total : (1 + BitVec.ofNat 16 pdu.length + 2).toNat = pdu.length + 3 := by
    rw [BitVec.toNat_add, count, two]
    omega
  have fits : (1 + BitVec.ofNat 16 pdu.length).toNat + 1 < 253 := by
    rw [count]
    omega
  have front : Placed (memoryOf (m.ucMasterRTUSndBuf.set 0 ucSlaveAddress)) 0 (ucSlaveAddress :: pdu) := by
    rw [memoryOf_set, placed_cons]
    refine ⟨replace_inside _ 0 [ucSlaveAddress] Nat.one_pos, (placed_congr fun i _ => ?_).mpr content⟩
    exact replace_outside _ _ _ (Or.inr (by simp only [List.length_singleton]; omega))
  have run : (m.ucMasterRTUSndBuf.set 0 ucSlaveAddress).toList.take (1 + BitVec.ofNat 16 pdu.length).toNat =
      ucSlaveAddress :: pdu := by
    rw [take_eq_slice _ (by omega), count]
    exact front
  unfold eMBMasterRTUSend
  rw [if_neg (Nat.not_lt.mpr near), if_pos idle, rtuFrame, dif_pos fits]
  refine ⟨_, rfl, ⟨rfl, ?_, ?_, ?_⟩, rfl, idle, rfl, rfl, rfl⟩
  · dsimp only
    rw [total, length_lineFrame]
  · dsimp only
    rw [memoryOf_set, memoryOf_set, run, lineFrame, ← List.cons_append, placed_append,
      List.length_cons, Nat.zero_add, count]
    refine ⟨(placed_congr fun i bound => ?_).mpr front, ?_⟩
    · rw [List.length_cons] at bound
      rw [replace_outside _ _ _ (Or.inl (by omega)), replace_outside _ _ _ (Or.inl (by omega))]
    · have both := replace_append (memoryOf (m.ucMasterRTUSndBuf.set 0 ucSlaveAddress)) (pdu.length + 1)
        [(usMBCRC16 (ucSlaveAddress :: pdu)).2] [(usMBCRC16 (ucSlaveAddress :: pdu)).1]
      rw [List.length_singleton] at both
      rw [← both]
      exact placed_replace _ _ _
  · dsimp only
    rw [length_lineFrame]
    omega

/-- As many transmit interrupts. -/
def transmitAll : Nat → RtuMaster → Option RtuMaster
  | 0, m => some m
  | n + 1, m => (xMBMasterRTUTransmitFSM m).bind (transmitAll n)

/-- The master when its frame is on the line. -/
structure Sent (before : RtuMaster) (frame : List INT8U) (after : RtuMaster) : Prop where
  line : after.line = before.line ++ frame
  transmitter : after.eSndState = .txXfwr
  receiver : after.eRcvState = before.eRcvState
  buffer : after.ucMasterRTUSndBuf = before.ucMasterRTUSndBuf
  broadcast : after.xFrameIsBroadcast = decide (memoryOf before.ucMasterRTUSndBuf 0 = mbAddressBroadcast)
  mode : after.timers.eMasterCurTimerMode =
    if after.xFrameIsBroadcast then .convertDelay else .respondTimeout
  errorType : after.errorType = before.errorType

theorem transmitAll_frame {m : RtuMaster} {frame : List INT8U} (sending : Sending m frame) :
    ∃ after, transmitAll (frame.length + 1) m = some after ∧ Sent m frame after := by
  induction frame generalizing m with
  | nil =>
    have none : m.usMasterSndBufferCount = 0 := BitVec.eq_of_toNat_eq sending.count
    have step : xMBMasterRTUTransmitFSM m = some (rtuFrameSent m) := by
      unfold xMBMasterRTUTransmitFSM
      rw [sending.transmitter]
      exact if_pos none
    have bound : 0 < m.ucMasterRTUSndBuf.toList.length := by rw [Vector.length_toList]; decide
    refine ⟨rtuFrameSent m, by rw [List.length_nil, transmitAll, step]; rfl,
      ⟨(List.append_nil _).symm, rfl, rfl, rfl, ?_, ?_, rfl⟩⟩
    · have head : m.ucMasterRTUSndBuf.toList.head? = some (memoryOf m.ucMasterRTUSndBuf 0) := by
        rw [memoryOf, List.getD_eq_getElem?_getD, List.head?_eq_getElem?, List.getElem?_eq_getElem bound]
        rfl
      simp only [rtuFrameSent, RtuMaster.onTimers, head, Option.some.injEq]
    · simp only [rtuFrameSent, RtuMaster.onTimers]
      split
      · case isTrue all => exact (if_pos all).symm
      · case isFalse one => exact (if_neg one).symm
  | cons byte frame ih =>
    have more : m.usMasterSndBufferCount.toNat = frame.length + 1 := sending.count
    have one : (1 : INT16U).toNat = 1 := rfl
    have positive : m.usMasterSndBufferCount ≠ 0 := by
      intro none
      rw [none] at more
      exact absurd more.symm (Nat.succ_ne_zero frame.length)
    have room := sending.inside
    rw [List.length_cons] at room
    have here : m.pucMasterSndBufferCur < 253 := by omega
    obtain ⟨first, rest⟩ := placed_cons.mp sending.placed
    rw [memoryOf_of_lt _ here] at first
    have step : xMBMasterRTUTransmitFSM m = some { m with
        line := m.line ++ [byte]
        pucMasterSndBufferCur := m.pucMasterSndBufferCur + 1
        usMasterSndBufferCount := m.usMasterSndBufferCount - 1 } := by
      unfold xMBMasterRTUTransmitFSM
      rw [sending.transmitter]
      dsimp only
      rw [if_neg positive, dif_pos here, first]
    have less : (m.usMasterSndBufferCount - 1).toNat = frame.length := by
      rw [BitVec.toNat_sub_of_le (BitVec.le_def.mpr (by rw [more, one]; omega)), more, one,
        Nat.add_sub_cancel]
    obtain ⟨after, run, sent⟩ := ih (m := { m with
        line := m.line ++ [byte]
        pucMasterSndBufferCur := m.pucMasterSndBufferCur + 1
        usMasterSndBufferCount := m.usMasterSndBufferCount - 1 })
      ⟨sending.transmitter, less, rest, by dsimp only; omega⟩
    refine ⟨after, ?_, ?_, sent.transmitter, sent.receiver, sent.buffer, sent.broadcast, sent.mode,
      sent.errorType⟩
    · rw [List.length_cons, transmitAll, step]
      exact run
    · rw [sent.line, List.append_assoc]
      rfl

/-! ### The answer -/

/-- What the receiver leaves alone. -/
structure RestKept (before after : RtuMaster) : Prop where
  buffer : after.ucMasterRTUSndBuf = before.ucMasterRTUSndBuf
  broadcast : after.xFrameIsBroadcast = before.xFrameIsBroadcast
  mode : after.timers.eMasterCurTimerMode = before.timers.eMasterCurTimerMode
  errorType : after.errorType = before.errorType
  line : after.line = before.line

theorem restKept_take (m : RtuMaster) (byte : INT8U) : RestKept m (xMBMasterRTUReceiveFSM m byte) := by
  unfold xMBMasterRTUReceiveFSM
  cases m.eRcvState with
  | rxRcv =>
    dsimp only
    split <;> exact ⟨rfl, rfl, rfl, rfl, rfl⟩
  | _ => exact ⟨rfl, rfl, rfl, rfl, rfl⟩

theorem restKept_takes (m : RtuMaster) (run : List INT8U) :
    RestKept m (run.foldl xMBMasterRTUReceiveFSM m) := by
  induction run generalizing m with
  | nil => exact ⟨rfl, rfl, rfl, rfl, rfl⟩
  | cons byte run ih =>
    have first := restKept_take m byte
    have rest := ih (xMBMasterRTUReceiveFSM m byte)
    exact ⟨rest.buffer.trans first.buffer, rest.broadcast.trans first.broadcast,
      rest.mode.trans first.mode, rest.errorType.trans first.errorType, rest.line.trans first.line⟩

/-- The first byte of an answer ends the wait for it. -/
theorem transmitter_takes {m : RtuMaster} (idle : m.eRcvState = .rxIdle) {run : List INT8U} (some : run ≠ []) :
    (run.foldl xMBMasterRTUReceiveFSM m).eSndState = .txIdle := by
  have kept : ∀ (run : List INT8U) (m : RtuMaster), m.eRcvState ≠ .rxIdle ∧ m.eSndState = .txIdle →
      (run.foldl xMBMasterRTUReceiveFSM m).eSndState = .txIdle := by
    intro run
    induction run with
    | nil => exact fun m both => both.2
    | cons byte run ih =>
      rintro m ⟨busy, idle⟩
      refine ih _ ?_
      unfold xMBMasterRTUReceiveFSM
      cases state : m.eRcvState with
      | rxIdle => exact absurd state busy
      | rxInit => exact ⟨busy, idle⟩
      | rxError => exact ⟨busy, idle⟩
      | rxRcv =>
        dsimp only
        split <;> exact ⟨nofun, idle⟩
  cases run with
  | nil => exact absurd rfl some
  | cons byte run =>
    refine kept run (xMBMasterRTUReceiveFSM m byte) ?_
    unfold xMBMasterRTUReceiveFSM
    rw [idle]
    exact ⟨nofun, rfl⟩

theorem masterView_run {m : RtuMaster} (idle : m.eRcvState = .rxIdle) {run : List INT8U}
    (fits : Fits mbSerPduSizeMax run) :
    masterView (run.foldl xMBMasterRTUReceiveFSM m) = .receiving run := by
  have start : masterView m = .idle := by rw [masterView, idle]
  have view : masterView (run.foldl xMBMasterRTUReceiveFSM m) =
      run.foldl (Receiver.take mbSerPduSizeMax) (masterView m) := masterLine_simulates.view_takes m run
  rw [view, start]
  cases run with
  | nil => exact absurd rfl fits.1
  | cons x run => rw [takes_idle (by decide), if_pos fits.2]

theorem masterInside_takes {m : RtuMaster} (inside : MasterInside m) (run : List INT8U) :
    MasterInside (run.foldl xMBMasterRTUReceiveFSM m) := by
  induction run generalizing m with
  | nil => exact inside
  | cons byte run ih => exact ih (masterInside_take m byte inside)

/-- What an answer leaves when the timer expires behind it. -/
structure Answered (before : RtuMaster) (run : List INT8U) (after : RtuMaster) : Prop where
  rest : RestKept before after
  receiver : after.eRcvState = .rxIdle
  transmitter : after.eSndState = .txIdle
  frame : frameOf (memoryOf after.ucMasterRTURcvBuf) (eMBMasterRTUReceive after) = decodeFrame run

/-- An answer posts one event, unless the timer still runs for a request to all. -/
theorem answer_expires {m : RtuMaster} (idle : m.eRcvState = .rxIdle)
    (mode : m.timers.eMasterCurTimerMode ≠ .convertDelay) {run : List INT8U}
    (fits : Fits mbSerPduSizeMax run) :
    (xMBMasterRTUTimerExpired (run.foldl xMBMasterRTUReceiveFSM m)).2 = [.frameReceived] ∧
      Answered m run (xMBMasterRTUTimerExpired (run.foldl xMBMasterRTUReceiveFSM m)).1 := by
  have view := masterView_run idle fits
  have kept := restKept_takes m run
  have silent := transmitter_takes idle fits.1
  have inside : MasterInside (run.foldl xMBMasterRTUReceiveFSM m) :=
    masterInside_takes (fun receiving => by rw [idle] at receiving; cases receiving) run
  generalize run.foldl xMBMasterRTUReceiveFSM m = after at view kept silent inside ⊢
  obtain ⟨receiving, content⟩ : after.eRcvState = .rxRcv ∧ masterReceived after = run := by
    unfold masterView at view
    split at view
    · cases view
    · cases view
    · case h_3 state => exact ⟨state, Receiver.receiving.inj view⟩
    · cases view
  have answered : ¬ (after.eSndState = .txXfwr ∧ after.xFrameIsBroadcast = false) := by
    rintro ⟨waits, -⟩
    rw [silent] at waits
    cases waits
  have bound := inside receiving
  unfold xMBMasterRTUTimerExpired
  dsimp only
  rw [receiving, if_neg answered, if_neg (by rw [kept.mode]; exact mode), if_neg answered]
  refine ⟨rfl, ⟨kept.buffer, kept.broadcast, kept.mode, kept.errorType, kept.line⟩, rfl, rfl, ?_⟩
  have run : decodeFrame run = decodeFrame ((List.range after.usMasterRcvBufferPos).map (rcvBytes after)) := by
    rw [← content, masterReceived_eq bound]
  rw [run]
  refine (congrArg (frameOf _) (eMBMasterRTUReceive_eq ?_)).trans (frameOf_handedOver (rcvBytes after) bound)
  exact bound

/-- A frame to one slave that nobody answers ends with a timeout. -/
theorem silence_expires {m : RtuMaster} (idle : m.eRcvState = .rxIdle) (waits : m.eSndState = .txXfwr)
    (one : m.xFrameIsBroadcast = false) (mode : m.timers.eMasterCurTimerMode ≠ .convertDelay) :
    xMBMasterRTUTimerExpired m =
      ({ m with eRcvState := .rxIdle, errorType := .respondTimeout, eSndState := .txIdle }.onTimers
        vMBMasterPortTimersDisable, [.errorProcess]) := by
  unfold xMBMasterRTUTimerExpired
  dsimp only
  rw [idle, if_pos ⟨waits, one⟩, if_neg mode, if_pos ⟨waits, one⟩]
  rfl

/-- A frame to all is executed after the delay. -/
theorem broadcast_expires {m : RtuMaster} (idle : m.eRcvState = .rxIdle) (all : m.xFrameIsBroadcast = true)
    (mode : m.timers.eMasterCurTimerMode = .convertDelay) :
    xMBMasterRTUTimerExpired m =
      ({ m with eRcvState := .rxIdle, eSndState := .txIdle }.onTimers vMBMasterPortTimersDisable,
        [.execute]) := by
  have answered : ¬ (m.eSndState = .txXfwr ∧ m.xFrameIsBroadcast = false) := by
    rintro ⟨-, one⟩
    rw [all] at one
    cases one
  unfold xMBMasterRTUTimerExpired
  dsimp only
  rw [idle, if_neg answered, if_pos mode, if_neg answered]
  rfl

end GasSub.Guarantees.MasterLine
