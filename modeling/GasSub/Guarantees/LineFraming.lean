import GasSub.Guarantees.FrameChecksum
import GasSub.Guarantees.TimerMode
import GasSub.Library.FrameReceiver
import GasSub.Source.MbRtuSlave

/-!
# What the receivers of the Modbus line hand over

Bytes and expiries of the silence timer in any order, at the master and at the slave. A
frame is handed over when the timer expires and its receive function accepts what is in
the buffer: the event is polled before the next byte arrives. From the start on these are
exactly the runs of bytes between two expiries that are an address, a PDU of 1 to 253
bytes and the checksum of both, the low byte first; a run that came out damaged in a way
the checksum notices changes nothing.
-/
namespace GasSub.Guarantees.LineFraming
open GasSub.Source
open GasSub.Library.FrameReceiver GasSub.Library.ByteMemory GasSub.Library.CyclicCode
open GasSub.Guarantees.FrameChecksum

/-! ### Frames of the line -/

/-- The address, the PDU and the checksum. -/
def lineFrame (address : INT8U) (pdu : List INT8U) : List INT8U :=
  address :: (pdu ++ [(usMBCRC16 (address :: pdu)).2, (usMBCRC16 (address :: pdu)).1])

/-- The address and the PDU of a run that is a frame. -/
def decodeFrame (run : List INT8U) : Option (INT8U × List INT8U) :=
  if mbSerPduSizeMin ≤ run.length ∧ run.length ≤ mbSerPduSizeMax ∧ usMBCRC16 run = (0, 0) then
    some (run.headD 0, (run.drop 1).take (run.length - 3))
  else none

theorem usMBCRC16_lineFrame (address : INT8U) (pdu : List INT8U) :
    usMBCRC16 (lineFrame address pdu) = (0, 0) := by
  have appended : usMBCRC16 (address :: pdu) =
      ((usMBCRC16 (address :: pdu)).1, (usMBCRC16 (address :: pdu)).2) := Prod.mk.eta.symm
  exact (usMBCRC16_eq_zero_iff (address :: pdu) _ _).mpr appended

theorem length_lineFrame (address : INT8U) (pdu : List INT8U) :
    (lineFrame address pdu).length = pdu.length + 3 := by
  rw [lineFrame, List.length_cons, List.length_append]
  rfl

/-- Four bytes or more are an address, a PDU and two bytes. -/
theorem exists_split {run : List INT8U} (long : 4 ≤ run.length) :
    ∃ address pdu lo hi, run = address :: (pdu ++ [lo, hi]) ∧ pdu ≠ [] := by
  cases run with
  | nil => cases long
  | cons address rest =>
    obtain ⟨pdu, tail, split, two⟩ : ∃ pdu tail, rest = pdu ++ tail ∧ tail.length = 2 :=
      ⟨rest.take (rest.length - 2), rest.drop (rest.length - 2), (List.take_append_drop _ _).symm, by
        rw [List.length_drop, List.length_cons] at *
        omega⟩
    obtain ⟨lo, hi, rfl⟩ := List.length_eq_two.mp two
    refine ⟨address, pdu, lo, hi, by rw [split], ?_⟩
    rintro rfl
    rw [split] at long
    simp at long

/-- The runs that are decoded are the frames of the line, and each as what it was made of. -/
theorem decodeFrame_eq_some_iff (run : List INT8U) (address : INT8U) (pdu : List INT8U) :
    decodeFrame run = some (address, pdu) ↔
      run = lineFrame address pdu ∧ 1 ≤ pdu.length ∧ pdu.length ≤ 253 := by
  unfold decodeFrame
  constructor
  · intro decoded
    split at decoded
    · case isTrue accepted =>
      obtain ⟨long, short, zero⟩ := accepted
      obtain ⟨first, body, lo, hi, rfl, one⟩ := exists_split long
      have checksum := (usMBCRC16_eq_zero_iff (first :: body) lo hi).mp zero
      have middle : ((first :: (body ++ [lo, hi])).drop 1).take
          ((first :: (body ++ [lo, hi])).length - 3) = body := by
        rw [List.drop_one, List.tail_cons, List.length_cons, List.length_append]
        exact List.take_left
      rw [middle] at decoded
      obtain ⟨rfl, rfl⟩ := Prod.mk.inj (Option.some.inj decoded)
      refine ⟨by rw [lineFrame, List.headD_cons, checksum], List.length_pos_iff.mpr one, ?_⟩
      rw [List.length_cons, List.length_append, mbSerPduSizeMax] at short
      simp only [List.length_cons, List.length_nil] at short
      omega
    · cases decoded
  · rintro ⟨rfl, one, short⟩
    have length := length_lineFrame address pdu
    rw [if_pos ⟨by rw [length, mbSerPduSizeMin]; omega, by rw [length, mbSerPduSizeMax]; omega,
      usMBCRC16_lineFrame address pdu⟩, length, Nat.add_sub_cancel]
    exact congrArg (fun middle => some (address, middle)) List.take_left

theorem fits_of_decodeFrame (run : List INT8U) (x : INT8U × List INT8U)
    (decoded : decodeFrame run = some x) : Fits 256 run := by
  obtain ⟨rfl, -, short⟩ := (decodeFrame_eq_some_iff run x.1 x.2).mp decoded
  refine ⟨List.cons_ne_nil _ _, ?_⟩
  rw [length_lineFrame]
  omega

/-- The PDU a receive function points at. -/
def RcvFrame.pdu (f : RcvFrame) (buf : Nat → INT8U) : List INT8U :=
  (List.range f.usLength.toNat).map fun i => buf (f.pucFrame + i)

/-- What a receive function hands over of the first `pos` bytes of a buffer. -/
def handedOver (buf : Nat → INT8U) (pos : Nat) : Except EMBErrorCode RcvFrame :=
  if mbSerPduSizeMin ≤ pos ∧ usMBCRC16 ((List.range pos).map buf) = (0, 0) then
    .ok ⟨buf mbSerPduAddrOff, mbSerPduPduOff,
      BitVec.ofNat 16 (pos - mbSerPduPduOff - mbSerPduSizeCrc)⟩
  else .error .eio

/-- Address and PDU of what is handed over. -/
def frameOf (buf : Nat → INT8U) : Except EMBErrorCode RcvFrame → Option (INT8U × List INT8U)
  | .ok f => some (f.ucRcvAddress, RcvFrame.pdu f buf)
  | .error _ => none

/-- The middle of a buffer, as `decodeFrame` takes it out of the run. -/
theorem pdu_range (buf : Nat → INT8U) (pos : Nat) :
    (((List.range pos).map buf).drop 1).take (pos - 3) =
      (List.range (pos - 3)).map fun i => buf (1 + i) := by
  apply List.ext_getElem
  · simp only [List.length_take, List.length_drop, List.length_map, List.length_range]
    omega
  · intro i _ _
    simp [Nat.add_comm]

theorem frameOf_handedOver (buf : Nat → INT8U) {pos : Nat} (inside : pos ≤ mbSerPduSizeMax) :
    frameOf buf (handedOver buf pos) = decodeFrame ((List.range pos).map buf) := by
  have length : ((List.range pos).map buf).length = pos := by
    rw [List.length_map, List.length_range]
  unfold handedOver decodeFrame
  rw [length]
  by_cases accepted : mbSerPduSizeMin ≤ pos ∧ usMBCRC16 ((List.range pos).map buf) = (0, 0)
  · have wide : (BitVec.ofNat 16 (pos - 1 - 2)).toNat = pos - 3 := by
      rw [BitVec.toNat_ofNat]
      unfold mbSerPduSizeMax at inside
      omega
    have first : ((List.range pos).map buf).headD 0 = buf 0 := by
      obtain ⟨n, more⟩ := Nat.exists_eq_add_of_le accepted.1
      rw [more, mbSerPduSizeMin, Nat.add_comm, List.range_succ_eq_map]
      rfl
    rw [if_pos accepted, if_pos ⟨accepted.1, inside, accepted.2⟩, first, pdu_range]
    simp only [frameOf, RcvFrame.pdu, mbSerPduPduOff, mbSerPduSizeCrc, wide, mbSerPduAddrOff]
  · rw [if_neg accepted, if_neg fun all => accepted ⟨all.1, all.2.2⟩]
    rfl

/-! ### The receiver of the slave -/

/-- The slave at the line. What it reports at an expiry is the frame that `eMBRTUReceive`
hands over when it is called for the event posted, before the next byte arrives. -/
def slaveLine : Machine INT8U (INT8U × List INT8U) RtuSlave where
  take := xMBRTUReceiveFSM
  silence s := (xMBRTUTimerT35Expired s).1
  report s :=
    if EMBEventType.frameReceived ∈ (xMBRTUTimerT35Expired s).2 then
      frameOf s.ucRTUBuf (eMBRTUReceive (xMBRTUTimerT35Expired s).1)
    else none

def slaveView (s : RtuSlave) : Receiver INT8U :=
  match s.eRcvState with
  | .rxInit => .starting
  | .rxIdle => .idle
  | .rxRcv => .receiving s.received
  | .rxError => .overrun

/-- While a frame arrives, it is inside the buffer. -/
def SlaveInside (s : RtuSlave) : Prop := s.eRcvState = .rxRcv → s.usRcvBufferPos ≤ mbSerPduSizeMax

theorem length_received (s : RtuSlave) : s.received.length = s.usRcvBufferPos := by
  rw [RtuSlave.received, List.length_map, List.length_range]

/-- The byte stored last comes last. -/
theorem map_store_range (buf : Memory) (pos : Nat) (byte : INT8U) :
    (List.range (pos + 1)).map (store buf pos [byte]) = (List.range pos).map buf ++ [byte] := by
  have earlier : (List.range pos).map (store buf pos [byte]) = (List.range pos).map buf :=
    List.map_congr_left fun i member =>
      store_outside buf pos i [byte] (Or.inl (List.mem_range.mp member))
  have last := store_inside buf pos 0 [byte] Nat.one_pos
  rw [List.range_succ, List.map_append, earlier, List.map_singleton]
  exact congrArg (fun x => _ ++ [x]) last

theorem slaveView_take (s : RtuSlave) (byte : INT8U) :
    slaveView (xMBRTUReceiveFSM s byte) = (slaveView s).take mbSerPduSizeMax byte := by
  cases state : s.eRcvState with
  | rxInit => simp only [slaveView, xMBRTUReceiveFSM, state, vMBPortTimersEnable, Receiver.take]
  | rxError => simp only [slaveView, xMBRTUReceiveFSM, state, vMBPortTimersEnable, Receiver.take]
  | rxIdle =>
    simp only [slaveView, xMBRTUReceiveFSM, state, vMBPortTimersEnable, Receiver.take]
    exact congrArg Receiver.receiving (map_store_range s.ucRTUBuf 0 byte)
  | rxRcv =>
    simp only [slaveView, xMBRTUReceiveFSM, state, Receiver.take, length_received]
    by_cases room : s.usRcvBufferPos < mbSerPduSizeMax
    · rw [if_pos room, if_pos room]
      exact congrArg Receiver.receiving (map_store_range s.ucRTUBuf s.usRcvBufferPos byte)
    · rw [if_neg room, if_neg room]
      rfl

theorem slaveInside_take (s : RtuSlave) (byte : INT8U) (_ : SlaveInside s) :
    SlaveInside (xMBRTUReceiveFSM s byte) := by
  cases state : s.eRcvState with
  | rxInit => simp only [SlaveInside, xMBRTUReceiveFSM, state, vMBPortTimersEnable, reduceCtorEq,
      false_imp_iff]
  | rxError => simp only [SlaveInside, xMBRTUReceiveFSM, state, vMBPortTimersEnable, reduceCtorEq,
      false_imp_iff]
  | rxIdle =>
    simp only [SlaveInside, xMBRTUReceiveFSM, state, vMBPortTimersEnable]
    exact fun _ => Nat.one_le_two_pow (n := 8)
  | rxRcv =>
    simp only [SlaveInside, xMBRTUReceiveFSM, state]
    by_cases room : s.usRcvBufferPos < mbSerPduSizeMax
    · rw [if_pos room]
      exact fun _ => room
    · rw [if_neg room]
      intro receiving
      cases (receiving : EMBRcvState.rxError = .rxRcv)

theorem slaveView_frame (s : RtuSlave) :
    (slaveView s).frame = if s.eRcvState = .rxRcv then some s.received else none := by
  unfold slaveView
  cases s.eRcvState <;> rfl

theorem slave_posted_iff (s : RtuSlave) :
    EMBEventType.frameReceived ∈ (xMBRTUTimerT35Expired s).2 ↔ s.eRcvState = .rxRcv := by
  unfold xMBRTUTimerT35Expired
  cases s.eRcvState <;> simp

theorem slaveLine_report (s : RtuSlave) (inside : SlaveInside s) :
    slaveLine.report s = (slaveView s).frame.bind decodeFrame := by
  rw [slaveView_frame, slaveLine]
  by_cases receiving : s.eRcvState = .rxRcv
  · simp only [slave_posted_iff, receiving, if_true, Option.bind_some]
    exact frameOf_handedOver s.ucRTUBuf (inside receiving)
  · simp only [slave_posted_iff, receiving, if_false, Option.bind_none]

theorem slaveLine_simulates :
    slaveLine.Simulates mbSerPduSizeMax decodeFrame SlaveInside slaveView where
  kept := slaveInside_take
  restored _ := fun receiving => nomatch receiving
  take := slaveView_take
  silence _ := rfl
  report := slaveLine_report

/-! ### The receiver of the master -/

/-- The bytes of the receive buffer. -/
def rcvBytes (m : RtuMaster) (i : Nat) : INT8U := m.ucMasterRTURcvBuf.toList.getD i 0

def masterReceived (m : RtuMaster) : List INT8U := m.ucMasterRTURcvBuf.toList.take m.usMasterRcvBufferPos

/-- The master at the line, as the slave. -/
def masterLine : Machine INT8U (INT8U × List INT8U) RtuMaster where
  take := xMBMasterRTUReceiveFSM
  silence m := (xMBMasterRTUTimerExpired m).1
  report m :=
    if EMBMasterEventType.frameReceived ∈ (xMBMasterRTUTimerExpired m).2 then
      frameOf (rcvBytes m) (eMBMasterRTUReceive (xMBMasterRTUTimerExpired m).1)
    else none

def masterView (m : RtuMaster) : Receiver INT8U :=
  match m.eRcvState with
  | .rxInit => .starting
  | .rxIdle => .idle
  | .rxRcv => .receiving (masterReceived m)
  | .rxError => .overrun

def MasterInside (m : RtuMaster) : Prop :=
  m.eRcvState = .rxRcv → m.usMasterRcvBufferPos ≤ mbSerPduSizeMax

theorem length_masterReceived {m : RtuMaster} (inside : m.usMasterRcvBufferPos ≤ mbSerPduSizeMax) :
    (masterReceived m).length = m.usMasterRcvBufferPos := by
  rw [masterReceived, List.length_take, Vector.length_toList]
  exact Nat.min_eq_left inside

theorem take_set (buf : Vector INT8U 256) {pos : Nat} (room : pos < 256) (byte : INT8U) :
    (buf.set pos byte room).toList.take (pos + 1) = buf.toList.take pos ++ [byte] := by
  have bound : pos < buf.toList.length := by rw [Vector.length_toList]; exact room
  rw [Vector.toList_set, List.take_add_one, List.getElem?_set_self bound, List.take_set,
    List.set_eq_of_length_le (by rw [List.length_take]; omega)]
  rfl

theorem masterView_take (m : RtuMaster) (byte : INT8U) :
    masterView (xMBMasterRTUReceiveFSM m byte) = (masterView m).take mbSerPduSizeMax byte := by
  cases state : m.eRcvState with
  | rxInit => simp only [masterView, xMBMasterRTUReceiveFSM, state, RtuMaster.onTimers, Receiver.take]
  | rxError => simp only [masterView, xMBMasterRTUReceiveFSM, state, RtuMaster.onTimers, Receiver.take]
  | rxIdle =>
    simp only [masterView, xMBMasterRTUReceiveFSM, state, RtuMaster.onTimers, Receiver.take]
    exact congrArg Receiver.receiving (take_set m.ucMasterRTURcvBuf (by decide) byte)
  | rxRcv =>
    simp only [masterView, xMBMasterRTUReceiveFSM, state, Receiver.take]
    by_cases room : m.usMasterRcvBufferPos < 256
    · have short : (masterReceived m).length < mbSerPduSizeMax := by
        rw [length_masterReceived (Nat.le_of_lt room)]
        exact room
      rw [dif_pos room, if_pos short]
      exact congrArg Receiver.receiving (take_set m.ucMasterRTURcvBuf room byte)
    · have full : ¬ (masterReceived m).length < mbSerPduSizeMax := by
        rw [masterReceived, List.length_take, Vector.length_toList, mbSerPduSizeMax]
        omega
      rw [dif_neg room, if_neg full]
      rfl

theorem masterInside_take (m : RtuMaster) (byte : INT8U) (_ : MasterInside m) :
    MasterInside (xMBMasterRTUReceiveFSM m byte) := by
  cases state : m.eRcvState with
  | rxInit => simp only [MasterInside, xMBMasterRTUReceiveFSM, state, RtuMaster.onTimers,
      reduceCtorEq, false_imp_iff]
  | rxError => simp only [MasterInside, xMBMasterRTUReceiveFSM, state, RtuMaster.onTimers,
      reduceCtorEq, false_imp_iff]
  | rxIdle =>
    simp only [MasterInside, xMBMasterRTUReceiveFSM, state, RtuMaster.onTimers]
    exact fun _ => Nat.one_le_two_pow (n := 8)
  | rxRcv =>
    simp only [MasterInside, xMBMasterRTUReceiveFSM, state]
    by_cases room : m.usMasterRcvBufferPos < 256
    · rw [dif_pos room]
      exact fun _ => room
    · rw [dif_neg room]
      intro receiving
      cases (receiving : EMBMasterRcvState.rxError = .rxRcv)

theorem masterReceived_eq {m : RtuMaster} (inside : m.usMasterRcvBufferPos ≤ mbSerPduSizeMax) :
    masterReceived m = (List.range m.usMasterRcvBufferPos).map (rcvBytes m) := by
  apply List.ext_getElem
  · rw [length_masterReceived inside, List.length_map, List.length_range]
  · intro i bound _
    rw [length_masterReceived inside] at bound
    have place : i < m.ucMasterRTURcvBuf.toList.length := by
      rw [Vector.length_toList]
      exact Nat.lt_of_lt_of_le bound inside
    rw [List.getElem_map, List.getElem_range, rcvBytes, List.getD_eq_getElem?_getD,
      List.getElem?_eq_getElem place]
    exact List.getElem_take

theorem masterView_frame (m : RtuMaster) :
    (masterView m).frame = if m.eRcvState = .rxRcv then some (masterReceived m) else none := by
  unfold masterView
  cases m.eRcvState <;> rfl

theorem master_posted_iff (m : RtuMaster) :
    EMBMasterEventType.frameReceived ∈ (xMBMasterRTUTimerExpired m).2 ↔ m.eRcvState = .rxRcv := by
  simp only [xMBMasterRTUTimerExpired, List.mem_append]
  cases m.eRcvState <;> simp

theorem eMBMasterRTUReceive_eq {m : RtuMaster} (inside : m.usMasterRcvBufferPos ≤ mbSerPduSizeMax) :
    eMBMasterRTUReceive m = handedOver (rcvBytes m) m.usMasterRcvBufferPos := by
  have run : m.ucMasterRTURcvBuf.toList.take m.usMasterRcvBufferPos =
      (List.range m.usMasterRcvBufferPos).map (rcvBytes m) := masterReceived_eq inside
  have first : m.ucMasterRTURcvBuf[0] = rcvBytes m 0 := by
    have bound : 0 < m.ucMasterRTURcvBuf.toList.length := by rw [Vector.length_toList]; decide
    rw [rcvBytes, List.getD_eq_getElem?_getD, List.getElem?_eq_getElem bound]
    exact Vector.getElem_toList ..
  rw [eMBMasterRTUReceive, run, first]
  rfl

theorem masterLine_report (m : RtuMaster) (inside : MasterInside m) :
    masterLine.report m = (masterView m).frame.bind decodeFrame := by
  rw [masterView_frame, masterLine]
  by_cases receiving : m.eRcvState = .rxRcv
  · have run := inside receiving
    simp only [master_posted_iff, receiving, if_true, Option.bind_some]
    rw [eMBMasterRTUReceive_eq (m := (xMBMasterRTUTimerExpired m).1) run, masterReceived_eq run]
    exact frameOf_handedOver (rcvBytes m) run
  · simp only [master_posted_iff, receiving, if_false, Option.bind_none]

theorem masterLine_simulates :
    masterLine.Simulates mbSerPduSizeMax decodeFrame MasterInside masterView where
  kept := masterInside_take
  restored _ := fun receiving => nomatch receiving
  take := masterView_take
  silence _ := rfl
  report := masterLine_report

/-! ### Whole streams -/

theorem slaveInside_start (s : RtuSlave) : SlaveInside (eMBRTUStart s) := by
  intro receiving
  cases (receiving : EMBRcvState.rxInit = .rxRcv)

theorem masterInside_start (m : RtuMaster) : MasterInside (eMBMasterRTUStart m) := by
  intro receiving
  cases (receiving : EMBMasterRcvState.rxInit = .rxRcv)

theorem slave_reports (s : RtuSlave) (runs : List (List INT8U)) (tail : List INT8U) :
    slaveLine.reports (eMBRTUStart s) (stream runs tail) = runs.tail.filterMap decodeFrame :=
  slaveLine_simulates.reports_starting (by decide) fits_of_decodeFrame (slaveInside_start s) rfl
    runs tail

theorem master_reports (m : RtuMaster) (runs : List (List INT8U)) (tail : List INT8U) :
    masterLine.reports (eMBMasterRTUStart m) (stream runs tail) = runs.tail.filterMap decodeFrame :=
  masterLine_simulates.reports_starting (by decide) fits_of_decodeFrame (masterInside_start m) rfl
    runs tail

/-- Whatever arrives after the start, master and slave hand over the frames among the runs of
bytes that two expiries enclose, in their order and as they were put together, and nothing
else. -/
theorem handed_over_from_start (s : RtuSlave) (m : RtuMaster) (runs : List (List INT8U))
    (tail : List INT8U) :
    slaveLine.reports (eMBRTUStart s) (stream runs tail) = runs.tail.filterMap decodeFrame ∧
      masterLine.reports (eMBMasterRTUStart m) (stream runs tail) = runs.tail.filterMap decodeFrame ∧
      ∀ run address pdu, decodeFrame run = some (address, pdu) ↔
        run = lineFrame address pdu ∧ 1 ≤ pdu.length ∧ pdu.length ≤ 253 :=
  ⟨slave_reports s runs tail, master_reports m runs tail, decodeFrame_eq_some_iff⟩

/-- A frame that came out damaged is not decoded. -/
theorem decodeFrame_damaged {address : INT8U} {pdu run : List INT8U} (short : pdu.length ≤ 253)
    (same : run.length = (lineFrame address pdu).length)
    (noticed : Noticed (difference (wireBits (lineFrame address pdu)) (wireBits run))) :
    decodeFrame run = none := by
  have refused := usMBCRC16_damaged same (by rw [length_lineFrame]; omega)
    (usMBCRC16_lineFrame address pdu) noticed
  exact if_neg fun all => refused all.2.2

/-- A frame damaged on the line, in a way the checksum notices, is as if it had not been sent:
master and slave hand over the other frames of the stream and none for it. -/
theorem damaged_frame_ignored (s : RtuSlave) (m : RtuMaster) (address : INT8U)
    (pdu run first : List INT8U) (before after : List (List INT8U)) (tail : List INT8U)
    (short : pdu.length ≤ 253) (same : run.length = (lineFrame address pdu).length)
    (noticed : Noticed (difference (wireBits (lineFrame address pdu)) (wireBits run))) :
    slaveLine.reports (eMBRTUStart s) (stream (first :: (before ++ run :: after)) tail) =
        slaveLine.reports (eMBRTUStart s) (stream (first :: (before ++ after)) tail) ∧
      masterLine.reports (eMBMasterRTUStart m) (stream (first :: (before ++ run :: after)) tail) =
        masterLine.reports (eMBMasterRTUStart m) (stream (first :: (before ++ after)) tail) := by
  have ignored : (before ++ run :: after).filterMap decodeFrame =
      (before ++ after).filterMap decodeFrame := by
    rw [List.filterMap_append, List.filterMap_cons, decodeFrame_damaged short same noticed,
      List.filterMap_append]
  exact ⟨by rw [slave_reports, slave_reports]; exact ignored,
    by rw [master_reports, master_reports]; exact ignored⟩

/-- A read request in which one bit of the count was turned over. -/
theorem damaged_frame_ignored_request :
    slaveLine.reports (eMBRTUStart .reset)
        (stream ([] :: ([] ++ [1, 3, 0, 0, 0, 3, 0x84, 0x0A] :: [])) []) =
      slaveLine.reports (eMBRTUStart .reset) (stream ([] :: ([] ++ [])) []) ∧
    masterLine.reports (eMBMasterRTUStart (TimerMode.powerOn 35))
        (stream ([] :: ([] ++ [1, 3, 0, 0, 0, 3, 0x84, 0x0A] :: [])) []) =
      masterLine.reports (eMBMasterRTUStart (TimerMode.powerOn 35)) (stream ([] :: ([] ++ [])) []) :=
  damaged_frame_ignored .reset (TimerMode.powerOn 35) 1 [3, 0, 0, 0, 1]
    [1, 3, 0, 0, 0, 3, 0x84, 0x0A] [] [] [] [] (by decide) (by decide)
    ⟨by decide +kernel, Or.inl (by decide +kernel)⟩

end GasSub.Guarantees.LineFraming
