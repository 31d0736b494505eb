import GasSub.Guarantees.MasterSession

/-!
# What the Modbus master makes of anything

Any bytes come back after a request to one slave. If they fit the receive buffer the request
ends, with an error unless they are a frame of that slave, and no row changes then. Such a
frame changes the row of its slave only, apart from what fills up the last byte of its
coils or inputs. More bytes than fit the buffer leave the request without an end.
-/
namespace GasSub.Guarantees.MasterSafety
open GasSub.Source
open GasSub.Library.BitArray GasSub.Library.ByteMemory GasSub.Library.Cells GasSub.Library.FrameReceiver
open GasSub.Library.ModbusMirror GasSub.Library.ModbusProtocol
open GasSub.Guarantees.LineFraming GasSub.Guarantees.MasterLine GasSub.Guarantees.MasterRequests
open GasSub.Guarantees.MasterSession GasSub.Guarantees.SlaveRequests

/-! ### Rows -/

/-- Rows of `width` bytes. In the row behind that of `dest` up to seven bits may have been set,
those that fill up the last byte of a run; nothing else has changed outside the row of
`dest`. -/
def BitsKept (width : Nat) (dest : INT8U) (before after : Memory) : Prop :=
  ∀ b : INT8U, b ≠ dest → ∀ i < 8 * width,
    bitAt after (masterRow width b) i = bitAt before (masterRow width b) i ∨
      (b.toNat = dest.toNat + 1 ∧ i < 7 ∧ bitAt after (masterRow width b) i = true)

/-- Rows of `width` registers. -/
def WordsKept (width : Nat) (dest : INT8U) (before after : Nat → INT16U) : Prop :=
  ∀ b : INT8U, b ≠ dest → ∀ i < width, after (masterRow width b + i) = before (masterRow width b + i)

/-- What a frame of the slave `dest` leaves alone. -/
structure RowsKept (dest : INT8U) (before after : MasterRegs) : Prop where
  discretes : BitsKept (mDiscreteInputNdiscretes / 8) dest before.ucMDiscInBuf after.ucMDiscInBuf
  coils : BitsKept (mCoilNcoils / 8) dest before.ucMCoilBuf after.ucMCoilBuf
  inputs : WordsKept mRegInputNregs dest before.usMRegInBuf after.usMRegInBuf
  holdings : WordsKept mRegHoldingNregs dest before.usMRegHoldBuf after.usMRegHoldBuf

section
variable (width : Nat) (dest : INT8U)

theorem BitsKept.refl (bits : Memory) : BitsKept width dest bits bits := fun _ _ _ _ => Or.inl rfl

theorem WordsKept.refl (words : Nat → INT16U) : WordsKept width dest words words := fun _ _ _ _ => rfl

end

theorem BitsKept.trans {width : Nat} {dest : INT8U} {x y z : Memory} (first : BitsKept width dest x y)
    (second : BitsKept width dest y z) : BitsKept width dest x z := by
  intro b other i bound
  rcases second b other i bound with same | set
  · rw [same]
    exact first b other i bound
  · exact Or.inr set

theorem WordsKept.trans {width : Nat} {dest : INT8U} {x y z : Nat → INT16U} (first : WordsKept width dest x y)
    (second : WordsKept width dest y z) : WordsKept width dest x z :=
  fun b other i bound => (second b other i bound).trans (first b other i bound)

theorem RowsKept.refl (dest : INT8U) (regs : MasterRegs) : RowsKept dest regs regs :=
  ⟨.refl _ _ _, .refl _ _ _, .refl _ _ _, .refl _ _ _⟩

theorem RowsKept.trans {dest : INT8U} {x y z : MasterRegs} (first : RowsKept dest x y)
    (second : RowsKept dest y z) : RowsKept dest x z :=
  ⟨first.discretes.trans second.discretes, first.coils.trans second.coils,
    first.inputs.trans second.inputs, first.holdings.trans second.holdings⟩

section
variable {width : Nat} {dest : INT8U} (buf : Memory) (p : Nat) {usAddress usCount : INT16U}

theorem bufferToRegs_kept {count : Nat} (words : Nat → INT16U)
    (inside : usAddress.toNat + count ≤ width) :
    WordsKept width dest words
      (bufferToRegs buf count p (masterRow width dest + usAddress.toNat) words) := by
  intro b other i bound
  refine bufferToRegs_outside _ _ _ _ _ ?_
  unfold masterRow
  rcases row_apart other with behind | earlier
  · have steps := Nat.mul_le_mul_left width behind
    rw [Nat.mul_add, Nat.mul_one] at steps
    omega
  · have steps := Nat.mul_le_mul_left width earlier
    rw [Nat.mul_add, Nat.mul_one] at steps
    omega

/-- Behind a run of bits a write sets bits at most, seven of them. -/
theorem writeBits_spill (usAddress usCount : INT16U) (bits : Memory) (c : Nat) {x : Nat}
    (behind : usAddress.toNat + usCount.toNat ≤ x) :
    bitAt (writeBits buf p usAddress usCount bits c) c x = bitAt bits c x ∨
      (x < usAddress.toNat + usCount.toNat + 7 ∧
        bitAt (writeBits buf p usAddress usCount bits c) c x = true) := by
  have padding : paddingBits usCount ≤ 7 := by unfold paddingBits; omega
  rw [bitAt_writeBits, orInto, overwrite, if_neg (by omega)]
  by_cases filled : x < usAddress.toNat + usCount.toNat + paddingBits usCount
  · cases set : bitAt buf p (usCount.toNat + (x - (usAddress.toNat + usCount.toNat))) with
    | true =>
      refine Or.inr ⟨by omega, ?_⟩
      rw [decide_eq_true ⟨behind, filled⟩]
      simp
    | false => simp
  · rw [decide_eq_false fun both => filled both.2]
    simp

theorem writeBits_kept (bits : Memory) (inside : usAddress.toNat + usCount.toNat ≤ 8 * width)
    (some : 1 ≤ width) :
    BitsKept width dest bits (writeBits buf p usAddress usCount bits (masterRow width dest)) := by
  intro b other i bound
  rcases row_apart other with behind | earlier
  · obtain ⟨k, far⟩ := Nat.exists_eq_add_of_le behind
    have row : masterRow width b = masterRow width dest + (width + width * k) := by
      rw [masterRow, masterRow, far, Nat.mul_add, Nat.mul_add, Nat.mul_one, Nat.add_assoc]
    have spill := writeBits_spill buf p usAddress usCount bits (masterRow width dest)
      (x := 8 * (width + width * k) + i) (by omega)
    rw [row, bitAt_add, bitAt_add]
    refine spill.imp_right fun ⟨near, set⟩ => ⟨?_, by omega, set⟩
    have first : k = 0 := by
      by_contra later
      have least := Nat.mul_le_mul some (Nat.one_le_iff_ne_zero.mpr later)
      omega
    rw [far, first]
  · have steps := Nat.mul_le_mul_left width earlier
    rw [Nat.mul_add, Nat.mul_one] at steps
    refine Or.inl ?_
    rw [bitAt, bitAt, writeBits_before _ _ _ _ _ (by unfold masterRow; omega)]

end

/-! ### The callbacks and the handlers -/

section
variable (dest : INT8U) (regs : MasterRegs) (buf : Memory) (p : Nat) (usAddress usCount : INT16U)

theorem eMBMasterRegInputCB_kept :
    RowsKept dest regs (eMBMasterRegInputCB dest regs buf p usAddress usCount).2 := by
  unfold eMBMasterRegInputCB
  dsimp only
  split
  · case isTrue block =>
    have inside := (inBlock_zero_iff _ _ _).mp block
    exact ⟨.refl _ _ _, .refl _ _ _, bufferToRegs_kept buf p _ inside, .refl _ _ _⟩
  · exact .refl dest regs

theorem eMBMasterRegHoldingCB_kept (eMode : EMBRegisterMode) :
    RowsKept dest regs (eMBMasterRegHoldingCB dest regs buf p usAddress usCount eMode).2 := by
  unfold eMBMasterRegHoldingCB
  dsimp only
  split
  · case isTrue block =>
    have inside := (inBlock_zero_iff _ _ _).mp block
    exact ⟨.refl _ _ _, .refl _ _ _, .refl _ _ _, bufferToRegs_kept buf p _ inside⟩
  · exact .refl dest regs

theorem eMBMasterRegCoilsCB_kept (eMode : EMBRegisterMode) :
    RowsKept dest regs (eMBMasterRegCoilsCB dest regs buf p usAddress usCount eMode).2 := by
  unfold eMBMasterRegCoilsCB
  dsimp only
  split
  · case isTrue block =>
    have inside := (inBlock_zero_iff _ _ _).mp block
    exact ⟨.refl _ _ _, writeBits_kept buf p _ inside (by decide), .refl _ _ _, .refl _ _ _⟩
  · exact .refl dest regs

theorem eMBMasterRegDiscreteCB_kept :
    RowsKept dest regs (eMBMasterRegDiscreteCB dest regs buf p usAddress usCount).2 := by
  unfold eMBMasterRegDiscreteCB
  dsimp only
  split
  · case isTrue block =>
    have inside := (inBlock_zero_iff _ _ _).mp block
    exact ⟨writeBits_kept buf p _ inside (by decide), .refl _ _ _, .refl _ _ _, .refl _ _ _⟩
  · exact .refl dest regs

end

section
variable (m : MasterNode) (buf : Memory) (p : Nat) (usLen : INT16U)

theorem masterRead_kept {f : MasterRead} (callback : ∀ buf p usAddress usCount,
    RowsKept m.ucMBMasterDestAddress m.regs
      (f.callback m.ucMBMasterDestAddress m.regs buf p usAddress usCount).2) :
    RowsKept m.ucMBMasterDestAddress m.regs (masterRead f m buf p usLen).regs := by
  unfold masterRead
  split
  · exact .refl _ _
  · split
    · dsimp only
      split
      · exact callback _ _ _ _
      · exact .refl _ _
    · exact .refl _ _

/-- No handler changes more, whatever frame it is given. -/
theorem call_kept (handler : MasterHandler) :
    RowsKept m.ucMBMasterDestAddress m.regs (handler.call m buf p usLen).regs := by
  cases handler with
  | reportSlaveID => exact .refl _ _
  | readInputRegister =>
    exact masterRead_kept m buf p usLen fun _ _ _ _ => eMBMasterRegInputCB_kept _ _ _ _ _ _
  | readHoldingRegister =>
    exact masterRead_kept m buf p usLen fun _ _ _ _ => eMBMasterRegHoldingCB_kept _ _ _ _ _ _ .regRead
  | readCoils =>
    exact masterRead_kept m buf p usLen fun _ _ _ _ => eMBMasterRegCoilsCB_kept _ _ _ _ _ _ .regRead
  | readDiscreteInputs =>
    exact masterRead_kept m buf p usLen fun _ _ _ _ => eMBMasterRegDiscreteCB_kept _ _ _ _ _ _
  | writeMultipleHoldingRegister =>
    change RowsKept _ _ (eMBMasterFuncWriteMultipleHoldingRegister m buf p usLen).regs
    unfold eMBMasterFuncWriteMultipleHoldingRegister
    split
    · dsimp only
      split
      · exact eMBMasterRegHoldingCB_kept _ _ _ _ _ _ _
      · exact .refl _ _
    · exact .refl _ _
  | writeHoldingRegister =>
    change RowsKept _ _ (eMBMasterFuncWriteHoldingRegister m buf p usLen).regs
    unfold eMBMasterFuncWriteHoldingRegister
    split
    · exact eMBMasterRegHoldingCB_kept _ _ _ _ _ _ _
    · exact .refl _ _
  | writeCoil =>
    change RowsKept _ _ (eMBMasterFuncWriteCoil m buf p usLen).regs
    unfold eMBMasterFuncWriteCoil
    split
    · dsimp only
      split
      · exact eMBMasterRegCoilsCB_kept _ _ _ _ _ _ _
      · exact .refl _ _
    · exact .refl _ _
  | writeMultipleCoils =>
    change RowsKept _ _ (eMBMasterFuncWriteMultipleCoils m buf p usLen).regs
    unfold eMBMasterFuncWriteMultipleCoils
    split
    · dsimp only
      split
      · exact eMBMasterRegCoilsCB_kept _ _ _ _ _ _ _
      · exact .refl _ _
    · exact .refl _ _
  | readWriteMultipleHoldingRegister =>
    change RowsKept _ _ (eMBMasterFuncReadWriteMultipleHoldingRegister m buf p usLen).regs
    unfold eMBMasterFuncReadWriteMultipleHoldingRegister
    split
    · exact .refl _ _
    · split
      · dsimp only
        split
        · split
          · exact (eMBMasterRegHoldingCB_kept _ _ _ _ _ _ _).trans (eMBMasterRegHoldingCB_kept _ _ _ _ _ _ _)
          · exact eMBMasterRegHoldingCB_kept _ _ _ _ _ _ _
        · exact .refl _ _
      · exact .refl _ _

end

/-! ### Any bytes -/

/-- What the task that made the request is told, if it goes on. -/
def told (m : Master) : Option EMBMasterReqErrCode × Master :=
  match eMBMasterWaitRequestFinish m.node with
  | none => (none, m)
  | some ended => (some ended.1, { m with node := ended.2 })

/-- A request, everything that comes back being `run`, until the task that polls is blocked: how
it ended, if it has, and the master then. -/
def requestHeard (eEvent : INT32U) (m : Master) (a : INT8U) (r : Request) (run : List INT8U) :
    Option (Option EMBMasterReqErrCode × Master) :=
  match issue m.node a r with
  | none => none
  | some (.error e) => some (some e, m)
  | some (.ok node) =>
    (serve eEvent 2 { m with node := node }).bind fun m =>
    (transmitAll (m.node.rtu.usMasterSndBufferCount.toNat + 1) m.node.rtu).bind fun sent =>
    (serve eEvent 5 (masterHears (withSent m sent) run)).map told

/-- Anything but a frame of the slave that was asked is an error of reception. -/
theorem masterReceived_other {m : Master}
    (other : ∀ pdu, frameOf (memoryOf m.node.rtu.ucMasterRTURcvBuf) (eMBMasterRTUReceive m.node.rtu) ≠
      some (m.node.ucMBMasterDestAddress, pdu)) :
    ∃ heard : Master, masterReceived m = (heard.setErrorType .receiveData).post .errorProcess ∧
      heard.node = m.node ∧ heard.eMBState = m.eMBState := by
  unfold GasSub.Source.masterReceived
  cases received : eMBMasterRTUReceive m.node.rtu with
  | error e => exact ⟨m, rfl, rfl, rfl⟩
  | ok f =>
    rw [received] at other
    have address : f.ucRcvAddress ≠ m.node.ucMBMasterDestAddress :=
      fun same => other _ (congrArg (fun x => some (x, _)) same)
    dsimp only
    rw [if_neg address]
    exact ⟨_, rfl, rfl, rfl⟩

/-- A handler leaves the machines of the master alone. -/
theorem callMasterHandler_receive (handler : MasterHandler) (m : MasterNode) (usLength : INT16U) :
    ∃ e rtu regs usLen, callMasterHandler handler .receive m usLength =
        (e, { m with rtu := rtu, regs := regs }, usLen) ∧ rtu.eRcvState = m.rtu.eRcvState ∧
      rtu.eSndState = m.rtu.eSndState ∧ RowsKept m.ucMBMasterDestAddress m.regs regs :=
  ⟨_, { m.rtu with ucMasterRTURcvBuf := _ }, _, _, rfl, rfl, rfl, call_kept m _ 1 usLength handler⟩

/-- The exception of whatever the task executes. -/
theorem masterExecute_any {before m : Master} {a : INT8U} {r : Request} {pdu : List INT8U}
    (answering : Answering before a r pdu m) :
    ∃ loaded exception, masterExecute m = some (concluded loaded exception) ∧ Busy loaded ∧
      RowsKept a before.node.regs loaded.node.regs := by
  have busy := answering.busy
  have regs := answering.regs
  by_cases high : m.node.buffer .receive 1 >>> 7 ≠ 0
  · refine ⟨m, _, masterExecute_exception answering.frame high, busy, ?_⟩
    rw [regs]
    exact .refl _ _
  · refine ⟨_, _, masterExecute_handled answering.frame high rfl, ?_⟩
    rw [← regs, ← answering.dest]
    unfold executeHandler
    cases found : findMasterHandler xMasterFuncHandlers (m.node.buffer .receive 1) with
    | none => exact ⟨busy, .refl _ _⟩
    | some handler =>
      dsimp only
      rw [answering.single, if_neg Bool.false_ne_true]
      obtain ⟨e, rtu, regs, usLen, called, receiver, transmitter, kept⟩ :=
        callMasterHandler_receive handler m.node m.usLength
      rw [called]
      exact ⟨⟨busy.enabled, receiver.trans busy.receiver, transmitter.trans busy.transmitter, busy.group,
        busy.taken⟩, kept⟩

/-- More bytes than fit the buffer end the wait of the machine for an answer, and that is all. -/
theorem overlong_expires {m : RtuMaster} (idle : m.eRcvState = .rxIdle)
    (mode : m.timers.eMasterCurTimerMode ≠ .convertDelay) {run : List INT8U} (long : 256 < run.length) :
    (xMBMasterRTUTimerExpired (run.foldl xMBMasterRTUReceiveFSM m)).2 = [] := by
  have kept := restKept_takes m run
  have some : run ≠ [] := fun none => by rw [none] at long; exact absurd long (by decide)
  have silent := transmitter_takes idle some
  have overrun : (run.foldl xMBMasterRTUReceiveFSM m).eRcvState = .rxError := by
    have start : masterView m = .idle := by rw [masterView, idle]
    have view : masterView (run.foldl xMBMasterRTUReceiveFSM m) =
        run.foldl (Receiver.take mbSerPduSizeMax) (masterView m) := masterLine_simulates.view_takes m run
    rw [start] at view
    cases run with
    | nil => exact absurd rfl some
    | cons x run =>
      rw [takes_idle (by decide),
        if_neg (show ¬ (x :: run).length ≤ mbSerPduSizeMax from Nat.not_le.mpr long)] at view
      unfold masterView at view
      split at view
      · cases view
      · cases view
      · cases view
      · assumption
  generalize run.foldl xMBMasterRTUReceiveFSM m = after at kept silent overrun ⊢
  have answered : ¬ (after.eSndState = .txXfwr ∧ after.xFrameIsBroadcast = false) := by
    rintro ⟨waits, -⟩
    rw [silent] at waits
    cases waits
  unfold xMBMasterRTUTimerExpired
  dsimp only
  rw [overrun, if_neg answered, if_neg (by rw [kept.mode]; exact mode)]
  rfl

section
variable {before m : Master} {a : INT8U} {r : Request} (awaiting : Awaiting before a r m) (eEvent : INT32U)
  (one : a ≠ mbAddressBroadcast)
include awaiting one

theorem single_mode : m.node.rtu.timers.eMasterCurTimerMode ≠ .convertDelay := by
  rw [awaiting.mode, if_neg one]
  decide

/-- Bytes that are no frame of the slave. -/
theorem noise_ends {run : List INT8U} (fits : Fits mbSerPduSizeMax run)
    (other : ∀ pdu, decodeFrame run ≠ some (a, pdu)) :
    ∃ rested, serve eEvent 5 (masterHears m run) = some rested ∧
      Ended .errorReceiveData before.node.regs rested := by
  obtain ⟨rtu, expired, answered⟩ : ∃ rtu,
      xMBMasterRTUTimerExpired (run.foldl xMBMasterRTUReceiveFSM m.node.rtu) = (rtu, [.frameReceived]) ∧
        Answered m.node.rtu run rtu := by
    obtain ⟨posts, answered⟩ := answer_expires awaiting.receiver (single_mode awaiting one) fits
    exact ⟨_, Prod.ext rfl posts, answered⟩
  have frame := answered.frame
  rw [← awaiting.dest] at other
  obtain ⟨heard, received, node, state⟩ := masterReceived_other
    (m := withGroup (withSent m rtu) ⟨0, .running⟩) fun pdu same => other pdu (frame.symm.trans same)
  have group : (heard.setErrorType .receiveData).node.xMasterOsEvent = ⟨0, .running⟩ :=
    congrArg MasterNode.xMasterOsEvent node
  have busy : Busy (heard.setErrorType .receiveData) := by
    unfold Master.setErrorType
    rw [node]
    exact ⟨state.trans awaiting.enabled, answered.receiver, answered.transmitter, rfl, awaiting.taken⟩
  have regs : (heard.setErrorType .receiveData).node.regs = before.node.regs :=
    (congrArg MasterNode.regs node).trans awaiting.regs
  have ended := masterErrorProcess_ends busy eEvent 2
  rw [regs] at ended
  rw [wakes awaiting.group run (by decide) expired eEvent 4, masterSwitch_frameReceived, Option.bind_some, received,
    serve_posted (by decide) eEvent 3 busy.enabled group, masterSwitch_errorProcess, Option.bind_some]
  exact ended

/-- A frame of the slave. -/
theorem frame_ends {pdu : List INT8U} (long : 1 ≤ pdu.length) (short : pdu.length ≤ 253) :
    ∃ rested event regs, serve eEvent 5 (masterHears m (lineFrame a pdu)) = some rested ∧
      Ended event regs rested ∧ event ∈ finishedEvents ∧ RowsKept a before.node.regs regs := by
  obtain ⟨loaded, run, answering⟩ := answer_executes awaiting eEvent one pdu long short
  obtain ⟨executed, exception, execution, busy, kept⟩ := masterExecute_any answering
  obtain ⟨rested, served, ended⟩ := concluded_ends busy exception eEvent 1
  rw [run, execution, Option.bind_some]
  refine ⟨rested, _, _, served, ended, ?_, kept⟩
  unfold endEvent
  split <;> decide

/-- More bytes than fit. -/
theorem overlong_blocks {run : List INT8U} (long : 256 < run.length) :
    ∃ stuck, serve eEvent 5 (masterHears m run) = some stuck ∧ stuck.node.xMasterOsEvent = blockedWith 0 ∧
      stuck.node.xMasterRunRes = 0 ∧ stuck.node.regs = before.node.regs := by
  have nothing := overlong_expires awaiting.receiver (single_mode awaiting one) long
  refine ⟨masterHears m run, ?_, ?_, ?_, ?_⟩ <;> unfold masterHears <;> dsimp only <;> rw [nothing]
  · change serve eEvent 5 (withSent m _) = some (withSent m _)
    rw [serve]
    dsimp only [withSent]
    rw [awaiting.group]
    rfl
  · exact awaiting.group
  · exact awaiting.taken
  · exact awaiting.regs

end

theorem told_ended {event : EMBMasterEventType} {regs : MasterRegs} {m : Master} (ended : Ended event regs m)
    (last : event ∈ finishedEvents) :
    ∃ after, told m = (some (requestResult (masterFlags.code event)), after) ∧ Resting after ∧
      after.node.regs = regs := by
  obtain ⟨node, waited, resting, same⟩ := eMBMasterWaitRequestFinish_ended ended last
  refine ⟨{ m with node := node }, ?_, resting, same⟩
  rw [told, waited]

end GasSub.Guarantees.MasterSafety
