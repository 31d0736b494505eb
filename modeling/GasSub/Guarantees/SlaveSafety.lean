import GasSub.Guarantees.SlaveSession

/-!
# What the Modbus slave never does

Any runs of bytes on the line, requests or not, each polled before the next byte. No byte behind the buffer of the slave, no
register behind its tables and no input is ever written, apart from the byte behind the
coils; and all that is sent are line frames of the slave.
-/
namespace GasSub.Guarantees.SlaveSafety
open GasSub.Source
open GasSub.Library.BitArray GasSub.Library.ByteMemory GasSub.Library.ByteWord GasSub.Library.Cells
open GasSub.Library.FrameReceiver
open GasSub.Guarantees.LineFraming GasSub.Guarantees.SlaveRequests GasSub.Guarantees.SlaveSession

/-! ### The callbacks -/

/-- What no request changes. The coils are eight bytes; of the byte behind them a write may set
bits, those that fill up its last byte. -/
structure RegsKept (before after : SlaveRegs) : Prop where
  discretes : after.ucSDiscInBuf = before.ucSDiscInBuf
  inputs : after.usSRegInBuf = before.usSRegInBuf
  holdings : KeptFrom sRegHoldingNregs before.usSRegHoldBuf after.usSRegHoldBuf
  coils : KeptFrom (sCoilNcoils / 8 + 1) before.ucSCoilBuf after.ucSCoilBuf
  spill : ∀ i, sCoilNcoils ≤ i → bitAt before.ucSCoilBuf 0 i = true → bitAt after.ucSCoilBuf 0 i = true

theorem RegsKept.refl (regs : SlaveRegs) : RegsKept regs regs :=
  ⟨rfl, rfl, KeptFrom.refl _, KeptFrom.refl _, fun _ _ set => set⟩

theorem RegsKept.trans {a b c : SlaveRegs} (first : RegsKept a b) (second : RegsKept b c) :
    RegsKept a c :=
  ⟨second.discretes.trans first.discretes, second.inputs.trans first.inputs,
    first.holdings.trans second.holdings, first.coils.trans second.coils,
    fun i behind set => second.spill i behind (first.spill i behind set)⟩

section
variable (regs : SlaveRegs) (buf : Memory) {p : Nat} (usAddress usCount : INT16U)

theorem regsToBuffer_kept (cells : Nat → INT16U) (i : Nat) {n : Nat} (room : p + 2 * n ≤ 256) :
    KeptFrom 256 buf (regsToBuffer cells n i buf p) := by
  rw [regsToBuffer_eq]
  refine (KeptFrom.refl buf).replace ?_
  rw [length_flatMap_bigEndian, length_slice]
  exact room

theorem eMBRegHoldingCB_kept (eMode : EMBRegisterMode) (room : p + 200 ≤ 256) :
    RegsKept regs (eMBRegHoldingCB regs buf p usAddress usCount eMode).2.1 ∧
      KeptFrom 256 buf (eMBRegHoldingCB regs buf p usAddress usCount eMode).2.2 ∧
      ((eMBRegHoldingCB regs buf p usAddress usCount eMode).1 = .enoerr → usCount.toNat ≤ 100) := by
  unfold eMBRegHoldingCB
  dsimp only
  by_cases inside : InBlock (usAddress - 1) usCount sRegHoldingStart sRegHoldingNregs
  · have sum : (usAddress - 1).toNat + usCount.toNat ≤ 100 := (inBlock_zero_iff _ _ _).mp inside
    rw [if_pos inside]
    cases eMode with
    | regRead => exact ⟨.refl regs, regsToBuffer_kept buf _ _ (by omega), fun _ => by omega⟩
    | regWrite =>
      refine ⟨⟨rfl, rfl, fun k behind => ?_, .refl _, fun _ _ set => set⟩, .refl buf, fun _ => by omega⟩
      rw [sRegHoldingNregs] at behind
      exact bufferToRegs_outside _ _ _ _ _ (Or.inr (by omega))
  · rw [if_neg inside]
    refine ⟨.refl regs, .refl buf, fun fine => ?_⟩
    cases (fine : EMBError.enoreg = EMBError.enoerr)

theorem eMBRegInputCB_kept (room : p + 200 ≤ 256) :
    KeptFrom 256 buf (eMBRegInputCB regs buf p usAddress usCount).2 ∧
      ((eMBRegInputCB regs buf p usAddress usCount).1 = .enoerr → usCount.toNat ≤ 100) := by
  unfold eMBRegInputCB
  dsimp only
  by_cases inside : InBlock (usAddress - 1) usCount sRegInputStart sRegInputNregs
  · have sum : (usAddress - 1).toNat + usCount.toNat ≤ 100 := (inBlock_zero_iff _ _ _).mp inside
    rw [if_pos inside]
    exact ⟨regsToBuffer_kept buf _ _ (by omega), fun _ => by omega⟩
  · rw [if_neg inside]
    refine ⟨.refl buf, fun fine => ?_⟩
    cases (fine : EMBError.enoreg = EMBError.enoerr)

theorem readBits_kept (bits : Memory) (c : Nat) (few : usCount.toNat ≤ 64) (room : p + 200 ≤ 256) :
    KeptFrom 256 buf (readBits bits c usAddress usCount buf p) :=
  fun _ behind => readBits_behind bits c usAddress usCount buf (by omega)

theorem eMBRegCoilsCB_kept (eMode : EMBRegisterMode) (room : p + 200 ≤ 256) :
    RegsKept regs (eMBRegCoilsCB regs buf p usAddress usCount eMode).2.1 ∧
      KeptFrom 256 buf (eMBRegCoilsCB regs buf p usAddress usCount eMode).2.2 ∧
      ((eMBRegCoilsCB regs buf p usAddress usCount eMode).1 = .enoerr → usCount.toNat ≤ 64) := by
  unfold eMBRegCoilsCB
  dsimp only
  by_cases inside : InBlock (usAddress - 1) usCount sCoilStart sCoilNcoils
  · have sum : (usAddress - 1).toNat + usCount.toNat ≤ 64 := (inBlock_zero_iff _ _ _).mp inside
    rw [if_pos inside]
    cases eMode with
    | regRead => exact ⟨.refl regs, readBits_kept buf _ _ _ _ (by omega) room, fun _ => by omega⟩
    | regWrite =>
      refine ⟨⟨rfl, rfl, .refl _, fun a behind => ?_, fun i behind set => ?_⟩, .refl buf, fun _ => by omega⟩
      · have nine : 9 ≤ a := behind
        have kept := writeBits_behind buf p (usAddress - 1) usCount regs.ucSCoilBuf 0 (j := a) (by omega)
        rw [Nat.zero_add] at kept
        exact kept
      · have last : 64 ≤ i := behind
        dsimp only
        rw [bitAt_writeBits, orInto, overwrite, if_neg (by omega), set, Bool.true_or]
  · rw [if_neg inside]
    refine ⟨.refl regs, .refl buf, fun fine => ?_⟩
    cases (fine : EMBError.enoreg = EMBError.enoerr)

theorem eMBRegDiscreteCB_kept (room : p + 200 ≤ 256) :
    KeptFrom 256 buf (eMBRegDiscreteCB regs buf p usAddress usCount).2 ∧
      ((eMBRegDiscreteCB regs buf p usAddress usCount).1 = .enoerr → usCount.toNat ≤ 64) := by
  unfold eMBRegDiscreteCB
  dsimp only
  by_cases inside : InBlock (usAddress - 1) usCount sDiscreteInputStart sDiscreteInputNdiscretes
  · have sum : (usAddress - 1).toNat + usCount.toNat ≤ 16 := (inBlock_zero_iff _ _ _).mp inside
    rw [if_pos inside]
    exact ⟨readBits_kept buf _ _ _ _ (by omega) room, fun _ => by omega⟩
  · rw [if_neg inside]
    refine ⟨.refl buf, fun fine => ?_⟩
    cases (fine : EMBError.enoreg = EMBError.enoerr)

end

/-! ### The handlers -/

/-- A handler for the PDU in the buffer of the slave. -/
structure HandlerKept (node : SlaveNode) (buf : Memory) (h : Handled) : Prop where
  regs : RegsKept node.regs h.node.regs
  usMBSlaveIDLen : h.node.usMBSlaveIDLen = node.usMBSlaveIDLen
  buf : KeptFrom 256 buf h.buf
  usLen : 1 ≤ h.usLen.toNat ∧ h.usLen.toNat ≤ 253

section
variable {node : SlaveNode} {buf : Memory} {usLen : INT16U}

theorem handlerKept_refused (e : EMBException) (short : 1 ≤ usLen.toNat ∧ usLen.toNat ≤ 253) :
    HandlerKept node buf ⟨e, node, buf, usLen⟩ := ⟨.refl _, rfl, .refl _, short⟩

/-- A byte of the PDU. -/
theorem keptFrom_byte {before after : Memory} (kept : KeptFrom 256 before after) {a : Nat}
    (inside : a < 256) (byte : INT8U) : KeptFrom 256 before (store after a [byte]) :=
  kept.replace (by rw [List.length_singleton]; exact inside)

theorem readFunction_kept {f : ReadFunction} (short : 1 ≤ usLen.toNat ∧ usLen.toNat ≤ 253)
    (called : ∀ m usAddress usCount, KeptFrom 256 m (f.callback node.regs m 3 usAddress usCount).2 ∧
      ((f.callback node.regs m 3 usAddress usCount).1 = .enoerr → (f.bytes usCount).toNat ≤ 250)) :
    HandlerKept node buf (readFunction f node buf 1 usLen) := by
  unfold readFunction
  dsimp only
  split
  · split
    · obtain ⟨kept, length⟩ := called (store (store buf 1 [f.functionCode]) 2
        [(f.bytes (f.count buf 4)).setWidth 8]) (frameWord buf 2 + 1) (f.count buf 4)
      have head := keptFrom_byte (keptFrom_byte (KeptFrom.refl buf) (a := 1) (by decide) f.functionCode)
        (a := 2) (by decide) ((f.bytes (f.count buf 4)).setWidth 8)
      refine ⟨.refl _, rfl, head.trans kept, ?_⟩
      dsimp only
      split
      · decide
      · case isFalse granted =>
        have few : (f.bytes (f.count buf (1 + 3))).toNat ≤ 250 := length (not_not.mp granted)
        have two : (2 : INT16U).toNat = 2 := rfl
        rw [BitVec.toNat_add, two]
        omega
    · exact handlerKept_refused _ short
  · exact handlerKept_refused _ short

theorem toNat_five : 1 ≤ (5 : INT16U).toNat ∧ (5 : INT16U).toNat ≤ 253 := by decide

/-- Of registers that are granted, and of bits, the bytes fit in an answer. -/
theorem registerBytes_le {n : INT16U} (few : n.toNat ≤ 100) : (n * 2).toNat ≤ 250 := by
  have two : (2 : INT16U).toNat = 2 := rfl
  rw [BitVec.toNat_mul, two]
  omega

theorem bitBytes_le {n : INT16U} (few : n.toNat ≤ 64) :
    ((bitBytes n).setWidth 16 : INT16U).toNat ≤ 250 := by
  rw [BitVec.toNat_setWidth, toNat_bitBytes (by omega)]
  omega

theorem eMBFuncReadInputRegister_kept (short : 1 ≤ usLen.toNat ∧ usLen.toNat ≤ 253) :
    HandlerKept node buf (eMBFuncReadInputRegister node buf 1 usLen) := by
  refine readFunction_kept short fun m a n => ?_
  obtain ⟨kept, count⟩ := eMBRegInputCB_kept node.regs m (p := 3) a n (by decide)
  exact ⟨kept, fun granted => registerBytes_le (count granted)⟩

theorem eMBFuncReadHoldingRegister_kept (short : 1 ≤ usLen.toNat ∧ usLen.toNat ≤ 253) :
    HandlerKept node buf (eMBFuncReadHoldingRegister node buf 1 usLen) := by
  refine readFunction_kept short fun m a n => ?_
  obtain ⟨-, kept, count⟩ := eMBRegHoldingCB_kept node.regs m (p := 3) a n .regRead (by decide)
  exact ⟨kept, fun granted => registerBytes_le (count granted)⟩

theorem eMBFuncReadCoils_kept (short : 1 ≤ usLen.toNat ∧ usLen.toNat ≤ 253) :
    HandlerKept node buf (eMBFuncReadCoils node buf 1 usLen) := by
  refine readFunction_kept short fun m a n => ?_
  obtain ⟨-, kept, count⟩ := eMBRegCoilsCB_kept node.regs m (p := 3) a n .regRead (by decide)
  exact ⟨kept, fun granted => bitBytes_le (count granted)⟩

theorem eMBFuncReadDiscreteInputs_kept (short : 1 ≤ usLen.toNat ∧ usLen.toNat ≤ 253) :
    HandlerKept node buf (eMBFuncReadDiscreteInputs node buf 1 usLen) := by
  refine readFunction_kept short fun m a n => ?_
  obtain ⟨kept, count⟩ := eMBRegDiscreteCB_kept node.regs m (p := 3) a n (by decide)
  exact ⟨kept, fun granted => bitBytes_le (count granted)⟩

theorem eMBFuncWriteHoldingRegister_kept (short : 1 ≤ usLen.toNat ∧ usLen.toNat ≤ 253) :
    HandlerKept node buf (eMBFuncWriteHoldingRegister node buf 1 usLen) := by
  rw [eMBFuncWriteHoldingRegister]
  dsimp only
  split
  · obtain ⟨regs, kept, -⟩ := eMBRegHoldingCB_kept node.regs buf (p := 4) (frameWord buf 2 + 1) 1
      .regWrite (by decide)
    exact ⟨regs, rfl, kept, short⟩
  · exact handlerKept_refused _ short

theorem eMBFuncWriteCoil_kept (short : 1 ≤ usLen.toNat ∧ usLen.toNat ≤ 253) :
    HandlerKept node buf (eMBFuncWriteCoil node buf 1 usLen) := by
  rw [eMBFuncWriteCoil]
  dsimp only
  split
  · split
    · obtain ⟨regs, -, -⟩ := eMBRegCoilsCB_kept node.regs (coilBuf (buf 4)) (p := 0)
        (frameWord buf 2 + 1) 1 .regWrite (by decide)
      exact ⟨regs, rfl, .refl _, short⟩
    · exact handlerKept_refused _ short
  · exact handlerKept_refused _ short

/-- A write of several is confirmed with five bytes. -/
theorem confirmed_length {P : Prop} [Decidable P] (short : 1 ≤ usLen.toNat ∧ usLen.toNat ≤ 253) :
    1 ≤ (if P then usLen else 5).toNat ∧ (if P then usLen else 5).toNat ≤ 253 := by
  split
  · exact short
  · exact toNat_five

theorem eMBFuncWriteMultipleHoldingRegister_kept (short : 1 ≤ usLen.toNat ∧ usLen.toNat ≤ 253) :
    HandlerKept node buf (eMBFuncWriteMultipleHoldingRegister node buf 1 usLen) := by
  rw [eMBFuncWriteMultipleHoldingRegister]
  dsimp only
  split
  · split
    · obtain ⟨regs, kept, -⟩ := eMBRegHoldingCB_kept node.regs buf (p := 7) (frameWord buf 2 + 1)
        (frameWord buf 4) .regWrite (by decide)
      exact ⟨regs, rfl, kept, confirmed_length short⟩
    · exact handlerKept_refused _ short
  · exact handlerKept_refused _ short

theorem eMBFuncWriteMultipleCoils_kept (short : 1 ≤ usLen.toNat ∧ usLen.toNat ≤ 253) :
    HandlerKept node buf (eMBFuncWriteMultipleCoils node buf 1 usLen) := by
  rw [eMBFuncWriteMultipleCoils]
  dsimp only
  split
  · split
    · obtain ⟨regs, kept, -⟩ := eMBRegCoilsCB_kept node.regs buf (p := 7) (frameWord buf 2 + 1)
        (frameWord buf 4) .regWrite (by decide)
      exact ⟨regs, rfl, kept, confirmed_length short⟩
    · exact handlerKept_refused _ short
  · exact handlerKept_refused _ short

/-- The answer is read after the write, into the same buffer. -/
theorem eMBFuncReadWriteMultipleHoldingRegister_kept (short : 1 ≤ usLen.toNat ∧ usLen.toNat ≤ 253) :
    HandlerKept node buf (eMBFuncReadWriteMultipleHoldingRegister node buf 1 usLen) := by
  rw [eMBFuncReadWriteMultipleHoldingRegister]
  dsimp only
  split
  · split
    · obtain ⟨written, kept, -⟩ := eMBRegHoldingCB_kept node.regs buf (p := 11) (frameWord buf 6 + 1)
        (frameWord buf 8) .regWrite (by decide)
      generalize eMBRegHoldingCB node.regs buf (1 + 10) (frameWord buf (1 + 5) + 1)
        (frameWord buf (1 + 7)) .regWrite = called at written kept ⊢
      split
      · have head := keptFrom_byte (keptFrom_byte kept (a := 1) (by decide)
          mbFuncReadwriteMultipleRegisters) (a := 2) (by decide)
          ((frameWord buf (1 + 3) * 2).setWidth 8)
        obtain ⟨regs, data, count⟩ := eMBRegHoldingCB_kept called.2.1
          (store (store called.2.2 1 [mbFuncReadwriteMultipleRegisters]) (1 + 1)
            [(frameWord buf (1 + 3) * 2).setWidth 8]) (p := 3) (frameWord buf (1 + 1) + 1)
          (frameWord buf (1 + 3)) .regRead (by decide)
        refine ⟨written.trans regs, rfl, head.trans data, ?_⟩
        dsimp only
        split
        · case isTrue granted =>
          have few := count granted
          have two : (2 : INT16U).toNat = 2 := rfl
          rw [BitVec.toNat_add, BitVec.toNat_mul, two]
          omega
        · decide
      · exact ⟨written, rfl, kept, short⟩
    · exact handlerKept_refused _ short
  · exact handlerKept_refused _ short

theorem eMBFuncReportSlaveID_kept (usLen : INT16U)
    (id : node.usMBSlaveIDLen.toNat < mbFuncOtherRepSlaveidBuf) :
    HandlerKept node buf (eMBFuncReportSlaveID node buf 1 usLen) := by
  have one : (1 : INT16U).toNat = 1 := rfl
  rw [mbFuncOtherRepSlaveidBuf] at id
  refine ⟨.refl _, rfl, (KeptFrom.refl buf).replace ?_, ?_⟩
  · rw [List.length_map, List.length_range]
    omega
  · rw [eMBFuncReportSlaveID, BitVec.toNat_add, one]
    omega

/-- Every handler keeps to its memory, whatever the PDU. -/
theorem call_kept (handler : FunctionHandler) (short : 1 ≤ usLen.toNat ∧ usLen.toNat ≤ 253)
    (id : node.usMBSlaveIDLen.toNat < mbFuncOtherRepSlaveidBuf) :
    HandlerKept node buf (handler.call node buf 1 usLen) := by
  cases handler with
  | reportSlaveID => exact eMBFuncReportSlaveID_kept usLen id
  | readInputRegister => exact eMBFuncReadInputRegister_kept short
  | readHoldingRegister => exact eMBFuncReadHoldingRegister_kept short
  | writeMultipleHoldingRegister => exact eMBFuncWriteMultipleHoldingRegister_kept short
  | writeHoldingRegister => exact eMBFuncWriteHoldingRegister_kept short
  | readWriteMultipleHoldingRegister => exact eMBFuncReadWriteMultipleHoldingRegister_kept short
  | readCoils => exact eMBFuncReadCoils_kept short
  | writeCoil => exact eMBFuncWriteCoil_kept short
  | writeMultipleCoils => exact eMBFuncWriteMultipleCoils_kept short
  | readDiscreteInputs => exact eMBFuncReadDiscreteInputs_kept short

end

/-! ### The line -/

theorem take_kept (s : RtuSlave) (byte : INT8U) :
    KeptFrom 256 s.ucRTUBuf (xMBRTUReceiveFSM s byte).ucRTUBuf := by
  unfold xMBRTUReceiveFSM
  cases s.eRcvState with
  | rxInit => exact .refl _
  | rxError => exact .refl _
  | rxIdle => exact keptFrom_byte (a := 0) (.refl _) (by decide) byte
  | rxRcv =>
    dsimp only
    split
    · case isTrue room => exact keptFrom_byte (.refl _) room byte
    · exact .refl _

theorem takes_kept (s : RtuSlave) (run : List INT8U) :
    KeptFrom 256 s.ucRTUBuf (run.foldl xMBRTUReceiveFSM s).ucRTUBuf := by
  induction run generalizing s with
  | nil => exact .refl _
  | cons byte run ih => exact (take_kept s byte).trans (ih (xMBRTUReceiveFSM s byte))

theorem eMBRTUSend_kept (s : RtuSlave) (ucSlaveAddress : INT8U) {usLength : INT16U}
    (short : usLength.toNat ≤ 253) :
    KeptFrom 256 s.ucRTUBuf (eMBRTUSend s ucSlaveAddress 1 usLength).2.ucRTUBuf := by
  have one : (1 : INT16U).toNat = 1 := rfl
  have count : (1 + usLength).toNat = usLength.toNat + 1 := by
    rw [BitVec.toNat_add, one]
    omega
  have next : (1 + usLength + 1).toNat = usLength.toNat + 2 := by
    rw [BitVec.toNat_add, count, one]
    omega
  unfold eMBRTUSend
  split
  · have address : 1 - 1 + mbSerPduAddrOff < 256 := by decide
    exact keptFrom_byte (keptFrom_byte (keptFrom_byte (.refl _) address _) (by omega) _) (by omega) _
  · exact .refl _

theorem transmitAll_buf (n : Nat) (s : RtuSlave) : (transmitAll n s).1.ucRTUBuf = s.ucRTUBuf := by
  induction n generalizing s with
  | zero => rfl
  | succ n ih =>
    rw [transmitAll, ih]
    unfold xMBRTUTransmitFSM
    cases s.eSndState with
    | txIdle => rfl
    | txXmit =>
      dsimp only
      split <;> rfl

/-! ### One run -/

/-- What a run of bytes leaves of the slave; what it sends for it is frames. -/
structure SlaveKept (s after : Slave) : Prop where
  waiting : Waiting after
  ucMBAddress : after.ucMBAddress = s.ucMBAddress
  regs : RegsKept s.node.regs after.node.regs
  usMBSlaveIDLen : after.node.usMBSlaveIDLen = s.node.usMBSlaveIDLen
  buf : KeptFrom mbSerPduSizeMax s.rtu.ucRTUBuf after.rtu.ucRTUBuf
  line : ∃ pdus : List (List INT8U), after.rtu.line = s.rtu.line ++ pdus.flatMap (lineFrame s.ucMBAddress) ∧
    ∀ pdu ∈ pdus, 1 ≤ pdu.length ∧ pdu.length ≤ 253

theorem SlaveKept.refl {s : Slave} (waiting : Waiting s) : SlaveKept s s :=
  ⟨waiting, rfl, .refl _, rfl, .refl _, [], (List.append_nil _).symm, by simp⟩

theorem SlaveKept.trans {a b c : Slave} (first : SlaveKept a b) (second : SlaveKept b c) :
    SlaveKept a c := by
  obtain ⟨pdus, line, lengths⟩ := first.line
  obtain ⟨more, lineAfter, lengthsAfter⟩ := second.line
  refine ⟨second.waiting, second.ucMBAddress.trans first.ucMBAddress, first.regs.trans second.regs,
    second.usMBSlaveIDLen.trans first.usMBSlaveIDLen, first.buf.trans second.buf, pdus ++ more, ?_, ?_⟩
  · rw [lineAfter, line, first.ucMBAddress, List.flatMap_append, List.append_assoc]
  · intro pdu member
    rcases List.mem_append.mp member with here | there
    · exact lengths pdu here
    · exact lengthsAfter pdu there

/-- The call of the handler that the search finds, or of none. -/
theorem callHandler_kept {s : Slave} (frame : s.ucMBFrame = 1)
    (short : 1 ≤ s.usLength.toNat ∧ s.usLength.toNat ≤ 253)
    (id : s.node.usMBSlaveIDLen.toNat < mbFuncOtherRepSlaveidBuf) :
    HandlerKept s.node s.rtu.ucRTUBuf (callHandler s) := by
  unfold callHandler
  rw [frame]
  split
  · exact call_kept _ short id
  · exact handlerKept_refused _ short

theorem errorFrame_kept {node : SlaveNode} {buf : Memory} {h : Handled} (kept : HandlerKept node buf h)
    (ucFunctionCode : INT8U) : KeptFrom 256 buf (errorFrame ucFunctionCode 1 h).1 ∧
      1 ≤ (errorFrame ucFunctionCode 1 h).2.toNat ∧ (errorFrame ucFunctionCode 1 h).2.toNat ≤ 253 := by
  have two : 1 ≤ (2 : INT16U).toNat ∧ (2 : INT16U).toNat ≤ 253 := by decide
  unfold errorFrame
  split
  · exact ⟨keptFrom_byte (keptFrom_byte kept.buf (by decide) _) (by decide) _, two⟩
  · exact ⟨kept.buf, kept.usLen⟩

theorem sends_buf (s : Slave) : (sends s).rtu.ucRTUBuf = s.rtu.ucRTUBuf := by
  rw [sends_eq]
  split
  · exact transmitAll_buf _ _
  · rfl

theorem execute_kept {s loaded : Slave} {address : INT8U} {pdu : List INT8U}
    (load : Loaded s address pdu loaded) (received : KeptFrom 256 s.rtu.ucRTUBuf loaded.rtu.ucRTUBuf)
    (length : 1 ≤ pdu.length ∧ pdu.length ≤ 253)
    (id : s.node.usMBSlaveIDLen.toNat < mbFuncOtherRepSlaveidBuf) :
    SlaveKept s (sends (pollExecute loaded)) := by
  have still := load.unmoved
  have short : 1 ≤ loaded.usLength.toNat ∧ loaded.usLength.toNat ≤ 253 := by
    rw [load.usLength, toNat_count length.2]
    exact length
  have kept := callHandler_kept load.ucMBFrame short (by rw [still.node]; exact id)
  have regs := kept.regs
  have slaveID := kept.usMBSlaveIDLen
  rw [still.node] at regs slaveID
  have node : (sends (pollExecute loaded)).node = (callHandler loaded).node :=
    (sends_node _).trans (pollExecute_node loaded)
  rw [← node] at regs slaveID
  by_cases all : address = mbAddressBroadcast
  · have outcome := execute_broadcast load all
    have executed : (pollExecute loaded).rtu.ucRTUBuf = (callHandler loaded).buf := by
      unfold pollExecute
      dsimp only
      rw [if_neg (not_not_intro (load.ucRcvAddress.trans all))]
    refine ⟨outcome.waiting, outcome.ucMBAddress, regs, slaveID, ?_, [], outcome.line, by simp⟩
    rw [sends_buf, executed]
    exact received.trans kept.buf
  · obtain ⟨answer, sent⟩ := errorFrame_kept kept (loaded.rtu.ucRTUBuf 1)
    have outcome := execute_own load all (by rw [answered, length_slice]; exact sent.2)
    refine ⟨outcome.waiting, outcome.ucMBAddress, regs, slaveID, ?_,
      [answered (loaded.rtu.ucRTUBuf 1) 1 (callHandler loaded)], ?_, ?_⟩
    · rw [sends_buf, pollExecute_own load all]
      exact (received.trans answer).trans (eMBRTUSend_kept { loaded.rtu with
        ucRTUBuf := (errorFrame (loaded.rtu.ucRTUBuf 1) 1 (callHandler loaded)).1 } _ sent.2)
    · rw [List.flatMap_singleton]
      exact outcome.line
    · intro pdu member
      rw [List.mem_singleton.mp member, answered, length_slice]
      exact sent

/-- What one run does, whatever it is. -/
theorem hears_kept {s : Slave} (waiting : Waiting s)
    (id : s.node.usMBSlaveIDLen.toNat < mbFuncOtherRepSlaveidBuf) (run : List INT8U) :
    SlaveKept s (hears s run) := by
  have received : KeptFrom 256 s.rtu.ucRTUBuf (heard s run).rtu.ucRTUBuf := takes_kept s.rtu run
  by_cases ours : ∃ address pdu, decodeFrame run = some (address, pdu) ∧
      (address = s.ucMBAddress ∨ address = mbAddressBroadcast)
  · obtain ⟨address, pdu, decoded, ours⟩ := ours
    obtain ⟨-, length⟩ := (decodeFrame_eq_some_iff run address pdu).mp decoded
    obtain ⟨loaded, load, rtu, outcome⟩ := hears_addressed waiting decoded ours
    rw [← rtu] at received
    rw [outcome]
    exact execute_kept load received length id
  · obtain ⟨still, rtu⟩ := hears_ignored waiting fun address pdu decoded =>
      not_or.mp fun mine => ours ⟨address, pdu, decoded, mine⟩
    rw [← rtu] at received
    refine ⟨still.waiting, still.ucMBAddress, ?_, ?_, received, [], ?_, by simp⟩
    · rw [still.node]
      exact .refl _
    · rw [still.node]
    · rw [still.line]
      exact (List.append_nil _).symm

theorem hears_kept_all {s : Slave} (waiting : Waiting s)
    (id : s.node.usMBSlaveIDLen.toNat < mbFuncOtherRepSlaveidBuf) (runs : List (List INT8U)) :
    SlaveKept s (runs.foldl hears s) := by
  induction runs generalizing s with
  | nil => exact .refl waiting
  | cons run runs ih =>
    have first := hears_kept waiting id run
    exact first.trans (ih first.waiting (by rw [first.usMBSlaveIDLen]; exact id))

/-- From its start, whatever runs arrive, the slave writes no byte behind its buffer, no
register behind its tables but the byte behind the coils, and no input; and all that it
sends are line frames from its address. -/
theorem slave_keeps (s : Slave) (ucSlaveAddress : INT8U) (table : s.table = xFuncHandlers)
    (transmitter : s.rtu.eSndState = .txIdle) (one : ucSlaveAddress ≠ mbAddressBroadcast)
    (inside : ucSlaveAddress ≤ mbAddressMax)
    (id : s.node.usMBSlaveIDLen.toNat < mbFuncOtherRepSlaveidBuf) (runs : List (List INT8U)) :
    let after := runs.foldl hears (started s ucSlaveAddress)
    RegsKept s.node.regs after.node.regs ∧ KeptFrom mbSerPduSizeMax s.rtu.ucRTUBuf after.rtu.ucRTUBuf ∧
      ∃ pdus : List (List INT8U), after.rtu.line = s.rtu.line ++ pdus.flatMap (lineFrame ucSlaveAddress) ∧
        ∀ pdu ∈ pdus, 1 ≤ pdu.length ∧ pdu.length ≤ 253 := by
  obtain ⟨waiting, own, node, line, buf⟩ := started_waiting table transmitter one inside
  have kept := hears_kept_all waiting (by rw [node]; exact id) runs
  have regs := kept.regs
  have memory := kept.buf
  obtain ⟨pdus, sent, lengths⟩ := kept.line
  rw [node] at regs
  rw [buf] at memory
  rw [own, line] at sent
  exact ⟨regs, memory, pdus, sent, lengths⟩

/-- A write of one coil, the last one, with all eight bits of its byte set. -/
theorem slave_keeps_lastCoil :
    let runs := [lineFrame 7 [15, 0, 63, 0, 1, 1, 0xFF]]
    let after := runs.foldl hears (started powerOn 7)
    RegsKept powerOn.node.regs after.node.regs ∧
      KeptFrom mbSerPduSizeMax powerOn.rtu.ucRTUBuf after.rtu.ucRTUBuf ∧
      ∃ pdus : List (List INT8U), after.rtu.line = powerOn.rtu.line ++ pdus.flatMap (lineFrame 7) ∧
        ∀ pdu ∈ pdus, 1 ≤ pdu.length ∧ pdu.length ≤ 253 :=
  slave_keeps powerOn 7 rfl rfl (by decide) (by decide) (by decide)
    [lineFrame 7 [15, 0, 63, 0, 1, 1, 0xFF]]

end GasSub.Guarantees.SlaveSafety
