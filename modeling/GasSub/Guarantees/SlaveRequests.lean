import GasSub.Library.ModbusProtocol
import GasSub.Source.MbSlave

/-!
# The slave answers requests as a Modbus device does

The function handlers of the slave against the application protocol: with a request in the
buffer a handler leaves the registers and the reply that the device has for it.
-/
namespace GasSub.Guarantees.SlaveRequests
open GasSub.Source
open GasSub.Library.BitArray GasSub.Library.ByteMemory GasSub.Library.ByteWord GasSub.Library.Cells
open GasSub.Library.ModbusProtocol

/-- The tables of the slave. -/
def deviceOf (regs : SlaveRegs) : Device where
  discretes := bitAt regs.ucSDiscInBuf 0
  coils := bitAt regs.ucSCoilBuf 0
  inputs := regs.usSRegInBuf
  holdings := regs.usSRegHoldBuf

def slaveSizes : Sizes where
  discretes := sDiscreteInputNdiscretes
  coils := sCoilNcoils
  inputs := sRegInputNregs
  holdings := sRegHoldingNregs

def slaveLimits : Limits where
  readBits := 0x07CF
  readHoldings := 0x007D
  readInputs := 0x007C
  writeCoils := 0x07B0
  writeHoldings := 0x0078
  readWriteRead := 0x7D
  readWriteWrite := 0x79

/-- The PDU that is sent after a handler. -/
def answered (ucFunctionCode : INT8U) (pucFrame : Nat) (h : Handled) : List INT8U :=
  slice (errorFrame ucFunctionCode pucFrame h).1 pucFrame (errorFrame ucFunctionCode pucFrame h).2.toNat

/-! ### Fields of a request -/

theorem placed_word {buf : Memory} {a : Nat} {v : INT16U} {rest : List INT8U} :
    Placed buf a (bigEndian v ++ rest) ↔ frameWord buf a = v ∧ Placed buf (a + 2) rest := by
  rw [bigEndian, List.cons_append, placed_cons, List.cons_append, placed_cons, ← and_assoc]
  refine and_congr_left fun _ => ?_
  rw [frameWord]
  constructor
  · rintro ⟨high, low⟩
    rw [high, low]
    exact join16_bytes v
  · intro word
    exact (join16_inj _ _ _ _).mp (word.trans (join16_bytes v).symm)

theorem inBlock_zero_iff (usAddress usCount : INT16U) (count : Nat) :
    InBlock usAddress usCount 0 count ↔ usAddress.toNat + usCount.toNat ≤ count := by
  unfold InBlock
  simp

/-! ### Exceptions -/

theorem answered_refused {h : Handled} {e : EMBException} (ucFunctionCode : INT8U) (pucFrame : Nat)
    (status : h.eStatus = e) (failed : e ≠ .exNone) :
    answered ucFunctionCode pucFrame h = [ucFunctionCode ||| 0x80, e.value] := by
  have frame : errorFrame ucFunctionCode pucFrame h =
      (store (store h.buf pucFrame [ucFunctionCode ||| mbFuncError]) (pucFrame + 1) [e.value], 2) := by
    rw [errorFrame, status, if_pos failed]
  have bytes := placed_replace h.buf pucFrame
    [ucFunctionCode ||| mbFuncError, e.value]
  have both : store (store h.buf pucFrame [ucFunctionCode ||| mbFuncError]) (pucFrame + 1) [e.value] =
      replace h.buf pucFrame [ucFunctionCode ||| mbFuncError, e.value] :=
    (replace_append h.buf pucFrame [ucFunctionCode ||| mbFuncError] [e.value]).symm
  rw [answered, frame, both]
  exact bytes

theorem answered_granted {h : Handled} {bytes : List INT8U} (ucFunctionCode : INT8U) (pucFrame : Nat)
    (status : h.eStatus = .exNone) (length : h.usLen.toNat = bytes.length)
    (placed : Placed h.buf pucFrame bytes) : answered ucFunctionCode pucFrame h = bytes := by
  have frame : errorFrame ucFunctionCode pucFrame h = (h.buf, h.usLen) := by
    rw [errorFrame, status, if_neg (not_not_intro rfl)]
  rw [answered, frame, length]
  exact placed

/-! ### Reading -/

/-- What a callback that reads does for a request about `count` cells of a table of `size`:
the data goes behind the two bytes of the head. -/
structure Reads (callback : Memory → EMBError × Memory) (p size : Nat) (address count : INT16U)
    (payload : List INT8U) : Prop where
  granted : address.toNat + count.toNat ≤ size → ∀ m, (callback m).1 = .enoerr ∧
    Placed (callback m).2 (p + 2) payload ∧ ∀ a < p + 2, (callback m).2 a = m a
  refused : ¬ address.toNat + count.toNat ≤ size → ∀ m, callback m = (.enoreg, m)

theorem readFunction_answered {f : ReadFunction} {node : SlaveNode} {buf : Memory} {p : Nat}
    {address count : INT16U} {payload : List INT8U} {limit size : Nat}
    (request : frameWord buf (p + 1) = address) (counts : f.count buf (p + 3) = count)
    (valid : f.valid count = decide (1 ≤ count.toNat ∧ count.toNat ≤ limit))
    (bytes : address.toNat + count.toNat ≤ size →
      (f.bytes count).toNat = payload.length ∧ payload.length ≤ 252)
    (reads : Reads (fun m => f.callback node.regs m (p + 2) (address + 1) count) p size address count
      payload) :
    (readFunction f node buf p 5).node = node ∧
      answered f.functionCode p (readFunction f node buf p 5) =
        answer f.functionCode (fault limit size address.toNat count.toNat) payload := by
  have length : (5 : INT16U) = 4 + 1 := rfl
  unfold readFunction fault
  rw [if_pos length, counts, request]
  dsimp only
  rw [valid]
  by_cases accepted : 1 ≤ count.toNat ∧ count.toNat ≤ limit
  · rw [decide_eq_true accepted, if_pos rfl, if_neg (not_not_intro accepted)]
    refine ⟨rfl, ?_⟩
    generalize head : store (store buf p [f.functionCode]) (p + 1) [(f.bytes count).setWidth 8] = m
    by_cases inside : address.toNat + count.toNat ≤ size
    · obtain ⟨total, short⟩ := bytes inside
      obtain ⟨status, data, kept⟩ := reads.granted inside m
      have width : (f.bytes count).setWidth 8 = BitVec.ofNat 8 payload.length := by
        rw [← total, BitVec.ofNat_toNat]
      rw [if_pos inside]
      refine answered_granted _ _ (by rw [status]; rfl) ?_ ?_
      · have two : (2 : INT16U).toNat = 2 := rfl
        rw [if_neg (not_not_intro status), BitVec.toNat_add, two, total, answer, counted,
          List.length_cons, List.length_cons]
        omega
      · have code : m p = f.functionCode := by
          rw [← head, store_outside _ _ _ _ (Or.inl (Nat.lt_succ_self p)), store_byte_self]
        have number : m (p + 1) = BitVec.ofNat 8 payload.length := by
          rw [← head, store_byte_self, width]
        rw [answer, counted, placed_cons, placed_cons]
        exact ⟨(kept p (by omega)).trans code, (kept (p + 1) (by omega)).trans number, data⟩
    · rw [if_neg inside]
      refine answered_refused (e := .exIllegalDataAddress) _ _ ?_ (by decide)
      rw [reads.refused inside m]
      rfl
  · rw [decide_eq_false accepted, if_neg Bool.false_ne_true, if_pos accepted]
    refine ⟨rfl, ?_⟩
    exact answered_refused (e := .exIllegalDataValue) _ _ rfl (by decide)

theorem toNat_bitBytes {usCoilCount : INT16U} (few : usCoilCount.toNat ≤ 2000) :
    (bitBytes usCoilCount).toNat = (usCoilCount.toNat + 7) / 8 := by
  have eighth : (usCoilCount / 8).toNat = usCoilCount.toNat / 8 := BitVec.toNat_udiv
  have low : (usCoilCount &&& 0x0007).toNat = usCoilCount.toNat % 8 := by
    rw [BitVec.toNat_and]
    exact Nat.and_two_pow_sub_one_eq_mod usCoilCount.toNat 3
  have zero_iff : usCoilCount &&& 0x0007 = 0 ↔ usCoilCount.toNat % 8 = 0 := by
    rw [← low, ← BitVec.toNat_inj]
    rfl
  unfold bitBytes
  by_cases whole : usCoilCount &&& 0x0007 = 0
  · have none := zero_iff.mp whole
    rw [if_neg (not_not_intro whole), BitVec.toNat_setWidth, eighth]
    omega
  · have some : usCoilCount.toNat % 8 ≠ 0 := fun zero => whole (zero_iff.mpr zero)
    have one : (1 : INT16U).toNat = 1 := rfl
    rw [if_pos whole, BitVec.toNat_setWidth, BitVec.toNat_add, eighth, one]
    omega

/-- The number of bytes of packed bits, as the code computes it. -/
theorem bitBytes_length {values : List Bool} (few : values.length ≤ 2000) :
    bitBytes (BitVec.ofNat 16 values.length) = BitVec.ofNat 8 (packBits values).length := by
  have many : (BitVec.ofNat 16 values.length).toNat = values.length := by
    rw [BitVec.toNat_ofNat]
    omega
  apply BitVec.eq_of_toNat_eq
  rw [toNat_bitBytes (by rw [many]; omega), many, length_packBits, BitVec.toNat_ofNat]
  omega

theorem reads_registers {cells : Nat → INT16U} {p size : Nat}
    {address count : INT16U} {callback : Memory → EMBError × Memory}
    (called : ∀ m, callback m = if InBlock (address + 1 - 1) count 0 size then
      (.enoerr, regsToBuffer cells count.toNat (address + 1 - 1).toNat m (p + 2)) else (.enoreg, m)) :
    Reads callback p size address count ((slice cells address.toNat count.toNat).flatMap bigEndian) := by
  have same : address + 1 - 1 = address := BitVec.add_sub_cancel address 1
  simp only [same, inBlock_zero_iff] at called
  constructor
  · intro inside m
    rw [called, if_pos inside, regsToBuffer_eq]
    refine ⟨rfl, placed_replace m _ _, fun a before => ?_⟩
    exact store_outside m (p + 2) a _ (Or.inl before)
  · intro outside m
    rw [called, if_neg outside]

theorem reads_bits {bits : Memory} {p size : Nat} {address count : INT16U}
    {callback : Memory → EMBError × Memory}
    (called : ∀ m, callback m = if InBlock (address + 1 - 1) count 0 size then
      (.enoerr, readBits bits 0 (address + 1 - 1) count m (p + 2)) else (.enoreg, m)) :
    Reads callback p size address count (packBits (slice (bitAt bits 0) address.toNat count.toNat)) := by
  have same : address + 1 - 1 = address := BitVec.add_sub_cancel address 1
  simp only [same, inBlock_zero_iff] at called
  constructor
  · intro inside m
    rw [called, if_pos inside]
    exact ⟨rfl, placed_readBits bits 0 address count m (p + 2), fun a before =>
      readBits_before bits 0 address count m before⟩
  · intro outside m
    rw [called, if_neg outside]

/-- A handler leaves what the device leaves, and what is sent after it is the device's reply. -/
structure Served (node : SlaveNode) (r : Request) (p : Nat) (h : Handled) : Prop where
  device : deviceOf h.node.regs = (r.serve slaveSizes slaveLimits (deviceOf node.regs)).1
  reply : answered r.code p h = (r.serve slaveSizes slaveLimits (deviceOf node.regs)).2.pdu r
  slaveID : h.node.ucMBSlaveID = node.ucMBSlaveID ∧ h.node.usMBSlaveIDLen = node.usMBSlaveIDLen

/-- Two words behind the function code. -/
theorem placed_two {buf : Memory} {p : Nat} {code : INT8U} {first second : INT16U} :
    Placed buf p (code :: (bigEndian first ++ bigEndian second)) ↔
      buf p = code ∧ frameWord buf (p + 1) = first ∧ frameWord buf (p + 3) = second := by
  rw [placed_cons, placed_word, ← List.append_nil (bigEndian second), placed_word]
  simp [placed_nil]

theorem between_iff (count most : INT16U) :
    1 ≤ count ∧ count ≤ most ↔ 1 ≤ count.toNat ∧ count.toNat ≤ most.toNat :=
  and_congr BitVec.le_def BitVec.le_def

theorem valid_lt (count : INT16U) {bound : INT16U} (positive : 0 < bound.toNat) :
    decide (1 ≤ count ∧ count < bound) = decide (1 ≤ count.toNat ∧ count.toNat ≤ bound.toNat - 1) :=
  decide_eq_decide.mpr (and_congr BitVec.le_def
    (BitVec.lt_def.trans (Nat.le_sub_one_iff_lt positive).symm))

theorem length_registers (cells : Nat → INT16U) {address count : INT16U}
    (inside : address.toNat + count.toNat ≤ 100) :
    (count * 2).toNat = ((slice cells address.toNat count.toNat).flatMap bigEndian).length ∧
      ((slice cells address.toNat count.toNat).flatMap bigEndian).length ≤ 252 := by
  have two : (2 : INT16U).toNat = 2 := rfl
  rw [length_flatMap_bigEndian, length_slice, BitVec.toNat_mul, two]
  omega

theorem length_bits (cells : Nat → Bool) {address count : INT16U}
    (inside : address.toNat + count.toNat ≤ 64) :
    ((bitBytes count).setWidth 16).toNat = (packBits (slice cells address.toNat count.toNat)).length ∧
      (packBits (slice cells address.toNat count.toNat)).length ≤ 252 := by
  rw [length_packBits, length_slice, BitVec.toNat_setWidth, toNat_bitBytes (by omega)]
  omega

section
variable {node : SlaveNode} {buf : Memory} {p : Nat} {address count : INT16U}

/-- A request that reads and gets `values`. -/
theorem served_words {r : Request} {h : Handled} {e : Option INT8U} {values : List INT16U}
    (serve : r.serve slaveSizes slaveLimits (deviceOf node.regs) =
      (deviceOf node.regs, granted e (.words values)))
    (read : h.node = node ∧ answered r.code p h = answer r.code e (values.flatMap bigEndian)) :
    Served node r p h where
  device := by rw [serve, read.1]
  reply := by rw [serve, read.2, pdu_granted_words]
  slaveID := by rw [read.1]; exact ⟨rfl, rfl⟩

theorem served_bits {r : Request} {h : Handled} {e : Option INT8U} {values : List Bool}
    (serve : r.serve slaveSizes slaveLimits (deviceOf node.regs) =
      (deviceOf node.regs, granted e (.bits values)))
    (read : h.node = node ∧ answered r.code p h = answer r.code e (packBits values)) :
    Served node r p h where
  device := by rw [serve, read.1]
  reply := by rw [serve, read.2, pdu_granted_bits]
  slaveID := by rw [read.1]; exact ⟨rfl, rfl⟩

theorem eMBFuncReadHoldingRegister_served
    (request : Placed buf p (Request.readHoldings address count).pdu) (byte : count.toNat < 256) :
    Served node (.readHoldings address count) p (eMBFuncReadHoldingRegister node buf p 5) := by
  obtain ⟨-, first, second⟩ := placed_two.mp request
  have low : (buf (p + 3 + 1)).setWidth 16 = count := by
    have word : (join16 (buf (p + 3)) (buf (p + 3 + 1))).toNat = count.toNat := congrArg _ second
    have small := (buf (p + 3 + 1)).isLt
    rw [toNat_join16] at word
    apply BitVec.eq_of_toNat_eq
    rw [BitVec.toNat_setWidth]
    omega
  refine served_words rfl (readFunction_answered first low (decide_eq_decide.mpr (between_iff count 0x7D)) (length_registers _)
    (reads_registers fun m => ?_))
  unfold eMBRegHoldingCB
  dsimp only
  by_cases inside : InBlock (address + 1 - 1) count sRegHoldingStart sRegHoldingNregs
  · rw [if_pos inside]
    exact (if_pos inside).symm
  · rw [if_neg inside]
    exact (if_neg inside).symm

theorem eMBFuncReadInputRegister_served
    (request : Placed buf p (Request.readInputs address count).pdu) :
    Served node (.readInputs address count) p (eMBFuncReadInputRegister node buf p 5) := by
  obtain ⟨-, first, second⟩ := placed_two.mp request
  exact served_words rfl (readFunction_answered first second (valid_lt count (by decide))
    (length_registers _) (reads_registers fun m => rfl))

theorem eMBFuncReadCoils_served (request : Placed buf p (Request.readCoils address count).pdu) :
    Served node (.readCoils address count) p (eMBFuncReadCoils node buf p 5) := by
  obtain ⟨-, first, second⟩ := placed_two.mp request
  refine served_bits rfl (readFunction_answered first second (valid_lt count (by decide))
    (length_bits _) (reads_bits fun m => ?_))
  unfold eMBRegCoilsCB
  dsimp only
  by_cases inside : InBlock (address + 1 - 1) count sCoilStart sCoilNcoils
  · rw [if_pos inside]
    exact (if_pos inside).symm
  · rw [if_neg inside]
    exact (if_neg inside).symm

theorem eMBFuncReadDiscreteInputs_served
    (request : Placed buf p (Request.readDiscretes address count).pdu) :
    Served node (.readDiscretes address count) p (eMBFuncReadDiscreteInputs node buf p 5) := by
  obtain ⟨-, first, second⟩ := placed_two.mp request
  exact served_bits rfl (readFunction_answered first second (valid_lt count (by decide))
    (fun inside => length_bits _ (Nat.le_trans inside (by decide))) (reads_bits fun m => rfl))

/-! ### Writing -/

/-- What a handler that writes `count` cells leaves: the buffer as it was, and with no fault
the registers written. -/
def writeOutcome (node : SlaveNode) (buf : Memory) (usLen : INT16U) (written : SlaveRegs)
    (limit size address count : Nat) : Handled :=
  if ¬ (1 ≤ count ∧ count ≤ limit) then ⟨.exIllegalDataValue, node, buf, usLen⟩
  else if address + count ≤ size then ⟨.exNone, { node with regs := written }, buf, 5⟩
  else ⟨.exIllegalDataAddress, node, buf, usLen⟩

theorem placed_take {m : Memory} {a : Nat} {values : List INT8U} (k : Nat) (placed : Placed m a values) :
    Placed m a (values.take k) := by
  rw [← List.take_append_drop k values, placed_append] at placed
  exact placed.1

/-- What is confirmed is the head of the request. -/
theorem served_written {r : Request} {usLen : INT16U} (written : SlaveRegs) {limit size a n : Nat}
    (serve : r.serve slaveSizes slaveLimits (deviceOf node.regs) =
      (if fault limit size a n = none then deviceOf written else deviceOf node.regs,
        granted (fault limit size a n) .done))
    (request : Placed buf p r.pdu) (long : 5 ≤ r.pdu.length) :
    Served node r p (writeOutcome node buf usLen written limit size a n) := by
  have head := placed_take 5 request
  have five : (r.pdu.take 5).length = 5 := List.length_take_of_le long
  unfold writeOutcome
  by_cases valid : 1 ≤ n ∧ n ≤ limit
  · by_cases inside : a + n ≤ size
    · rw [if_neg (not_not_intro valid), if_pos inside]
      rw [(fault_eq_none_iff limit size a n).mpr ⟨valid, inside⟩, if_pos rfl] at serve
      exact ⟨by rw [serve], by rw [serve]; exact answered_granted _ _ rfl five.symm head, rfl, rfl⟩
    · rw [if_neg (not_not_intro valid), if_neg inside]
      rw [fault_outside valid inside, if_neg (Option.some_ne_none _)] at serve
      have refused := answered_refused (e := .exIllegalDataAddress)
        (h := ⟨.exIllegalDataAddress, node, buf, usLen⟩) r.code p rfl (by decide)
      exact ⟨by rw [serve], by rw [serve]; exact refused, rfl, rfl⟩
  · rw [if_pos valid]
    rw [fault_invalid valid, if_neg (Option.some_ne_none _)] at serve
    have refused := answered_refused (e := .exIllegalDataValue)
      (h := ⟨.exIllegalDataValue, node, buf, usLen⟩) r.code p rfl (by decide)
    exact ⟨by rw [serve], by rw [serve]; exact refused, rfl, rfl⟩

theorem eMBRegHoldingCB_write (address count : INT16U) (regs : SlaveRegs) {pucRegBuffer : Nat} {values : List INT16U}
    (placed : Placed buf pucRegBuffer (values.flatMap bigEndian)) (counted : count.toNat = values.length) :
    eMBRegHoldingCB regs buf pucRegBuffer (address + 1) count .regWrite =
      if address.toNat + values.length ≤ 100 then
        (.enoerr, { regs with usSRegHoldBuf := replace regs.usSRegHoldBuf address.toNat values }, buf)
      else (.enoreg, regs, buf) := by
  have same : address + 1 - 1 = address := BitVec.add_sub_cancel address 1
  unfold eMBRegHoldingCB
  dsimp only
  rw [same, counted, bufferToRegs_eq placed, ← counted]
  exact if_congr (inBlock_zero_iff address count 100) rfl rfl

theorem eMBRegCoilsCB_write (address count : INT16U) (regs : SlaveRegs) {pucRegBuffer : Nat} {values : List Bool}
    (placed : Placed buf pucRegBuffer (packBits values)) (counted : count.toNat = values.length) :
    ∃ written, bitAt written 0 = replace (bitAt regs.ucSCoilBuf 0) address.toNat values ∧
      eMBRegCoilsCB regs buf pucRegBuffer (address + 1) count .regWrite =
        if address.toNat + values.length ≤ 64 then (.enoerr, { regs with ucSCoilBuf := written }, buf)
        else (.enoreg, regs, buf) := by
  have same : address + 1 - 1 = address := BitVec.add_sub_cancel address 1
  refine ⟨writeBits buf pucRegBuffer address count regs.ucSCoilBuf 0,
    bitAt_writeBits_packed placed counted address regs.ucSCoilBuf 0, ?_⟩
  unfold eMBRegCoilsCB
  dsimp only
  rw [same, ← counted]
  exact if_congr (inBlock_zero_iff address count 64) rfl rfl

theorem eMBFuncWriteHoldingRegister_served {value : INT16U}
    (request : Placed buf p (Request.writeHolding address value).pdu) :
    Served node (.writeHolding address value) p (eMBFuncWriteHoldingRegister node buf p 5) := by
  obtain ⟨-, first, second⟩ := placed_two.mp request
  have data : Placed buf (p + 3) ([value].flatMap bigEndian) := by
    rw [List.flatMap_singleton, ← List.append_nil (bigEndian value)]
    exact placed_word.mpr ⟨second, placed_nil⟩
  have called := eMBRegHoldingCB_write address 1 node.regs data rfl
  have outcome : eMBFuncWriteHoldingRegister node buf p 5 = writeOutcome node buf 5
      { node.regs with usSRegHoldBuf := replace node.regs.usSRegHoldBuf address.toNat [value] } 1 100
      address.toNat 1 := by
    unfold eMBFuncWriteHoldingRegister writeOutcome
    rw [if_pos (show (5 : INT16U) = 4 + 1 from rfl), first]
    dsimp only
    rw [called]
    by_cases inside : address.toNat + [value].length ≤ 100
    · rw [if_pos inside]
      exact (if_pos inside).symm
    · rw [if_neg inside]
      exact (if_neg inside).symm
  rw [outcome]
  exact served_written _ rfl request (Nat.le_refl 5)

/-- A request with a block of data. -/
theorem placed_block {code : INT8U} {first second : INT16U} {bytes : List INT8U}
    (request : Placed buf p (code :: (bigEndian first ++ bigEndian second ++ counted bytes))) :
    frameWord buf (p + 1) = first ∧ frameWord buf (p + 3) = second ∧
      buf (p + 5) = BitVec.ofNat 8 bytes.length ∧ Placed buf (p + 6) bytes := by
  rw [placed_cons, List.append_assoc, placed_word, placed_word, counted, placed_cons] at request
  exact request.2

theorem toNat_count {n : Nat} (few : n ≤ 253) : (BitVec.ofNat 16 n).toNat = n := by
  rw [BitVec.toNat_ofNat]
  omega

theorem eMBFuncWriteMultipleHoldingRegister_served {values : List INT16U}
    (request : Placed buf p (Request.writeHoldings address values).pdu)
    (sized : (Request.writeHoldings address values).pdu.length ≤ 253) :
    Served node (.writeHoldings address values) p (eMBFuncWriteMultipleHoldingRegister node buf p
      (BitVec.ofNat 16 (Request.writeHoldings address values).pdu.length)) := by
  have length := length_writeHoldings address values
  obtain ⟨first, second, number, data⟩ := placed_block request
  have many : (BitVec.ofNat 16 values.length).toNat = values.length := toNat_count (by omega)
  have called := eMBRegHoldingCB_write address _ node.regs data many
  have enough : BitVec.ofNat 16 (Request.writeHoldings address values).pdu.length ≥ 5 + 1 := by
    rw [ge_iff_le, BitVec.le_def, toNat_count sized, length]
    exact Nat.le_add_right 6 _
  have check : 1 ≤ BitVec.ofNat 16 values.length ∧ BitVec.ofNat 16 values.length ≤ 0x0078 ↔
      1 ≤ values.length ∧ values.length ≤ 0x0078 := by
    rw [between_iff, many]
    rfl
  have agrees : buf (p + 5) = (2 * BitVec.ofNat 16 values.length).setWidth 8 := by
    have two : (2 : INT16U).toNat = 2 := rfl
    apply BitVec.eq_of_toNat_eq
    rw [number, length_flatMap_bigEndian, BitVec.toNat_ofNat, BitVec.toNat_setWidth, BitVec.toNat_mul,
      many, two]
    omega
  have outcome : eMBFuncWriteMultipleHoldingRegister node buf p
      (BitVec.ofNat 16 (Request.writeHoldings address values).pdu.length) = writeOutcome node buf
      (BitVec.ofNat 16 (Request.writeHoldings address values).pdu.length)
      { node.regs with usSRegHoldBuf := replace node.regs.usSRegHoldBuf address.toNat values } 0x0078 100
      address.toNat values.length := by
    unfold eMBFuncWriteMultipleHoldingRegister writeOutcome
    rw [if_pos enough, first, second]
    dsimp only
    rw [called]
    by_cases valid : 1 ≤ values.length ∧ values.length ≤ 0x0078
    · obtain ⟨one, most⟩ := check.mpr valid
      rw [if_pos ⟨one, most, agrees⟩, if_neg (not_not_intro valid)]
      by_cases inside : address.toNat + values.length ≤ 100
      · rw [if_pos inside, if_pos inside]
        rfl
      · rw [if_neg inside, if_neg inside]
        rfl
    · rw [if_neg fun all => valid (check.mp ⟨all.1, all.2.1⟩), if_pos valid]
  rw [outcome]
  exact served_written _ rfl request (by rw [length]; omega)

/-- The fields of a request that writes a coil, and the coil as the callback gets it. -/
theorem placed_coil {value : Bool} (request : Placed buf p (Request.writeCoil address value).pdu) :
    frameWord buf (p + 1) = address ∧
      (buf (p + 4) = 0x00 ∧ (buf (p + 3) = 0xFF ∨ buf (p + 3) = 0x00)) ∧
      Placed (coilBuf (buf (p + 3))) 0 (packBits [value]) := by
  obtain ⟨-, first, second⟩ := placed_two.mp request
  obtain ⟨high, low⟩ : buf (p + 3) = (if value then 0xFF else 0x00) ∧ buf (p + 4) = 0x00 := by
    have word : join16 (if value then 0xFF else 0x00) 0x00 = if value then 0xFF00 else 0x0000 := by
      cases value <;> decide
    exact (join16_inj _ _ _ _).mp ((show join16 (buf (p + 3)) (buf (p + 4)) = _ from second).trans word.symm)
  rw [high, low]
  exact ⟨first, by cases value <;> decide, by cases value <;> decide⟩

theorem eMBFuncWriteCoil_served {value : Bool}
    (request : Placed buf p (Request.writeCoil address value).pdu) :
    Served node (.writeCoil address value) p (eMBFuncWriteCoil node buf p 5) := by
  obtain ⟨first, accepted, data⟩ := placed_coil request
  obtain ⟨written, coils, called⟩ :=
    eMBRegCoilsCB_write address 1 node.regs data rfl
  have outcome : eMBFuncWriteCoil node buf p 5 = writeOutcome node buf 5
      { node.regs with ucSCoilBuf := written } 1 64 address.toNat 1 := by
    unfold eMBFuncWriteCoil writeOutcome
    rw [if_pos (show (5 : INT16U) = 4 + 1 from rfl), first]
    dsimp only
    rw [if_pos accepted, called]
    by_cases inside : address.toNat + [value].length ≤ 64
    · rw [if_pos inside]
      exact (if_pos inside).symm
    · rw [if_neg inside]
      exact (if_neg inside).symm
  have device : deviceOf { node.regs with ucSCoilBuf := written } =
      { deviceOf node.regs with coils := replace (deviceOf node.regs).coils address.toNat [value] } := by
    rw [deviceOf, coils]
    rfl
  rw [outcome]
  refine served_written _ ?_ request (Nat.le_refl 5)
  rw [device]
  rfl

theorem eMBFuncWriteMultipleCoils_served {values : List Bool}
    (request : Placed buf p (Request.writeCoils address values).pdu)
    (sized : (Request.writeCoils address values).pdu.length ≤ 253) :
    Served node (.writeCoils address values) p (eMBFuncWriteMultipleCoils node buf p
      (BitVec.ofNat 16 (Request.writeCoils address values).pdu.length)) := by
  have length := length_writeCoils address values
  obtain ⟨first, second, number, data⟩ := placed_block request
  have many : (BitVec.ofNat 16 values.length).toNat = values.length := by
    rw [BitVec.toNat_ofNat]
    omega
  have enough : BitVec.ofNat 16 (Request.writeCoils address values).pdu.length > 4 + 1 := by
    rw [gt_iff_lt, BitVec.lt_def, toNat_count sized, length]
    exact Nat.lt_add_right _ (Nat.lt_succ_self 5)
  have check : 1 ≤ BitVec.ofNat 16 values.length ∧ BitVec.ofNat 16 values.length ≤ 0x07B0 ↔
      1 ≤ values.length ∧ values.length ≤ 0x07B0 := by
    rw [between_iff, many]
    rfl
  have agrees : bitBytes (BitVec.ofNat 16 values.length) = buf (p + 5) := by
    rw [number]
    exact bitBytes_length (by omega)
  obtain ⟨written, coils, called⟩ := eMBRegCoilsCB_write address _ node.regs data many
  have outcome : eMBFuncWriteMultipleCoils node buf p
      (BitVec.ofNat 16 (Request.writeCoils address values).pdu.length) = writeOutcome node buf
      (BitVec.ofNat 16 (Request.writeCoils address values).pdu.length)
      { node.regs with ucSCoilBuf := written } 0x07B0 64 address.toNat values.length := by
    unfold eMBFuncWriteMultipleCoils writeOutcome
    rw [if_pos enough, first, second]
    dsimp only
    rw [called]
    by_cases valid : 1 ≤ values.length ∧ values.length ≤ 0x07B0
    · obtain ⟨one, most⟩ := check.mpr valid
      rw [if_pos ⟨one, most, agrees⟩, if_neg (not_not_intro valid)]
      by_cases inside : address.toNat + values.length ≤ 64
      · rw [if_pos inside, if_pos inside]
        rfl
      · rw [if_neg inside, if_neg inside]
        rfl
    · rw [if_neg fun all => valid (check.mp ⟨all.1, all.2.1⟩), if_pos valid]
  have device : deviceOf { node.regs with ucSCoilBuf := written } =
      { deviceOf node.regs with coils := replace (deviceOf node.regs).coils address.toNat values } := by
    rw [deviceOf, coils]
    rfl
  rw [outcome]
  refine served_written _ ?_ request (by rw [length]; omega)
  rw [device]
  rfl

/-! ### Reading and writing -/

theorem eMBRegHoldingCB_read (regs : SlaveRegs) (buf : Memory) (pucRegBuffer : Nat) :
    eMBRegHoldingCB regs buf pucRegBuffer (address + 1) count .regRead =
      if address.toNat + count.toNat ≤ 100 then (.enoerr, regs, store buf pucRegBuffer
        ((slice regs.usSRegHoldBuf address.toNat count.toNat).flatMap bigEndian))
      else (.enoreg, regs, buf) := by
  have same : address + 1 - 1 = address := BitVec.add_sub_cancel address 1
  unfold eMBRegHoldingCB
  dsimp only
  rw [same, regsToBuffer_eq]
  exact if_congr (inBlock_zero_iff address count 100) rfl rfl

/-- The fields of a request that reads and writes. -/
theorem placed_readWrite {start : INT16U} {values : List INT16U}
    (request : Placed buf p (Request.readWrite address count start values).pdu) :
    frameWord buf (p + 1) = address ∧ frameWord buf (p + 3) = count ∧ frameWord buf (p + 5) = start ∧
      frameWord buf (p + 7) = BitVec.ofNat 16 values.length ∧
      buf (p + 9) = BitVec.ofNat 8 (values.flatMap bigEndian).length ∧
      Placed buf (p + 10) (values.flatMap bigEndian) := by
  rw [Request.pdu, Request.fields, placed_cons, List.append_assoc, List.append_assoc, List.append_assoc,
    placed_word, placed_word, placed_word, placed_word, counted, placed_cons] at request
  exact request.2

/-- The answer with the registers that were read. -/
theorem answered_registers {h : Handled} {m : Memory} {payload : List INT8U} (ucFunctionCode : INT8U)
    (status : h.eStatus = .exNone) (length : h.usLen.toNat = 2 + payload.length)
    (left : h.buf = store (store (store m p [ucFunctionCode]) (p + 1) [BitVec.ofNat 8 payload.length])
      (p + 2) payload) :
    answered ucFunctionCode p h = ucFunctionCode :: counted payload := by
  refine answered_granted _ _ status ?_ ?_
  · rw [length, counted, List.length_cons, List.length_cons]
    omega
  · have whole := replace_append m p [ucFunctionCode] (BitVec.ofNat 8 payload.length :: payload)
    have rest := replace_append (replace m p [ucFunctionCode]) (p + 1) [BitVec.ofNat 8 payload.length]
      payload
    have same : h.buf = replace m p (ucFunctionCode :: counted payload) :=
      left.trans (whole.trans rest).symm
    rw [same]
    exact placed_replace _ _ _

theorem served_refused {r : Request} {h : Handled} (e : EMBException) (failed : e ≠ .exNone)
    (serve : r.serve slaveSizes slaveLimits (deviceOf node.regs) =
      (deviceOf h.node.regs, .refused e.value)) (status : h.eStatus = e)
    (slaveID : h.node.ucMBSlaveID = node.ucMBSlaveID ∧ h.node.usMBSlaveIDLen = node.usMBSlaveIDLen) :
    Served node r p h where
  device := by rw [serve]
  reply := by
    rw [serve]
    exact answered_refused _ _ status failed
  slaveID := slaveID

theorem eMBFuncReadWriteMultipleHoldingRegister_served {start : INT16U} {values : List INT16U}
    (request : Placed buf p (Request.readWrite address count start values).pdu)
    (sized : (Request.readWrite address count start values).pdu.length ≤ 253) :
    Served node (.readWrite address count start values) p
      (eMBFuncReadWriteMultipleHoldingRegister node buf p
        (BitVec.ofNat 16 (Request.readWrite address count start values).pdu.length)) := by
  have length := length_readWrite address count start values
  obtain ⟨first, second, third, fourth, number, data⟩ := placed_readWrite request
  have many : (BitVec.ofNat 16 values.length).toNat = values.length := toNat_count (by omega)
  have called := eMBRegHoldingCB_write start _ node.regs data many
  have enough : BitVec.ofNat 16 (Request.readWrite address count start values).pdu.length ≥ 9 + 1 := by
    rw [ge_iff_le, BitVec.le_def, toNat_count sized, length]
    exact Nat.le_add_right 10 _
  have check : 1 ≤ BitVec.ofNat 16 values.length ∧ BitVec.ofNat 16 values.length ≤ 0x79 ↔
      1 ≤ values.length ∧ values.length ≤ 0x79 := by
    rw [between_iff, many]
    rfl
  have agrees : 2 * (BitVec.ofNat 16 values.length).toNat = (buf (p + 9)).toNat := by
    rw [many, number, length_flatMap_bigEndian, BitVec.toNat_ofNat]
    omega
  unfold eMBFuncReadWriteMultipleHoldingRegister
  rw [if_pos enough, first, second, third, fourth]
  dsimp only
  rw [called]
  by_cases asked : 1 ≤ count.toNat ∧ count.toNat ≤ 0x7D
  · obtain ⟨one, most⟩ := (between_iff count 0x7D).mpr asked
    by_cases valid : 1 ≤ values.length ∧ values.length ≤ 0x79
    · obtain ⟨some, few⟩ := check.mpr valid
      rw [if_pos ⟨one, most, some, few, agrees⟩]
      by_cases inside : start.toNat + values.length ≤ 100
      · have nothing : fault slaveLimits.readWriteWrite slaveSizes.holdings start.toNat values.length =
            none := (fault_eq_none_iff 0x79 100 start.toNat values.length).mpr ⟨valid, inside⟩
        have serve : (Request.readWrite address count start values).serve slaveSizes slaveLimits
            (deviceOf node.regs) = _ := serve_readWrite_written (deviceOf node.regs) asked nothing
        rw [if_pos inside, if_pos rfl]
        dsimp only
        rw [eMBRegHoldingCB_read]
        by_cases readable : address.toNat + count.toNat ≤ 100
        · rw [if_pos readable]
          have nothing : fault slaveLimits.readWriteRead slaveSizes.holdings address.toNat count.toNat =
            none := (fault_eq_none_iff 0x7D 100 address.toNat count.toNat).mpr ⟨asked, readable⟩
          have two : (2 : INT16U).toNat = 2 := rfl
          obtain ⟨total, short⟩ := length_registers
            (replace (deviceOf node.regs).holdings start.toNat values) readable
          have length : (2 + 2 * count).toNat = 2 + (count * 2).toNat := by
            rw [BitVec.mul_comm 2 count, BitVec.toNat_add, two]
            omega
          rw [nothing] at serve
          refine ⟨by rw [serve]; rfl, ?_, rfl, rfl⟩
          rw [serve]
          refine answered_registers (m := buf) mbFuncReadwriteMultipleRegisters rfl ?_ ?_
          · rw [← total]
            exact length
          · rw [← total, BitVec.ofNat_toNat]
            rfl
        · have refused : fault slaveLimits.readWriteRead slaveSizes.holdings address.toNat count.toNat =
            _ := fault_outside asked readable
          rw [refused] at serve
          rw [if_neg readable]
          exact served_refused .exIllegalDataAddress (by decide) serve rfl ⟨rfl, rfl⟩
      · rw [if_neg inside]
        exact served_refused .exIllegalDataAddress (by decide)
          (serve_readWrite_refused asked (fault_outside valid inside)) rfl ⟨rfl, rfl⟩
    · rw [if_neg fun all => valid (check.mp ⟨all.2.2.1, all.2.2.2.1⟩)]
      exact served_refused .exIllegalDataValue (by decide)
        (serve_readWrite_refused asked (fault_invalid valid)) rfl ⟨rfl, rfl⟩
  · rw [if_neg fun all => asked ((between_iff count 0x7D).mp ⟨all.1, all.2.1⟩)]
    exact served_refused .exIllegalDataValue (by decide) (serve_readWrite_invalid asked) rfl ⟨rfl, rfl⟩

end

/-! ### The length of a reply -/

theorem length_answer_le {code : INT8U} {e : Option INT8U} {payload : List INT8U}
    (short : e = none → payload.length ≤ 251) : (answer code e payload).length ≤ 253 := by
  cases e with
  | none =>
    have few := short rfl
    rw [answer, counted, List.length_cons, List.length_cons]
    omega
  | some exception => exact Nat.le_add_left 2 251

theorem length_done_le (r : Request) (e : Option INT8U) : ((granted e .done).pdu r).length ≤ 253 := by
  cases e with
  | none =>
    have five := List.length_take_le 5 r.pdu
    rw [granted, Reply.pdu]
    omega
  | some exception => exact Nat.le_add_left 2 251

theorem length_words_le (r : Request) {limit size a n : Nat} (cells : Nat → INT16U) (small : size ≤ 100) :
    ((granted (fault limit size a n) (.words (slice cells a n))).pdu r).length ≤ 253 := by
  rw [pdu_granted_words]
  refine length_answer_le fun none => ?_
  have inside := ((fault_eq_none_iff limit size a n).mp none).2
  rw [length_flatMap_bigEndian, length_slice]
  omega

theorem length_bits_le (r : Request) {limit size a n : Nat} (cells : Nat → Bool) (small : size ≤ 64) :
    ((granted (fault limit size a n) (.bits (slice cells a n))).pdu r).length ≤ 253 := by
  rw [pdu_granted_bits]
  refine length_answer_le fun none => ?_
  have inside := ((fault_eq_none_iff limit size a n).mp none).2
  rw [length_packBits, length_slice]
  omega

/-- Every reply of the slave fits a line frame. -/
theorem length_reply_le (d : Device) (r : Request) :
    ((r.serve slaveSizes slaveLimits d).2.pdu r).length ≤ 253 := by
  cases r with
  | readCoils address count => exact length_bits_le _ d.coils (Nat.le_refl 64)
  | readDiscretes address count => exact length_bits_le _ d.discretes (by decide)
  | readHoldings address count => exact length_words_le _ d.holdings (Nat.le_refl 100)
  | readInputs address count => exact length_words_le _ d.inputs (Nat.le_refl 100)
  | writeCoil address value => exact length_done_le _ _
  | writeHolding address value => exact length_done_le _ _
  | writeCoils address values => exact length_done_le _ _
  | writeHoldings address values => exact length_done_le _ _
  | readWrite address count start values =>
    by_cases valid : 1 ≤ count.toNat ∧ count.toNat ≤ slaveLimits.readWriteRead
    · cases wrote : fault slaveLimits.readWriteWrite slaveSizes.holdings start.toNat values.length with
      | none =>
        rw [serve_readWrite_written _ valid wrote]
        exact length_words_le _ _ (Nat.le_refl 100)
      | some exception =>
        rw [serve_readWrite_refused valid wrote]
        exact Nat.le_add_left 2 251
    · rw [serve_readWrite_invalid valid]
      exact Nat.le_add_left 2 251

end GasSub.Guarantees.SlaveRequests
