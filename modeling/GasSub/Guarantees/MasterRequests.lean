import GasSub.Guarantees.SlaveRequests
import GasSub.Library.ModbusMirror
import GasSub.Source.MbMaster

/-!
# The master puts requests together and notes the answers

The request functions of the master leave the data unit of the request they stand for in the
send buffer, and with the reply of a device in the receive buffer the handlers bring into
the row of the device what the reply tells, and into no other row anything.
-/
namespace GasSub.Guarantees.MasterRequests
open GasSub.Source
open GasSub.Library.BitArray GasSub.Library.ByteMemory GasSub.Library.ByteWord GasSub.Library.Cells
open GasSub.Library.ModbusMirror GasSub.Library.ModbusProtocol
open GasSub.Guarantees.SlaveRequests

/-! ### The rows -/

/-- What the master knows of the slave with the address `dest`. -/
def copyOf (regs : MasterRegs) (dest : INT8U) : Device where
  discretes := bitAt regs.ucMDiscInBuf (masterRow 2 dest)
  coils := bitAt regs.ucMCoilBuf (masterRow 8 dest)
  inputs i := regs.usMRegInBuf (masterRow 100 dest + i)
  holdings i := regs.usMRegHoldBuf (masterRow 100 dest + i)

/-- The row of `dest` is `d`, and the others are as before. -/
structure RowIs (before : MasterRegs) (dest : INT8U) (d : Device) (after : MasterRegs) : Prop where
  row : copyOf after dest = d
  others : ∀ b, b ≠ dest → Agree (within slaveSizes) (copyOf after b) (copyOf before b)

theorem RowIs.refl (regs : MasterRegs) (dest : INT8U) : RowIs regs dest (copyOf regs dest) regs :=
  ⟨rfl, fun _ _ => .refl _ _⟩

theorem RowIs.trans {before between after : MasterRegs} {dest : INT8U} {d e : Device}
    (first : RowIs before dest d between) (second : RowIs between dest e after) :
    RowIs before dest e after :=
  ⟨second.row, fun b other => (second.others b other).trans (first.others b other)⟩

theorem row_apart {dest b : INT8U} (other : b ≠ dest) :
    dest.toNat + 1 ≤ b.toNat ∨ b.toNat + 1 ≤ dest.toNat := by
  have apart : b.toNat ≠ dest.toNat := fun same => other (BitVec.eq_of_toNat_eq same)
  omega

/-- Cells replaced in the row of `dest`, seen from there. -/
theorem replace_row (cells : Nat → INT16U) (row start : Nat) (values : List INT16U) :
    (fun i => replace cells (row + start) values (row + i)) =
      replace (fun i => cells (row + i)) start values := by
  refine replace_eq_of _ _ _ (fun i bound => ?_) fun i outside => ?_
  · rw [← Nat.add_assoc]
    exact replace_inside cells (row + start) values bound
  · exact replace_outside cells (row + start) values (by omega)

/-- Bits replaced in one row of `width` bytes leave the other rows as they are. -/
theorem bits_other {bits written : Memory} {width : Nat} {dest b : INT8U} (other : b ≠ dest)
    {start : Nat} {values : List Bool} (inside : start + values.length ≤ 8 * width)
    (row : bitAt written (masterRow width dest) =
      replace (bitAt bits (masterRow width dest)) start values)
    (before : ∀ a < masterRow width dest, written a = bits a) {i : Nat} (bound : i < 8 * width) :
    bitAt written (masterRow width b) i = bitAt bits (masterRow width b) i := by
  unfold masterRow at row before ⊢
  rcases row_apart other with behind | earlier
  · have steps := Nat.mul_le_mul_left width behind
    rw [Nat.mul_add, Nat.mul_one] at steps
    obtain ⟨q, more⟩ := Nat.exists_eq_add_of_le (Nat.le_of_add_right_le steps)
    rw [more, bitAt_add, bitAt_add, row]
    exact replace_outside _ _ _ (Or.inr (by omega))
  · have steps := Nat.mul_le_mul_left width earlier
    rw [Nat.mul_add, Nat.mul_one] at steps
    rw [bitAt, bitAt, before _ (by omega)]

/-! ### The callbacks -/

section
variable (dest : INT8U) (regs : MasterRegs) {buf : Memory} {p : Nat} (address count : INT16U)

/-- A callback that is asked for cells that there are. -/
theorem eMBMasterRegHoldingCB_row {values : List INT16U} (eMode : EMBRegisterMode)
    (placed : Placed buf p (values.flatMap bigEndian)) (many : count.toNat = values.length)
    (inside : address.toNat + values.length ≤ 100) :
    ∃ after, eMBMasterRegHoldingCB dest regs buf p (address + 1) count eMode = (.enoerr, after) ∧
      RowIs regs dest (put (copyOf regs dest) .holdings address.toNat values) after := by
  have same : address + 1 - 1 = address := BitVec.add_sub_cancel address 1
  have block : InBlock address count mRegHoldingStart mRegHoldingNregs :=
    (inBlock_zero_iff _ _ _).mpr (by rw [many]; exact inside)
  refine ⟨{ regs with
    usMRegHoldBuf := replace regs.usMRegHoldBuf (masterRow 100 dest + address.toNat) values }, ?_, ?_, ?_⟩
  · unfold eMBMasterRegHoldingCB
    dsimp only
    rw [same, if_pos block, many, bufferToRegs_eq placed]
    rfl
  · simp only [copyOf, put, replace_row]
  · rintro b other ⟨t, i⟩ bound
    cases t with
    | holdings =>
      have small : i < 100 := bound
      have apart := row_apart other
      exact replace_outside regs.usMRegHoldBuf _ values (by unfold masterRow; omega)
    | _ => rfl

theorem eMBMasterRegInputCB_row {values : List INT16U}
    (placed : Placed buf p (values.flatMap bigEndian)) (many : count.toNat = values.length)
    (inside : address.toNat + values.length ≤ 100) :
    ∃ after, eMBMasterRegInputCB dest regs buf p (address + 1) count = (.enoerr, after) ∧
      RowIs regs dest (put (copyOf regs dest) .inputs address.toNat values) after := by
  have same : address + 1 - 1 = address := BitVec.add_sub_cancel address 1
  have block : InBlock address count mRegInputStart mRegInputNregs :=
    (inBlock_zero_iff _ _ _).mpr (by rw [many]; exact inside)
  refine ⟨{ regs with
    usMRegInBuf := replace regs.usMRegInBuf (masterRow 100 dest + address.toNat) values }, ?_, ?_, ?_⟩
  · unfold eMBMasterRegInputCB
    dsimp only
    rw [same, if_pos block, many, bufferToRegs_eq placed]
    rfl
  · simp only [copyOf, put, replace_row]
  · rintro b other ⟨t, i⟩ bound
    cases t with
    | inputs =>
      have small : i < 100 := bound
      have apart := row_apart other
      exact replace_outside regs.usMRegInBuf _ values (by unfold masterRow; omega)
    | _ => rfl

theorem eMBMasterRegCoilsCB_row {values : List Bool} (eMode : EMBRegisterMode)
    (placed : Placed buf p (packBits values)) (many : count.toNat = values.length)
    (inside : address.toNat + values.length ≤ 64) :
    ∃ after, eMBMasterRegCoilsCB dest regs buf p (address + 1) count eMode = (.enoerr, after) ∧
      RowIs regs dest (put (copyOf regs dest) .coils address.toNat values) after := by
  have same : address + 1 - 1 = address := BitVec.add_sub_cancel address 1
  have block : InBlock address count mCoilStart mCoilNcoils :=
    (inBlock_zero_iff _ _ _).mpr (by rw [many]; exact inside)
  have row := bitAt_writeBits_packed placed many address regs.ucMCoilBuf (masterRow 8 dest)
  refine ⟨{ regs with
    ucMCoilBuf := writeBits buf p address count regs.ucMCoilBuf (masterRow 8 dest) }, ?_, ?_, ?_⟩
  · unfold eMBMasterRegCoilsCB
    dsimp only
    rw [same, if_pos block]
    rfl
  · simp only [copyOf, put, row]
  · rintro b other ⟨t, i⟩ bound
    cases t with
    | coils =>
      exact bits_other other inside row (fun a before => writeBits_before _ _ _ _ _ before) bound
    | _ => rfl

theorem eMBMasterRegDiscreteCB_row {values : List Bool}
    (placed : Placed buf p (packBits values)) (many : count.toNat = values.length)
    (inside : address.toNat + values.length ≤ 16) :
    ∃ after, eMBMasterRegDiscreteCB dest regs buf p (address + 1) count = (.enoerr, after) ∧
      RowIs regs dest (put (copyOf regs dest) .discretes address.toNat values) after := by
  have same : address + 1 - 1 = address := BitVec.add_sub_cancel address 1
  have block : InBlock address count mDiscreteInputStart mDiscreteInputNdiscretes :=
    (inBlock_zero_iff _ _ _).mpr (by rw [many]; exact inside)
  have row := bitAt_writeBits_packed placed many address regs.ucMDiscInBuf (masterRow 2 dest)
  refine ⟨{ regs with
    ucMDiscInBuf := writeBits buf p address count regs.ucMDiscInBuf (masterRow 2 dest) }, ?_, ?_, ?_⟩
  · unfold eMBMasterRegDiscreteCB
    dsimp only
    rw [same, if_pos block]
    rfl
  · simp only [copyOf, put, row]
  · rintro b other ⟨t, i⟩ bound
    cases t with
    | discretes =>
      exact bits_other other inside row (fun a before => writeBits_before _ _ _ _ _ before) bound
    | _ => rfl

end

/-! ### Putting a request together -/

/-- Values as a buffer of the application. -/
def wordsOf (values : List INT16U) : Nat → INT16U := fun i => values.getD i 0

def bytesOf (values : List INT8U) : Memory := fun i => values.getD i 0

/-- The function for a request. -/
def issue (m : MasterNode) (a : INT8U) : Request → Option (Except EMBMasterReqErrCode MasterNode)
  | .readCoils address count => eMBMasterReqReadCoils m a address count
  | .readDiscretes address count => eMBMasterReqReadDiscreteInputs m a address count
  | .readHoldings address count => eMBMasterReqReadHoldingRegister m a address count
  | .readInputs address count => eMBMasterReqReadInputRegister m a address count
  | .writeCoil address value => eMBMasterReqWriteCoil m a address (if value then 0xFF00 else 0x0000)
  | .writeHolding address value => eMBMasterReqWriteHoldingRegister m a address value
  | .writeCoils address values =>
    eMBMasterReqWriteMultipleCoils m a address (BitVec.ofNat 16 values.length) (bytesOf (packBits values))
  | .writeHoldings address values =>
    eMBMasterReqWriteMultipleHoldingRegister m a address (BitVec.ofNat 16 values.length) (wordsOf values)
  | .readWrite address count start values =>
    eMBMasterReqReadWriteMultipleHoldingRegister m a address count (wordsOf values) start
      (BitVec.ofNat 16 values.length)

/-- What a request function takes: with address and checksum the request fits the 253 bytes of the
send buffer, and a single coil has an address that the function lets through.
`eMBMasterReqWriteCoil` compares the address of the coil with the number of slaves, so that a
write of coil 20 is an illegal argument at any station. -/
structure Sendable (r : Request) : Prop where
  sized : r.pdu.length ≤ 250
  coil : ∀ address value, r = .writeCoil address value → address.toNat ≤ mbMasterTotalSlaveNum

theorem map_range_bytesOf (values : List INT8U) :
    (List.range values.length).map (bytesOf values) = values := by
  apply List.ext_getElem
  · rw [List.length_map, List.length_range]
  · intro i _ inside
    rw [List.getElem_map, List.getElem_range, bytesOf, List.getD_eq_getElem?_getD,
      List.getElem?_eq_getElem inside]
    rfl

theorem registerBytes_wordsOf {values : List INT16U} (few : values.length ≤ 253) :
    registerBytes (wordsOf values) (BitVec.ofNat 16 values.length) = values.flatMap bigEndian := by
  have all : (List.range values.length).map (wordsOf values) = values := by
    apply List.ext_getElem
    · rw [List.length_map, List.length_range]
    · intro i _ inside
      rw [List.getElem_map, List.getElem_range, wordsOf, List.getD_eq_getElem?_getD,
        List.getElem?_eq_getElem inside]
      rfl
  have split : (List.range values.length).flatMap (fun i => bigEndian (wordsOf values i)) =
      ((List.range values.length).map (wordsOf values)).flatMap bigEndian :=
    (List.flatMap_map (wordsOf values) bigEndian (List.range values.length)).symm
  rw [registerBytes, toNat_count few, split, all]

/-- The master with a request in its send buffer. -/
def issued (m : MasterNode) (a : INT8U) (r : Request) : MasterNode :=
  { m with
    xMasterRunRes := m.xMasterRunRes - 1
    ucMBMasterDestAddress := a
    rtu := { m.rtu with ucMasterRTUSndBuf := bufferOf 253 (store m.sndBuf 1 r.pdu) }
    usMasterSendPDULength := BitVec.ofNat 16 r.pdu.length }.post .frameSent

theorem masterRequest_issued {m : MasterNode} (a : INT8U) (r : Request) {illegal : Bool}
    (free : 0 < m.xMasterRunRes) (legal : illegal = false) {pucPDU : List INT8U} (same : pucPDU = r.pdu)
    {usLength : INT16U} (length : usLength = BitVec.ofNat 16 r.pdu.length) (sized : r.pdu.length ≤ 250) :
    masterRequest m illegal a pucPDU usLength = some (.ok (issued m a r)) := by
  unfold masterRequest xMBMasterRunResTake
  rw [legal, if_neg Bool.false_ne_true, if_pos free, same, length]
  exact if_pos (by omega)

/-- The request function leaves the request in the send buffer. -/
theorem issue_eq {m : MasterNode} {a : INT8U} {r : Request} (free : 0 < m.xMasterRunRes)
    (near : a.toNat ≤ mbMasterTotalSlaveNum) (sendable : Sendable r) :
    issue m a r = some (.ok (issued m a r)) := by
  have sized := sendable.sized
  have close : farSlave a = false := decide_eq_false (Nat.not_lt.mpr near)
  cases r with
  | readCoils address count => exact masterRequest_issued a _ free close rfl rfl sized
  | readDiscretes address count => exact masterRequest_issued a _ free close rfl rfl sized
  | readHoldings address count => exact masterRequest_issued a _ free close rfl rfl sized
  | readInputs address count => exact masterRequest_issued a _ free close rfl rfl sized
  | writeCoil address value =>
    refine masterRequest_issued a _ free (decide_eq_false ?_) rfl rfl sized
    have low := sendable.coil address value rfl
    rintro (high | ⟨one, zero⟩)
    · exact Nat.not_lt.mpr low high
    · cases value
      · exact zero rfl
      · exact one rfl
  | writeHolding address value => exact masterRequest_issued a _ free close rfl rfl sized
  | writeCoils address values =>
    have length := length_writeCoils address values
    have bytes : bitBytes (BitVec.ofNat 16 values.length) = BitVec.ofNat 8 (packBits values).length :=
      bitBytes_length (by omega)
    have count : (BitVec.ofNat 16 values.length).toNat = values.length := by
      rw [BitVec.toNat_ofNat]
      omega
    have number : (BitVec.ofNat 8 (packBits values).length : INT8U).toNat = (packBits values).length := by
      rw [BitVec.toNat_ofNat, length_packBits]
      omega
    refine masterRequest_issued a _ free ?_ ?_ ?_ sized
    · have few : ¬ (0x07B0 : INT16U) < BitVec.ofNat 16 values.length := by
        rw [BitVec.lt_def, count]
        have most : (0x07B0 : INT16U).toNat = 1968 := rfl
        omega
      rw [close]
      exact decide_eq_false fun either => either.elim Bool.false_ne_true few
    · rw [bytes, number, map_range_bytesOf]
      rfl
    · apply BitVec.eq_of_toNat_eq
      have six : (6 : INT16U).toNat = 6 := rfl
      rw [bytes, BitVec.toNat_add, BitVec.toNat_setWidth, number, length, BitVec.toNat_ofNat, six,
        length_packBits]
      omega
  | writeHoldings address values =>
    have length := length_writeHoldings address values
    have two : (2 : INT16U).toNat = 2 := rfl
    have six : (6 : INT16U).toNat = 6 := rfl
    have count : (BitVec.ofNat 16 values.length).toNat = values.length := toNat_count (by omega)
    have number : ((BitVec.ofNat 16 values.length * 2 : INT16U)).setWidth 8 =
        BitVec.ofNat 8 (values.flatMap bigEndian).length := by
      apply BitVec.eq_of_toNat_eq
      rw [BitVec.toNat_setWidth, BitVec.toNat_mul, count, two, BitVec.toNat_ofNat,
        length_flatMap_bigEndian]
      omega
    refine masterRequest_issued a _ free close ?_ ?_ sized
    · rw [number, registerBytes_wordsOf (by omega)]
      rfl
    · apply BitVec.eq_of_toNat_eq
      rw [BitVec.toNat_add, BitVec.toNat_mul, count, length, BitVec.toNat_ofNat, two, six]
      omega
  | readWrite address count start values =>
    have length := length_readWrite address count start values
    have two : (2 : INT16U).toNat = 2 := rfl
    have ten : (10 : INT16U).toNat = 10 := rfl
    have many : (BitVec.ofNat 16 values.length).toNat = values.length := toNat_count (by omega)
    have number : ((BitVec.ofNat 16 values.length * 2 : INT16U)).setWidth 8 =
        BitVec.ofNat 8 (values.flatMap bigEndian).length := by
      apply BitVec.eq_of_toNat_eq
      rw [BitVec.toNat_setWidth, BitVec.toNat_mul, many, two, BitVec.toNat_ofNat,
        length_flatMap_bigEndian]
      omega
    refine masterRequest_issued a _ free close ?_ ?_ sized
    · rw [number, registerBytes_wordsOf (by omega)]
      rfl
    · apply BitVec.eq_of_toNat_eq
      rw [BitVec.toNat_add, BitVec.toNat_mul, many, length, BitVec.toNat_ofNat, two, ten]
      omega

/-! ### Noting an answer -/

/-- A handler that accepts what it is given, or not, brings `d` into the row or nothing. -/
structure Notes (m : MasterNode) (buf : Memory) (usLen : INT16U) (accepted : Prop) (d : Device)
    (h : MasterHandled) : Prop where
  status : h.eStatus = .exNone ↔ accepted
  noted : accepted → RowIs m.regs m.ucMBMasterDestAddress d h.regs
  ignored : ¬ accepted → h.regs = m.regs
  buf : h.buf = buf
  usLen : h.usLen = usLen

section
variable {m : MasterNode} {buf : Memory} {usLen : INT16U} {d : Device}

theorem notes_accepted {accepted : Prop} {regs : MasterRegs} (yes : accepted)
    (row : RowIs m.regs m.ucMBMasterDestAddress d regs) :
    Notes m buf usLen accepted d ⟨exceptionOf .enoerr, regs, buf, usLen⟩ :=
  ⟨iff_of_true rfl yes, fun _ => row, fun no => absurd yes no, rfl, rfl⟩

theorem notes_refused {accepted : Prop} {e : EMBException} (failed : e ≠ .exNone) (no : ¬ accepted) :
    Notes m buf usLen accepted d ⟨e, m.regs, buf, usLen⟩ :=
  ⟨iff_of_false failed no, fun yes => absurd yes no, fun _ => rfl, rfl, rfl⟩

/-- The answer of a function that reads, behind its two bytes. -/
theorem masterRead_notes {f : MasterRead} {address count : INT16U} {code : INT8U} {payload : List INT8U}
    (single : m.rtu.xFrameIsBroadcast = false) (request : frameWord m.sndBuf 2 = address)
    (counts : f.count m.sndBuf 4 = count) (some : 1 ≤ count) (bytes : f.bytes count = payload.length)
    (short : payload.length ≤ 250) (reply : Placed buf 1 (code :: counted payload))
    (brought : Placed buf 3 payload → ∃ after,
      f.callback m.ucMBMasterDestAddress m.regs buf 3 (address + 1) count = (.enoerr, after) ∧
        RowIs m.regs m.ucMBMasterDestAddress d after) :
    Notes m buf (BitVec.ofNat 16 (code :: counted payload).length) True d
      (masterRead f m buf 1 (BitVec.ofNat 16 (code :: counted payload).length)) := by
  rw [counted, placed_cons, placed_cons] at reply
  obtain ⟨-, number, data⟩ := reply
  obtain ⟨after, called, row⟩ := brought data
  have long : BitVec.ofNat 16 (code :: counted payload).length ≥ 1 + 1 := by
    rw [ge_iff_le, BitVec.le_def, toNat_count (by rw [counted, List.length_cons, List.length_cons]; omega),
      counted, List.length_cons, List.length_cons]
    exact Nat.le_add_left 2 _
  have size : f.bytes count = (buf (1 + 1)).toNat := by
    rw [number, bytes, BitVec.toNat_ofNat]
    omega
  unfold masterRead
  rw [single, if_neg Bool.false_ne_true, if_pos long, request, counts]
  dsimp only
  rw [if_pos ⟨some, size⟩, called]
  exact notes_accepted trivial row

theorem one_le {count : INT16U} (some : 1 ≤ count.toNat) : 1 ≤ count := BitVec.le_def.mpr some

theorem lowByteCount_eq {a : Nat} {count : INT16U} (word : frameWord buf a = count)
    (small : count.toNat < 256) : lowByteCount buf a = count := by
  have joined : (join16 (buf a) (buf (a + 1))).toNat = count.toNat := congrArg _ word
  have byte := (buf (a + 1)).isLt
  rw [toNat_join16] at joined
  apply BitVec.eq_of_toNat_eq
  rw [lowByteCount, BitVec.toNat_setWidth]
  omega

section
variable {address count : INT16U} (single : m.rtu.xFrameIsBroadcast = false) (some : 1 ≤ count.toNat)
include single some

theorem eMBMasterFuncReadCoils_notes {values : List Bool} (many : count.toNat = values.length)
    (inside : address.toNat + count.toNat ≤ 64)
    (request : Placed m.sndBuf 1 (Request.readCoils address count).pdu)
    (reply : Placed buf 1 ((Reply.bits values).pdu (.readCoils address count))) :
    Notes m buf (BitVec.ofNat 16 ((Reply.bits values).pdu (.readCoils address count)).length) True
      (put (copyOf m.regs m.ucMBMasterDestAddress) .coils address.toNat values)
      (eMBMasterFuncReadCoils m buf 1
        (BitVec.ofNat 16 ((Reply.bits values).pdu (.readCoils address count)).length)) := by
  obtain ⟨-, first, second⟩ := placed_two.mp request
  refine masterRead_notes single first second (one_le some) ?_ ?_ reply fun data =>
    eMBMasterRegCoilsCB_row _ _ _ _ .regRead data many (by omega)
  · dsimp only
    rw [toNat_bitBytes (by omega), length_packBits, many]
  · rw [length_packBits]
    omega

theorem eMBMasterFuncReadDiscreteInputs_notes {values : List Bool} (many : count.toNat = values.length)
    (inside : address.toNat + count.toNat ≤ 16)
    (request : Placed m.sndBuf 1 (Request.readDiscretes address count).pdu)
    (reply : Placed buf 1 ((Reply.bits values).pdu (.readDiscretes address count))) :
    Notes m buf (BitVec.ofNat 16 ((Reply.bits values).pdu (.readDiscretes address count)).length) True
      (put (copyOf m.regs m.ucMBMasterDestAddress) .discretes address.toNat values)
      (eMBMasterFuncReadDiscreteInputs m buf 1
        (BitVec.ofNat 16 ((Reply.bits values).pdu (.readDiscretes address count)).length)) := by
  obtain ⟨-, first, second⟩ := placed_two.mp request
  refine masterRead_notes single first second (one_le some) ?_ ?_ reply fun data =>
    eMBMasterRegDiscreteCB_row _ _ _ _ data many (by omega)
  · dsimp only
    rw [toNat_bitBytes (by omega), length_packBits, many]
  · rw [length_packBits]
    omega

theorem eMBMasterFuncReadInputRegister_notes {values : List INT16U} (many : count.toNat = values.length)
    (inside : address.toNat + count.toNat ≤ 100)
    (request : Placed m.sndBuf 1 (Request.readInputs address count).pdu)
    (reply : Placed buf 1 ((Reply.words values).pdu (.readInputs address count))) :
    Notes m buf (BitVec.ofNat 16 ((Reply.words values).pdu (.readInputs address count)).length) True
      (put (copyOf m.regs m.ucMBMasterDestAddress) .inputs address.toNat values)
      (eMBMasterFuncReadInputRegister m buf 1
        (BitVec.ofNat 16 ((Reply.words values).pdu (.readInputs address count)).length)) := by
  obtain ⟨-, first, second⟩ := placed_two.mp request
  refine masterRead_notes single first (lowByteCount_eq second (by omega)) (one_le some) ?_ ?_ reply
    fun data => eMBMasterRegInputCB_row _ _ _ _ data many (by omega)
  · dsimp only
    rw [length_flatMap_bigEndian, many]
  · rw [length_flatMap_bigEndian]
    omega

theorem eMBMasterFuncReadHoldingRegister_notes {values : List INT16U} (many : count.toNat = values.length)
    (inside : address.toNat + count.toNat ≤ 100)
    (request : Placed m.sndBuf 1 (Request.readHoldings address count).pdu)
    (reply : Placed buf 1 ((Reply.words values).pdu (.readHoldings address count))) :
    Notes m buf (BitVec.ofNat 16 ((Reply.words values).pdu (.readHoldings address count)).length) True
      (put (copyOf m.regs m.ucMBMasterDestAddress) .holdings address.toNat values)
      (eMBMasterFuncReadHoldingRegister m buf 1
        (BitVec.ofNat 16 ((Reply.words values).pdu (.readHoldings address count)).length)) := by
  obtain ⟨-, first, second⟩ := placed_two.mp request
  refine masterRead_notes single first (lowByteCount_eq second (by omega)) (one_le some) ?_ ?_ reply
    fun data => eMBMasterRegHoldingCB_row _ _ _ _ .regRead data many (by omega)
  · dsimp only
    rw [length_flatMap_bigEndian, many]
  · rw [length_flatMap_bigEndian]
    omega

end

/-- Asked for cells that there are not. -/
theorem eMBMasterRegHoldingCB_refused (dest : INT8U) (regs : MasterRegs) (p : Nat) (address count : INT16U)
    (eMode : EMBRegisterMode) (outside : ¬ address.toNat + count.toNat ≤ 100) :
    eMBMasterRegHoldingCB dest regs buf p (address + 1) count eMode = (.enoreg, regs) := by
  have same : address + 1 - 1 = address := BitVec.add_sub_cancel address 1
  unfold eMBMasterRegHoldingCB
  dsimp only
  rw [same]
  exact if_neg fun block => outside ((inBlock_zero_iff address count 100).mp block)

theorem eMBMasterRegCoilsCB_refused (dest : INT8U) (regs : MasterRegs) (p : Nat) (address count : INT16U)
    (eMode : EMBRegisterMode) (outside : ¬ address.toNat + count.toNat ≤ 64) :
    eMBMasterRegCoilsCB dest regs buf p (address + 1) count eMode = (.enoreg, regs) := by
  have same : address + 1 - 1 = address := BitVec.add_sub_cancel address 1
  unfold eMBMasterRegCoilsCB
  dsimp only
  rw [same]
  exact if_neg fun block => outside ((inBlock_zero_iff address count 64).mp block)

section
variable {address : INT16U}

theorem eMBMasterFuncWriteHoldingRegister_notes {value : INT16U}
    (frame : Placed buf 1 (Request.writeHolding address value).pdu) :
    Notes m buf 5 (address.toNat + 1 ≤ 100)
      (put (copyOf m.regs m.ucMBMasterDestAddress) .holdings address.toNat [value])
      (eMBMasterFuncWriteHoldingRegister m buf 1 5) := by
  obtain ⟨-, first, -⟩ := placed_two.mp frame
  have data : Placed buf 4 ([value].flatMap bigEndian) := by
    rw [Request.pdu, Request.fields, placed_cons, placed_word] at frame
    rw [List.flatMap_singleton]
    exact frame.2.2
  unfold eMBMasterFuncWriteHoldingRegister
  rw [if_pos (show (5 : INT16U) = 1 + 4 from rfl), first]
  dsimp only
  by_cases inside : address.toNat + 1 ≤ 100
  · obtain ⟨after, called, row⟩ := eMBMasterRegHoldingCB_row m.ucMBMasterDestAddress m.regs address 1
      .regWrite data rfl inside
    rw [called]
    exact notes_accepted inside row
  · rw [eMBMasterRegHoldingCB_refused _ _ _ address 1 .regWrite inside]
    exact notes_refused (e := .exIllegalDataAddress) (by decide) inside

theorem eMBMasterFuncWriteCoil_notes {value : Bool}
    (frame : Placed buf 1 (Request.writeCoil address value).pdu) :
    Notes m buf 5 (address.toNat + 1 ≤ 64)
      (put (copyOf m.regs m.ucMBMasterDestAddress) .coils address.toNat [value])
      (eMBMasterFuncWriteCoil m buf 1 5) := by
  obtain ⟨first, valid, data⟩ := placed_coil frame
  unfold eMBMasterFuncWriteCoil
  rw [if_pos (show (5 : INT16U) = 4 + 1 from rfl), first]
  dsimp only
  rw [if_pos valid]
  by_cases inside : address.toNat + 1 ≤ 64
  · obtain ⟨after, called, row⟩ := eMBMasterRegCoilsCB_row m.ucMBMasterDestAddress m.regs address 1
      .regWrite data rfl inside
    rw [called]
    exact notes_accepted inside row
  · rw [eMBMasterRegCoilsCB_refused _ _ _ address 1 .regWrite inside]
    exact notes_refused (e := .exIllegalDataAddress) (by decide) inside

theorem eMBMasterFuncWriteMultipleHoldingRegister_notes {values : List INT16U}
    (request : Placed m.sndBuf 1 (Request.writeHoldings address values).pdu)
    (sized : (Request.writeHoldings address values).pdu.length ≤ 250)
    (confirmed : usLen = 1 + 4 ∨ m.rtu.xFrameIsBroadcast = true) :
    Notes m buf usLen (address.toNat + values.length ≤ 100)
      (put (copyOf m.regs m.ucMBMasterDestAddress) .holdings address.toNat values)
      (eMBMasterFuncWriteMultipleHoldingRegister m buf 1 usLen) := by
  have length := length_writeHoldings address values
  have many : (BitVec.ofNat 16 values.length).toNat = values.length := toNat_count (by omega)
  obtain ⟨first, second, number, data⟩ := placed_block request
  have agrees : (m.sndBuf 6).toNat = 2 * (BitVec.ofNat 16 values.length).toNat := by
    rw [number, many, BitVec.toNat_ofNat, length_flatMap_bigEndian]
    omega
  unfold eMBMasterFuncWriteMultipleHoldingRegister
  rw [if_pos confirmed, first, second]
  dsimp only
  rw [if_pos agrees]
  by_cases inside : address.toNat + values.length ≤ 100
  · obtain ⟨after, called, row⟩ := eMBMasterRegHoldingCB_row m.ucMBMasterDestAddress m.regs address _
      .regWrite data many inside
    rw [called]
    exact notes_accepted inside row
  · rw [eMBMasterRegHoldingCB_refused _ _ _ address _ .regWrite (by rw [many]; exact inside)]
    exact notes_refused (e := .exIllegalDataAddress) (by decide) inside

theorem eMBMasterFuncWriteMultipleCoils_notes {values : List Bool}
    (request : Placed m.sndBuf 1 (Request.writeCoils address values).pdu)
    (sized : (Request.writeCoils address values).pdu.length ≤ 250)
    (frame : Placed buf 1 ((Request.writeCoils address values).pdu.take 5))
    (confirmed : usLen = 5 ∨ m.rtu.xFrameIsBroadcast = true) :
    Notes m buf usLen (1 ≤ values.length ∧ address.toNat + values.length ≤ 64)
      (put (copyOf m.regs m.ucMBMasterDestAddress) .coils address.toNat values)
      (eMBMasterFuncWriteMultipleCoils m buf 1 usLen) := by
  have length := length_writeCoils address values
  have many : (BitVec.ofNat 16 values.length).toNat = values.length := by
    rw [BitVec.toNat_ofNat]
    omega
  obtain ⟨-, -, number, data⟩ := placed_block request
  have head : (Request.writeCoils address values).pdu.take 5 =
      (15 : INT8U) :: (bigEndian address ++ bigEndian (BitVec.ofNat 16 values.length)) := rfl
  rw [head] at frame
  obtain ⟨-, first, second⟩ := placed_two.mp frame
  have agrees : bitBytes (BitVec.ofNat 16 values.length) = m.sndBuf 6 :=
    (bitBytes_length (by omega)).trans number.symm
  unfold eMBMasterFuncWriteMultipleCoils
  rw [if_pos confirmed, first, second]
  dsimp only
  by_cases some : 1 ≤ values.length
  · rw [if_pos ⟨one_le (by rw [many]; exact some), agrees⟩]
    by_cases inside : address.toNat + values.length ≤ 64
    · obtain ⟨after, called, row⟩ := eMBMasterRegCoilsCB_row m.ucMBMasterDestAddress m.regs address _
        .regWrite data many inside
      rw [called]
      exact notes_accepted ⟨some, inside⟩ row
    · rw [eMBMasterRegCoilsCB_refused _ _ _ address _ .regWrite (by rw [many]; exact inside)]
      exact notes_refused (e := .exIllegalDataAddress) (by decide) fun all => inside all.2
  · have none : ¬ (BitVec.ofNat 16 values.length ≥ 1 ∧
        bitBytes (BitVec.ofNat 16 values.length) = m.sndBuf 6) := by
      rintro ⟨positive, -⟩
      have least := BitVec.le_def.mp positive
      rw [many] at least
      exact some least
    rw [if_neg none]
    exact notes_refused (e := .exIllegalDataValue) (by decide) fun all => some all.1

theorem eMBMasterFuncReadWriteMultipleHoldingRegister_notes {count start : INT16U}
    {written values : List INT16U} (single : m.rtu.xFrameIsBroadcast = false)
    (many : count.toNat = values.length) (readable : address.toNat + count.toNat ≤ 100)
    (writable : start.toNat + written.length ≤ 100)
    (request : Placed m.sndBuf 1 (Request.readWrite address count start written).pdu)
    (reply : Placed buf 1 ((Reply.words values).pdu (.readWrite address count start written))) :
    Notes m buf (BitVec.ofNat 16 ((Reply.words values).pdu (.readWrite address count start written)).length)
      True
      (put (put (copyOf m.regs m.ucMBMasterDestAddress) .holdings start.toNat written) .holdings
        address.toNat values)
      (eMBMasterFuncReadWriteMultipleHoldingRegister m buf 1
        (BitVec.ofNat 16 ((Reply.words values).pdu (.readWrite address count start written)).length)) := by
  obtain ⟨first, second, third, fourth, -, data⟩ := placed_readWrite request
  rw [Reply.pdu, counted] at reply ⊢
  obtain ⟨number, read⟩ := placed_cons.mp (placed_cons.mp reply).2
  have length : ((Request.readWrite address count start written).code ::
      BitVec.ofNat 8 (values.flatMap bigEndian).length :: values.flatMap bigEndian).length =
        2 + 2 * values.length := by
    rw [List.length_cons, List.length_cons, length_flatMap_bigEndian]
    omega
  have long : BitVec.ofNat 16 ((Request.readWrite address count start written).code ::
      BitVec.ofNat 8 (values.flatMap bigEndian).length :: values.flatMap bigEndian).length ≥ 1 + 1 := by
    rw [ge_iff_le, BitVec.le_def, toNat_count (by omega), length]
    exact Nat.le_add_right 2 _
  have agrees : 2 * count.toNat = (buf (1 + 1)).toNat := by
    rw [number, BitVec.toNat_ofNat, length_flatMap_bigEndian]
    omega
  obtain ⟨between, wrote, firstRow⟩ := eMBMasterRegHoldingCB_row m.ucMBMasterDestAddress m.regs start
    (BitVec.ofNat 16 written.length) .regWrite data (toNat_count (by omega)) writable
  obtain ⟨after, called, secondRow⟩ := eMBMasterRegHoldingCB_row m.ucMBMasterDestAddress between address
    count .regRead read many (by omega)
  unfold eMBMasterFuncReadWriteMultipleHoldingRegister
  rw [single, if_neg Bool.false_ne_true, if_pos long, first, second, third, fourth]
  dsimp only
  rw [if_pos agrees, wrote, if_pos rfl, called]
  rw [firstRow.row] at secondRow
  exact notes_accepted trivial (firstRow.trans secondRow)

end

/-! ### The handler of a request -/

def handlerOf : Request → MasterHandler
  | .readCoils _ _ => .readCoils
  | .readDiscretes _ _ => .readDiscreteInputs
  | .readHoldings _ _ => .readHoldingRegister
  | .readInputs _ _ => .readInputRegister
  | .writeCoil _ _ => .writeCoil
  | .writeHolding _ _ => .writeHoldingRegister
  | .writeCoils _ _ => .writeMultipleCoils
  | .writeHoldings _ _ => .writeMultipleHoldingRegister
  | .readWrite _ _ _ _ => .readWriteMultipleHoldingRegister

theorem findMasterHandler_code (r : Request) :
    findMasterHandler xMasterFuncHandlers r.code = some (handlerOf r) := by
  cases r <;> rfl

theorem Notes.congr {accepted accepted' : Prop} {d' : Device} {h : MasterHandled}
    (notes : Notes m buf usLen accepted d h) (same : accepted' ↔ accepted)
    (device : accepted → d' = d) : Notes m buf usLen accepted' d' h where
  status := notes.status.trans same.symm
  noted yes := by
    rw [device (same.mp yes)]
    exact notes.noted (same.mp yes)
  ignored no := notes.ignored fun yes => no (same.mpr yes)
  buf := notes.buf
  usLen := notes.usLen

theorem fault_of_granted {limit size a n : Nat} {reply : Reply}
    (granted : ∀ x, Library.ModbusProtocol.granted (fault limit size a n) reply ≠ .refused x) :
    fault limit size a n = none := by
  cases verdict : fault limit size a n with
  | none => rfl
  | some x => exact absurd (by rw [verdict]; rfl) (granted x)

/-- With the reply of a device that grants the request, the handler brings what it tells into
the row of the device. -/
theorem answered_notes (r : Request) {e : Device}
    (granted : ∀ x, (r.serve slaveSizes slaveLimits e).2 ≠ .refused x)
    (single : m.rtu.xFrameIsBroadcast = false) (request : Placed m.sndBuf 1 r.pdu)
    (sized : r.pdu.length ≤ 250)
    (reply : Placed buf 1 ((r.serve slaveSizes slaveLimits e).2.pdu r)) :
    Notes m buf (BitVec.ofNat 16 ((r.serve slaveSizes slaveLimits e).2.pdu r).length) True
      (learn (copyOf m.regs m.ucMBMasterDestAddress) r (r.serve slaveSizes slaveLimits e).2)
      ((handlerOf r).call m buf 1
        (BitVec.ofNat 16 ((r.serve slaveSizes slaveLimits e).2.pdu r).length)) := by
  cases r with
  | readCoils address count =>
    simp only [Request.serve] at granted reply ⊢
    have verdict := fault_of_granted granted
    rw [verdict] at reply ⊢
    obtain ⟨valid, inside⟩ := (fault_eq_none_iff _ _ _ _).mp verdict
    exact eMBMasterFuncReadCoils_notes single valid.1 (length_slice _ _ _).symm inside request reply
  | readDiscretes address count =>
    simp only [Request.serve] at granted reply ⊢
    have verdict := fault_of_granted granted
    rw [verdict] at reply ⊢
    obtain ⟨valid, inside⟩ := (fault_eq_none_iff _ _ _ _).mp verdict
    exact eMBMasterFuncReadDiscreteInputs_notes single valid.1 (length_slice _ _ _).symm inside request
      reply
  | readHoldings address count =>
    simp only [Request.serve] at granted reply ⊢
    have verdict := fault_of_granted granted
    rw [verdict] at reply ⊢
    obtain ⟨valid, inside⟩ := (fault_eq_none_iff _ _ _ _).mp verdict
    exact eMBMasterFuncReadHoldingRegister_notes single valid.1 (length_slice _ _ _).symm inside request
      reply
  | readInputs address count =>
    simp only [Request.serve] at granted reply ⊢
    have verdict := fault_of_granted granted
    rw [verdict] at reply ⊢
    obtain ⟨valid, inside⟩ := (fault_eq_none_iff _ _ _ _).mp verdict
    exact eMBMasterFuncReadInputRegister_notes single valid.1 (length_slice _ _ _).symm inside request
      reply
  | writeCoil address value =>
    simp only [Request.serve] at granted reply ⊢
    have verdict := fault_of_granted granted
    rw [verdict] at reply ⊢
    obtain ⟨-, inside⟩ := (fault_eq_none_iff _ _ _ _).mp verdict
    exact (eMBMasterFuncWriteCoil_notes reply).congr (iff_of_true trivial inside) fun _ => rfl
  | writeHolding address value =>
    simp only [Request.serve] at granted reply ⊢
    have verdict := fault_of_granted granted
    rw [verdict] at reply ⊢
    obtain ⟨-, inside⟩ := (fault_eq_none_iff _ _ _ _).mp verdict
    exact (eMBMasterFuncWriteHoldingRegister_notes reply).congr (iff_of_true trivial inside)
      fun _ => rfl
  | writeCoils address values =>
    simp only [Request.serve] at granted reply ⊢
    have verdict := fault_of_granted granted
    rw [verdict] at reply ⊢
    obtain ⟨valid, inside⟩ := (fault_eq_none_iff _ _ _ _).mp verdict
    exact (eMBMasterFuncWriteMultipleCoils_notes request sized reply (Or.inl rfl)).congr
      (iff_of_true trivial ⟨valid.1, inside⟩) fun _ => rfl
  | writeHoldings address values =>
    simp only [Request.serve] at granted reply ⊢
    have verdict := fault_of_granted granted
    rw [verdict] at reply ⊢
    obtain ⟨-, inside⟩ := (fault_eq_none_iff _ _ _ _).mp verdict
    exact (eMBMasterFuncWriteMultipleHoldingRegister_notes request sized (Or.inl rfl)).congr
      (iff_of_true trivial inside) fun _ => rfl
  | readWrite address count start values =>
    by_cases asked : 1 ≤ count.toNat ∧ count.toNat ≤ slaveLimits.readWriteRead
    · cases wrote : fault slaveLimits.readWriteWrite slaveSizes.holdings start.toNat values.length with
      | some x => exact absurd (by rw [serve_readWrite_refused asked wrote]) (granted x)
      | none =>
        rw [serve_readWrite_written e asked wrote] at granted reply ⊢
        have verdict := fault_of_granted granted
        rw [verdict] at reply ⊢
        obtain ⟨-, writable⟩ := (fault_eq_none_iff _ _ _ _).mp wrote
        obtain ⟨-, readable⟩ := (fault_eq_none_iff _ _ _ _).mp verdict
        exact eMBMasterFuncReadWriteMultipleHoldingRegister_notes single (length_slice _ _ _).symm
          readable writable request reply
    · exact absurd (by rw [serve_readWrite_invalid asked]) (granted illegalDataValue)

/-- After a request to all, with the request itself for a reply. -/
theorem toldAll_notes (r : Request) (all : m.rtu.xFrameIsBroadcast = true)
    (request : Placed m.sndBuf 1 r.pdu) (sized : r.pdu.length ≤ 250) :
    Notes m m.sndBuf (BitVec.ofNat 16 r.pdu.length) (endingForAll slaveSizes r = .done)
      (learnForAll slaveSizes (copyOf m.regs m.ucMBMasterDestAddress) r)
      ((handlerOf r).call m m.sndBuf 1 (BitVec.ofNat 16 r.pdu.length)) := by
  have nothing : ∀ (f : MasterRead) (usLen : INT16U), Notes m m.sndBuf usLen True
      (copyOf m.regs m.ucMBMasterDestAddress) (masterRead f m m.sndBuf 1 usLen) := by
    intro f usLen
    unfold masterRead
    rw [if_pos all]
    exact notes_accepted trivial (.refl _ _)
  have written : ∀ {noted : Prop} [Decidable noted], ((if noted then Ending.done else .refused) = .done) ↔
      noted := by
    intro noted _
    by_cases yes : noted
    · simp [yes]
    · simp [yes]
  cases r with
  | readCoils address count => exact (nothing _ _).congr (iff_of_true rfl trivial) fun _ => rfl
  | readDiscretes address count => exact (nothing _ _).congr (iff_of_true rfl trivial) fun _ => rfl
  | readHoldings address count => exact (nothing _ _).congr (iff_of_true rfl trivial) fun _ => rfl
  | readInputs address count => exact (nothing _ _).congr (iff_of_true rfl trivial) fun _ => rfl
  | writeCoil address value =>
    refine (eMBMasterFuncWriteCoil_notes request).congr ?_ fun inside => ?_
    · exact written.trans decide_eq_true_iff
    · exact if_pos (decide_eq_true inside)
  | writeHolding address value =>
    refine (eMBMasterFuncWriteHoldingRegister_notes request).congr ?_ fun inside => ?_
    · exact written.trans decide_eq_true_iff
    · exact if_pos (decide_eq_true inside)
  | writeCoils address values =>
    refine (eMBMasterFuncWriteMultipleCoils_notes request sized (placed_take 5 request) (Or.inr all)).congr
      ?_ fun inside => ?_
    · exact written.trans decide_eq_true_iff
    · exact if_pos (decide_eq_true inside)
  | writeHoldings address values =>
    refine (eMBMasterFuncWriteMultipleHoldingRegister_notes request sized (Or.inr all)).congr
      ?_ fun inside => ?_
    · exact written.trans decide_eq_true_iff
    · exact if_pos (decide_eq_true inside)
  | readWrite address count start values =>
    change Notes m m.sndBuf _ _ _ (eMBMasterFuncReadWriteMultipleHoldingRegister m m.sndBuf 1 _)
    unfold eMBMasterFuncReadWriteMultipleHoldingRegister
    rw [if_pos all]
    exact notes_accepted rfl (.refl _ _)

end

end GasSub.Guarantees.MasterRequests
