import GasSub.Source.MbUtils
import Mathlib.Logic.Function.Basic

/-!
# The registers of a Modbus node

`user_mb_app.c`: the discrete inputs, coils, input and holding registers of the slave and
the callbacks that read and write them. An array is a function of the index, the places
behind its last one are whatever lies there. The callbacks take the buffer of the caller
as memory and a place in it. The loops are shared with the master (`user_mb_app_m.c`).
-/
namespace GasSub.Source
open GasSub.Library.ByteMemory GasSub.Library.ByteWord GasSub.Library.BitArray
open GasSub.Library.Cells

def sDiscreteInputStart : Nat := 0
def sDiscreteInputNdiscretes : Nat := 16
def sCoilStart : Nat := 0
def sCoilNcoils : Nat := 64
def sRegInputStart : Nat := 0
def sRegInputNregs : Nat := 100
def sRegHoldingStart : Nat := 0
def sRegHoldingNregs : Nat := 100

/-- `eMBRegisterMode`. -/
inductive EMBRegisterMode where
  | regRead | regWrite
  deriving DecidableEq, Repr

structure SlaveRegs where
  ucSDiscInBuf : Memory
  ucSCoilBuf : Memory
  usSRegInBuf : Nat → INT16U
  usSRegHoldBuf : Nat → INT16U

/-- The check of all callbacks; the sum is computed in `int`. -/
def InBlock (usAddress usCount : INT16U) (start count : Nat) : Prop :=
  start ≤ usAddress.toNat ∧ usAddress.toNat + usCount.toNat ≤ start + count

instance (usAddress usCount : INT16U) (start count : Nat) :
    Decidable (InBlock usAddress usCount start count) := inferInstanceAs (Decidable (_ ∧ _))

/-! ### The loops -/

/-- Registers to the buffer, the high byte first. -/
def regsToBuffer (regs : Nat → INT16U) : (usNRegs iRegIndex : Nat) → Memory → Nat → Memory
  | 0, _, buf, _ => buf
  | n + 1, iRegIndex, buf, pucRegBuffer =>
    let buf := store buf pucRegBuffer [byteOf (regs iRegIndex) 1]
    let buf := store buf (pucRegBuffer + 1) [byteOf (regs iRegIndex) 0]
    regsToBuffer regs n (iRegIndex + 1) buf (pucRegBuffer + 2)

/-- Registers from the buffer. -/
def bufferToRegs (buf : Memory) : (usNRegs pucRegBuffer iRegIndex : Nat) → (Nat → INT16U) →
    Nat → INT16U
  | 0, _, _, regs => regs
  | n + 1, pucRegBuffer, iRegIndex, regs =>
    bufferToRegs buf n (pucRegBuffer + 2) (iRegIndex + 1)
      (Function.update regs iRegIndex (join16 (buf pucRegBuffer) (buf (pucRegBuffer + 1))))

/-- Eight bits at a time to the buffer. -/
def bitsToBuffer (bits : Memory) (iRegBitIndex : INT16U) : (iNReg iRegIndex : Nat) → Memory → Nat →
    Memory
  | 0, _, buf, _ => buf
  | n + 1, iRegIndex, buf, pucRegBuffer =>
    bitsToBuffer bits iRegBitIndex n (iRegIndex + 1)
      (store buf pucRegBuffer [xMBUtilGetBits bits iRegIndex iRegBitIndex 8]) (pucRegBuffer + 1)

/-- Eight bits at a time from the buffer. -/
def bufferToBits (buf : Memory) (iRegBitIndex : INT16U) : (iNReg pucRegBuffer iRegIndex : Nat) →
    Memory → Memory
  | 0, _, _, bits => bits
  | n + 1, pucRegBuffer, iRegIndex, bits =>
    bufferToBits buf iRegBitIndex n (pucRegBuffer + 1) (iRegIndex + 1)
      (xMBUtilSetBits bits iRegIndex iRegBitIndex 8 (buf pucRegBuffer))

/-- The bits are read with one byte more than there are whole ones, and what the last byte
has too much is shifted out. -/
def readBits (bits : Memory) (pucBitBuf : Nat) (usAddress usNBits : INT16U) (buf : Memory)
    (pucRegBuffer : Nat) : Memory :=
  let iNReg := usNBits.toNat / 8 + 1
  let iRegIndex := pucBitBuf + usAddress.toNat / 8
  let iRegBitIndex := usAddress % 8
  let buf := bitsToBuffer bits iRegBitIndex iNReg iRegIndex buf pucRegBuffer
  let last := pucRegBuffer + iNReg - 1
  let buf := store buf last [buf last <<< (8 - usNBits.toNat % 8)]
  store buf last [buf last >>> (8 - usNBits.toNat % 8)]

/-- The whole bytes are written, then the bits that are left. -/
def writeBits (buf : Memory) (pucRegBuffer : Nat) (usAddress usNBits : INT16U) (bits : Memory)
    (pucBitBuf : Nat) : Memory :=
  let whole := usNBits.toNat / 8
  let iRegIndex := pucBitBuf + usAddress.toNat / 8
  let iRegBitIndex := usAddress % 8
  let bits := bufferToBits buf iRegBitIndex whole pucRegBuffer iRegIndex bits
  if usNBits % 8 ≠ 0 then
    xMBUtilSetBits bits (iRegIndex + whole) iRegBitIndex ((usNBits % 8).setWidth 8)
      (buf (pucRegBuffer + whole))
  else bits

/-! ### The callbacks -/

def eMBRegInputCB (regs : SlaveRegs) (buf : Memory) (pucRegBuffer : Nat)
    (usAddress usNRegs : INT16U) : EMBError × Memory :=
  let usAddress := usAddress - 1
  if InBlock usAddress usNRegs sRegInputStart sRegInputNregs then
    (.enoerr, regsToBuffer regs.usSRegInBuf usNRegs.toNat usAddress.toNat buf pucRegBuffer)
  else (.enoreg, buf)

def eMBRegHoldingCB (regs : SlaveRegs) (buf : Memory) (pucRegBuffer : Nat)
    (usAddress usNRegs : INT16U) (eMode : EMBRegisterMode) : EMBError × SlaveRegs × Memory :=
  let usAddress := usAddress - 1
  if InBlock usAddress usNRegs sRegHoldingStart sRegHoldingNregs then
    match eMode with
    | .regRead =>
      (.enoerr, regs,
        regsToBuffer regs.usSRegHoldBuf usNRegs.toNat usAddress.toNat buf pucRegBuffer)
    | .regWrite =>
      (.enoerr, { regs with
        usSRegHoldBuf := bufferToRegs buf usNRegs.toNat pucRegBuffer usAddress.toNat
          regs.usSRegHoldBuf }, buf)
  else (.enoreg, regs, buf)

def eMBRegCoilsCB (regs : SlaveRegs) (buf : Memory) (pucRegBuffer : Nat)
    (usAddress usNCoils : INT16U) (eMode : EMBRegisterMode) : EMBError × SlaveRegs × Memory :=
  let usAddress := usAddress - 1
  if InBlock usAddress usNCoils sCoilStart sCoilNcoils then
    match eMode with
    | .regRead => (.enoerr, regs, readBits regs.ucSCoilBuf 0 usAddress usNCoils buf pucRegBuffer)
    | .regWrite =>
      (.enoerr, { regs with
        ucSCoilBuf := writeBits buf pucRegBuffer usAddress usNCoils regs.ucSCoilBuf 0 }, buf)
  else (.enoreg, regs, buf)

def eMBRegDiscreteCB (regs : SlaveRegs) (buf : Memory) (pucRegBuffer : Nat)
    (usAddress usNDiscrete : INT16U) : EMBError × Memory :=
  let usAddress := usAddress - 1
  if InBlock usAddress usNDiscrete sDiscreteInputStart sDiscreteInputNdiscretes then
    (.enoerr, readBits regs.ucSDiscInBuf 0 usAddress usNDiscrete buf pucRegBuffer)
  else (.enoreg, buf)

/-! ### What the loops do -/

/-- The registers go to the buffer one after another. -/
theorem regsToBuffer_eq (regs : Nat → INT16U) (n iRegIndex : Nat) (buf : Memory)
    (pucRegBuffer : Nat) :
    regsToBuffer regs n iRegIndex buf pucRegBuffer =
      store buf pucRegBuffer ((slice regs iRegIndex n).flatMap bigEndian) := by
  induction n generalizing iRegIndex buf pucRegBuffer with
  | zero => exact (store_nil buf pucRegBuffer).symm
  | succ n ih =>
    have two := store_append buf pucRegBuffer [byteOf (regs iRegIndex) 1] [byteOf (regs iRegIndex) 0]
    have run := store_append buf pucRegBuffer (bigEndian (regs iRegIndex))
      ((slice regs (iRegIndex + 1) n).flatMap bigEndian)
    rw [regsToBuffer, ih, slice_succ, List.flatMap_cons, run]
    exact congrArg (fun b => store b (pucRegBuffer + 2) _) two.symm

/-- The registers in the range are replaced by what the buffer has for them. -/
theorem bufferToRegs_eq {buf : Memory} {pucRegBuffer : Nat} {values : List INT16U}
    (placed : Placed buf pucRegBuffer (values.flatMap bigEndian))
    (iRegIndex : Nat) (regs : Nat → INT16U) :
    bufferToRegs buf values.length pucRegBuffer iRegIndex regs = replace regs iRegIndex values := by
  induction values generalizing pucRegBuffer iRegIndex regs with
  | nil => exact (replace_nil regs iRegIndex).symm
  | cons v values ih =>
    obtain ⟨high, low, rest⟩ : buf pucRegBuffer = byteOf v 1 ∧ buf (pucRegBuffer + 1) = byteOf v 0 ∧
        Placed buf (pucRegBuffer + 2) (values.flatMap bigEndian) := by
      rw [List.flatMap_cons, bigEndian, List.cons_append, placed_cons, List.cons_append, placed_cons] at placed
      exact placed
    have word : join16 (buf pucRegBuffer) (buf (pucRegBuffer + 1)) = v := by
      rw [high, low]
      exact join16_bytes v
    rw [List.length_cons, bufferToRegs, word, ih rest, update_eq_replace]
    exact (replace_append regs iRegIndex [v] values).symm

theorem bufferToRegs_outside (buf : Memory) (n pucRegBuffer iRegIndex : Nat) (regs : Nat → INT16U)
    {k : Nat} (outside : k < iRegIndex ∨ iRegIndex + n ≤ k) :
    bufferToRegs buf n pucRegBuffer iRegIndex regs k = regs k := by
  induction n generalizing pucRegBuffer iRegIndex regs with
  | zero => rfl
  | succ n ih =>
    rw [bufferToRegs, ih _ _ _ (by omega)]
    exact Function.update_of_ne (by omega) _ _

theorem bitsToBuffer_before (bits : Memory) (iRegBitIndex : INT16U) (n iRegIndex : Nat)
    (buf : Memory) (pucRegBuffer : Nat) {a : Nat} (before : a < pucRegBuffer) :
    bitsToBuffer bits iRegBitIndex n iRegIndex buf pucRegBuffer a = buf a := by
  induction n generalizing iRegIndex buf pucRegBuffer with
  | zero => rfl
  | succ n ih =>
    rw [bitsToBuffer, ih _ _ _ (Nat.lt_succ_of_lt before)]
    exact store_outside buf pucRegBuffer a _ (Or.inl before)

theorem bitsToBuffer_behind (bits : Memory) (iRegBitIndex : INT16U) (n iRegIndex : Nat)
    (buf : Memory) (pucRegBuffer : Nat) {a : Nat} (behind : pucRegBuffer + n ≤ a) :
    bitsToBuffer bits iRegBitIndex n iRegIndex buf pucRegBuffer a = buf a := by
  induction n generalizing iRegIndex buf pucRegBuffer with
  | zero => rfl
  | succ n ih =>
    rw [bitsToBuffer, ih _ _ _ (by omega)]
    exact store_outside buf pucRegBuffer a _ (Or.inr (by simp only [List.length_singleton]; omega))

/-- The bits of the buffer from `base` on after whole bytes were read. -/
theorem bitAt_bitsToBuffer (bits : Memory) (iRegBitIndex : INT16U) (n c i : Nat) (buf : Memory)
    (base q : Nat) :
    bitAt (bitsToBuffer bits iRegBitIndex n (c + i) buf (base + q)) base =
      overwrite (bitAt buf base) (8 * q) (8 * n)
        fun j => bitAt bits c (8 * i + iRegBitIndex.toNat + j) := by
  induction n generalizing i buf q with
  | zero => rw [Nat.mul_zero, overwrite_zero]; rfl
  | succ n ih =>
    have byte : ∀ k < 8, (xMBUtilGetBits bits (c + i) iRegBitIndex 8).getLsbD k =
        bitAt bits c (8 * i + iRegBitIndex.toNat + k) := by
      intro k inside
      rw [getLsbD_xMBUtilGetBits bits (c + i) iRegBitIndex (by decide), bitAt_add,
        decide_eq_true (show k < (8 : INT8U).toNat from inside), Bool.true_and, Nat.add_assoc]
    have next : ∀ j, 8 * (i + 1) + iRegBitIndex.toNat + j = 8 * i + iRegBitIndex.toNat + (8 + j) := by
      intro j
      omega
    have start : 8 * (q + 1) = 8 * q + 8 := by omega
    have total : 8 * (n + 1) = 8 + 8 * n := by omega
    rw [bitsToBuffer, Nat.add_assoc c, Nat.add_assoc base, ih (i + 1), bitAt_store,
      overwrite_congr byte, start, total, ← overwrite_append]
    simp only [next]

/-- A byte shifted up and down again keeps its low bits. -/
theorem getLsbD_shift_back (byte : INT8U) {r : Nat} (few : r < 8) (k : Nat) :
    ((byte <<< (8 - r)) >>> (8 - r)).getLsbD k = (decide (k < r) && byte.getLsbD k) := by
  rw [BitVec.getLsbD_ushiftRight, BitVec.getLsbD_shiftLeft]
  by_cases low : k < r
  · have place : 8 - r + k < 8 := by omega
    simp [low, place]
  · have place : ¬ 8 - r + k < 8 := by omega
    simp [low, place]

theorem bitAt_trim (m : Memory) (p q : Nat) {r : Nat} (few : r < 8) :
    bitAt (store m (p + q) [(m (p + q) <<< (8 - r)) >>> (8 - r)]) p =
      overwrite (bitAt m p) (8 * q) 8 fun k => decide (k < r) && bitAt m p (8 * q + k) := by
  rw [bitAt_store]
  exact overwrite_congr fun k inside => by rw [getLsbD_shift_back _ few, getLsbD_byte m p q inside]

/-- Reading bits fills the bytes of the buffer that `usNBits` bits and one more need: the bits
asked for, and zeros. -/
theorem bitAt_readBits (bits : Memory) (c : Nat) (usAddress usNBits : INT16U) (buf : Memory)
    (pucRegBuffer : Nat) :
    bitAt (readBits bits c usAddress usNBits buf pucRegBuffer) pucRegBuffer =
      overwrite (bitAt buf pucRegBuffer) 0 (8 * (usNBits.toNat / 8 + 1))
        fun j => decide (j < usNBits.toNat) && bitAt bits c (usAddress.toNat + j) := by
  have first : ∀ j, 8 * (usAddress.toNat / 8) + (usAddress % 8).toNat + j = usAddress.toNat + j := by
    intro j
    have bitIndex : (usAddress % 8).toNat = usAddress.toNat % 8 := BitVec.toNat_umod
    omega
  have filled : bitAt (bitsToBuffer bits (usAddress % 8) (usNBits.toNat / 8 + 1)
      (c + usAddress.toNat / 8) buf pucRegBuffer) pucRegBuffer =
      overwrite (bitAt buf pucRegBuffer) 0 (8 * (usNBits.toNat / 8 + 1))
        fun j => bitAt bits c (usAddress.toNat + j) := by
    have whole := bitAt_bitsToBuffer bits (usAddress % 8) (usNBits.toNat / 8 + 1) c
      (usAddress.toNat / 8) buf pucRegBuffer 0
    simp only [first] at whole
    exact whole
  have last : pucRegBuffer + (usNBits.toNat / 8 + 1) - 1 = pucRegBuffer + usNBits.toNat / 8 := by
    omega
  have total : 8 * (usNBits.toNat / 8) + usNBits.toNat % 8 = usNBits.toNat := by omega
  unfold readBits
  simp only [last, store_byte_self, store_byte_twice]
  rw [bitAt_trim _ _ _ (Nat.mod_lt usNBits.toNat (by decide)), filled, overwrite_trim, total]

theorem readBits_before (bits : Memory) (c : Nat) (usAddress usNBits : INT16U) (buf : Memory)
    {pucRegBuffer a : Nat} (before : a < pucRegBuffer) :
    readBits bits c usAddress usNBits buf pucRegBuffer a = buf a := by
  unfold readBits
  rw [store_outside _ _ _ _ (Or.inl (by omega)), store_outside _ _ _ _ (Or.inl (by omega)),
    bitsToBuffer_before _ _ _ _ _ _ before]

theorem readBits_behind (bits : Memory) (c : Nat) (usAddress usNBits : INT16U) (buf : Memory)
    {pucRegBuffer a : Nat} (behind : pucRegBuffer + usNBits.toNat / 8 + 1 ≤ a) :
    readBits bits c usAddress usNBits buf pucRegBuffer a = buf a := by
  unfold readBits
  rw [store_outside _ _ _ _ (Or.inr (by simp only [List.length_singleton]; omega)),
    store_outside _ _ _ _ (Or.inr (by simp only [List.length_singleton]; omega)),
    bitsToBuffer_behind _ _ _ _ _ _ (by omega)]

/-- The bits from `base` on after whole bytes were written. -/
theorem bitAt_bufferToBits (buf : Memory) (iRegBitIndex : INT16U) (n p q c i : Nat) (bits : Memory) :
    bitAt (bufferToBits buf iRegBitIndex n (p + q) (c + i) bits) c =
      overwrite (bitAt bits c) (8 * i + iRegBitIndex.toNat) (8 * n)
        fun j => bitAt buf p (8 * q + j) := by
  induction n generalizing q i bits with
  | zero => rw [Nat.mul_zero, overwrite_zero]; rfl
  | succ n ih =>
    have set : bitAt (xMBUtilSetBits bits (c + i) iRegBitIndex 8 (buf (p + q))) c =
        overwrite (bitAt bits c) (8 * i + iRegBitIndex.toNat) 8 fun j => bitAt buf p (8 * q + j) := by
      rw [bitAt_xMBUtilSetBits bits c i iRegBitIndex _ (by decide), orInto_clear]
      · exact overwrite_congr fun k inside => getLsbD_byte buf p q inside
      · intro k inside
        exact absurd inside (Nat.not_lt_zero k)
    have start : 8 * (i + 1) + iRegBitIndex.toNat = 8 * i + iRegBitIndex.toNat + 8 := by omega
    have next : ∀ j, 8 * (q + 1) + j = 8 * q + (8 + j) := by
      intro j
      omega
    have total : 8 * (n + 1) = 8 + 8 * n := by omega
    rw [bufferToBits, Nat.add_assoc p, Nat.add_assoc c, ih (q + 1) (i + 1), set, start, total,
      ← overwrite_append]
    simp only [next]

theorem bufferToBits_before (buf : Memory) (iRegBitIndex : INT16U) (n p i : Nat) (bits : Memory)
    {a : Nat} (before : a < i) : bufferToBits buf iRegBitIndex n p i bits a = bits a := by
  induction n generalizing p i bits with
  | zero => rfl
  | succ n ih =>
    rw [bufferToBits, ih _ _ _ (Nat.lt_succ_of_lt before)]
    exact xMBUtilSetBits_before bits i iRegBitIndex 8 _ before

/-- The bits that fill up the last byte. -/
def paddingBits (usNBits : INT16U) : Nat := 8 * ((usNBits.toNat + 7) / 8) - usNBits.toNat

/-- Writing bits overwrites the bits in the range, and adds the set bits with which the last
byte of the buffer is filled up to the bits that follow. -/
theorem bitAt_writeBits (buf : Memory) (p : Nat) (usAddress usNBits : INT16U) (bits : Memory)
    (c : Nat) :
    bitAt (writeBits buf p usAddress usNBits bits c) c =
      orInto (overwrite (bitAt bits c) usAddress.toNat usNBits.toNat (bitAt buf p))
        (usAddress.toNat + usNBits.toNat) (paddingBits usNBits)
        fun j => bitAt buf p (usNBits.toNat + j) := by
  have bitIndex : (usAddress % 8).toNat = usAddress.toNat % 8 := BitVec.toNat_umod
  have start : 8 * (usAddress.toNat / 8) + (usAddress % 8).toNat = usAddress.toNat := by omega
  have rest : (usNBits % 8).toNat = usNBits.toNat % 8 := BitVec.toNat_umod
  have whole := bitAt_bufferToBits buf (usAddress % 8) (usNBits.toNat / 8) p 0 c
    (usAddress.toNat / 8) bits
  simp only [start, Nat.mul_zero, Nat.zero_add, Nat.add_zero] at whole
  unfold writeBits paddingBits
  by_cases none : usNBits % 8 = 0
  · rw [none] at rest
    have eight : 8 * (usNBits.toNat / 8) = usNBits.toNat := by
      have zero : (0 : INT16U).toNat = 0 := rfl
      omega
    have padding : 8 * ((usNBits.toNat + 7) / 8) - usNBits.toNat = 0 := by omega
    rw [if_neg (not_not_intro none), whole, eight, padding, orInto_clear]
    intro j inside
    exact absurd inside (Nat.not_lt_zero j)
  · have some : 0 < usNBits.toNat % 8 := by
      rw [← rest]
      exact Nat.pos_of_ne_zero fun zero => none (BitVec.eq_of_toNat_eq zero)
    have few : ((usNBits % 8).setWidth 8 : INT8U).toNat = usNBits.toNat % 8 := by
      rw [BitVec.toNat_setWidth, rest]
      omega
    have place : 8 * (usAddress.toNat / 8 + usNBits.toNat / 8) + (usAddress % 8).toNat =
        usAddress.toNat + 8 * (usNBits.toNat / 8) := by omega
    have total : 8 * (usNBits.toNat / 8) + usNBits.toNat % 8 = usNBits.toNat := by omega
    have padding : 8 * ((usNBits.toNat + 7) / 8) - usNBits.toNat = 8 - usNBits.toNat % 8 := by omega
    have byte : ∀ k < 8, (buf (p + usNBits.toNat / 8)).getLsbD k =
        bitAt buf p (8 * (usNBits.toNat / 8) + k) :=
      fun k inside => getLsbD_byte buf p (usNBits.toNat / 8) inside
    have spilled : ∀ j < 8 - usNBits.toNat % 8,
        (buf (p + usNBits.toNat / 8)).getLsbD (usNBits.toNat % 8 + j) =
          bitAt buf p (usNBits.toNat + j) := by
      intro j inside
      rw [byte _ (by omega), ← Nat.add_assoc, total]
    rw [if_pos none, Nat.add_assoc c,
      bitAt_xMBUtilSetBits _ c _ (usAddress % 8) _ (by rw [few]; omega), few, place, whole,
      overwrite_congr fun k inside => byte k (by omega), overwrite_append, total, padding,
      Nat.add_assoc usAddress.toNat, total, orInto_congr spilled]

/-- Bytes behind the last bit written and those that fill up its byte are kept. -/
theorem writeBits_behind (buf : Memory) (p : Nat) (usAddress usNBits : INT16U) (bits : Memory)
    (c : Nat) {j : Nat} (behind : usAddress.toNat + usNBits.toNat + 7 ≤ 8 * j) :
    writeBits buf p usAddress usNBits bits c (c + j) = bits (c + j) := by
  refine eq_of_bitAt fun k _ => ?_
  rw [bitAt_writeBits, orInto, overwrite, if_neg (by omega), paddingBits, decide_eq_false (by omega),
    Bool.false_and, Bool.or_false]

theorem writeBits_before (buf : Memory) (p : Nat) (usAddress usNBits : INT16U) (bits : Memory)
    {c a : Nat} (before : a < c) : writeBits buf p usAddress usNBits bits c a = bits a := by
  have earlier := bufferToBits_before buf (usAddress % 8) (usNBits.toNat / 8) p
    (c + usAddress.toNat / 8) bits (Nat.lt_add_right (usAddress.toNat / 8) before)
  unfold writeBits
  split
  · rw [xMBUtilSetBits_before _ _ _ _ _ (by omega)]
    exact earlier
  · exact earlier

/-! ### Packed bits -/

/-- What is read arrives packed. -/
theorem placed_readBits (bits : Memory) (c : Nat) (usAddress usNBits : INT16U) (buf : Memory)
    (pucRegBuffer : Nat) :
    Placed (readBits bits c usAddress usNBits buf pucRegBuffer) pucRegBuffer
      (packBits (slice (bitAt bits c) usAddress.toNat usNBits.toNat)) := by
  refine placed_packBits fun i inside => ?_
  rw [length_slice] at inside
  rw [bitAt_readBits, overwrite, if_pos (by omega), List.getD_eq_getElem?_getD, getElem?_slice]
  by_cases asked : i < usNBits.toNat
  · rw [if_pos asked, Nat.sub_zero, decide_eq_true asked, Bool.true_and]
    rfl
  · rw [if_neg asked, Nat.sub_zero, decide_eq_false asked, Bool.false_and]
    rfl

/-- Packed bits that are written replace those in the range. -/
theorem bitAt_writeBits_packed {buf : Memory} {p : Nat} {values : List Bool} {usNBits : INT16U}
    (placed : Placed buf p (packBits values))
    (counted : usNBits.toNat = values.length) (usAddress : INT16U) (bits : Memory) (c : Nat) :
    bitAt (writeBits buf p usAddress usNBits bits c) c =
      replace (bitAt bits c) usAddress.toNat values := by
  have value : ∀ i < 8 * ((values.length + 7) / 8), bitAt buf p i = values.getD i false :=
    fun i inside => bitAt_packed placed (by rw [length_packBits]; exact inside)
  rw [bitAt_writeBits, orInto_clear, counted]
  · refine overwrite_eq_replace fun i bound => ?_
    rw [value i (by omega), List.getD_eq_getElem?_getD, List.getElem?_eq_getElem bound]
    rfl
  · intro i inside
    rw [paddingBits, counted] at inside
    rw [counted, value _ (by omega), List.getD_eq_getElem?_getD, List.getElem?_eq_none (by omega)]
    rfl

end GasSub.Source
