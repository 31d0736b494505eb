import GasSub.Library.BitArray
import GasSub.Source.Sensor

/-!
# Utilities of the Modbus stack

`mbutils.c`: a field of up to eight bits set and read anywhere in a byte buffer, over the
memory the buffer lies in, and the exception that stands for an error of a register
callback.
-/
namespace GasSub.Source
open GasSub.Library.ByteMemory GasSub.Library.ByteWord GasSub.Library.BitArray

/-- `eMBErrorCode`. -/
inductive EMBError where
  | enoerr | enoreg | einval | eporterr | enores | eio | eillstate | etimedout
  deriving DecidableEq, Repr

/-- `eMBException`. -/
inductive EMBException where
  | exNone | exIllegalFunction | exIllegalDataAddress | exIllegalDataValue
  | exSlaveDeviceFailure | exAcknowledge | exSlaveBusy | exMemoryParityError
  | exGatewayPathFailed | exGatewayTgtFailed
  deriving DecidableEq, Repr

/-- The values of the enumeration. -/
def EMBException.value : EMBException → INT8U
  | .exNone => 0x00
  | .exIllegalFunction => 0x01
  | .exIllegalDataAddress => 0x02
  | .exIllegalDataValue => 0x03
  | .exSlaveDeviceFailure => 0x04
  | .exAcknowledge => 0x05
  | .exSlaveBusy => 0x06
  | .exMemoryParityError => 0x08
  | .exGatewayPathFailed => 0x0A
  | .exGatewayTgtFailed => 0x0B

def prveMBError2Exception : EMBError → EMBException
  | .enoerr => .exNone
  | .enoreg => .exIllegalDataAddress
  | .etimedout => .exSlaveBusy
  | _ => .exSlaveDeviceFailure

def bitsUchar : INT16U := 8

/-- `(USHORT)((1 << (USHORT)ucNBits) - 1)`. -/
def bitMask (ucNBits : INT8U) : INT16U := ((1#32 <<< ucNBits.toNat) - 1).setWidth 16

/-- `xMBUtilSetBits` on the buffer at `ucByteBuf`. -/
def xMBUtilSetBits (m : Memory) (ucByteBuf : Nat) (usBitOffset : INT16U) (ucNBits ucValue : INT8U) :
    Memory :=
  let usByteOffset := usBitOffset / bitsUchar
  let usNPreBits := usBitOffset - usByteOffset * bitsUchar
  let usValue := ucValue.setWidth 16 <<< usNPreBits.toNat
  let usMask := bitMask ucNBits <<< usNPreBits.toNat
  let usWordBuf := load16 m (ucByteBuf + usByteOffset.toNat)
  let usWordBuf := (usWordBuf &&& ~~~usMask) ||| usValue
  let m := store m (ucByteBuf + usByteOffset.toNat) [byteOf usWordBuf 0]
  store m (ucByteBuf + usByteOffset.toNat + 1) [byteOf usWordBuf 1]

/-- `xMBUtilGetBits`. -/
def xMBUtilGetBits (m : Memory) (ucByteBuf : Nat) (usBitOffset : INT16U) (ucNBits : INT8U) : INT8U :=
  let usByteOffset := usBitOffset / bitsUchar
  let usNPreBits := usBitOffset - usByteOffset * bitsUchar
  let usMask := bitMask ucNBits
  let usWordBuf := load16 m (ucByteBuf + usByteOffset.toNat) >>> usNPreBits.toNat
  (usWordBuf &&& usMask).setWidth 8

/-! ### The place of a field -/

theorem toNat_byteOffset (usBitOffset : INT16U) :
    (usBitOffset / bitsUchar).toNat = usBitOffset.toNat / 8 := BitVec.toNat_udiv

theorem toNat_preBits (usBitOffset : INT16U) :
    (usBitOffset - usBitOffset / bitsUchar * bitsUchar).toNat = usBitOffset.toNat % 8 := by
  have bound := usBitOffset.isLt
  have eight : bitsUchar.toNat = 8 := rfl
  rw [BitVec.toNat_sub, BitVec.toNat_mul, toNat_byteOffset, eight]
  omega

theorem getLsbD_bitMask {ucNBits : INT8U} (few : ucNBits.toNat ≤ 8) (i : Nat) :
    (bitMask ucNBits).getLsbD i = decide (i < ucNBits.toNat) := by
  have small : 2 ^ ucNBits.toNat ≤ 2 ^ 8 := Nat.pow_le_pow_right (by decide) few
  have positive : 0 < 2 ^ ucNBits.toNat := Nat.two_pow_pos _
  have power : (1#32 <<< ucNBits.toNat).toNat = 2 ^ ucNBits.toNat := by
    rw [BitVec.toNat_shiftLeft, Nat.shiftLeft_eq, BitVec.toNat_ofNat]
    omega
  have value : (bitMask ucNBits).toNat = 2 ^ ucNBits.toNat - 1 := by
    have one : (1 : BitVec 32).toNat = 1 := rfl
    rw [bitMask, BitVec.toNat_setWidth, BitVec.toNat_sub, power, one]
    omega
  rw [BitVec.getLsbD, value, Nat.testBit_two_pow_sub_one]

/-! ### Fields -/

/-- What is written back: the field is replaced, and what the value has above the field is
added to the bits behind it. -/
theorem getLsbD_fieldWord (word : INT16U) {ucNBits : INT8U} (ucValue : INT8U)
    (few : ucNBits.toNat ≤ 8) {p j : Nat} (wide : j < 16) :
    ((word &&& ~~~(bitMask ucNBits <<< p)) ||| ucValue.setWidth 16 <<< p).getLsbD j =
      if p ≤ j ∧ j < p + ucNBits.toNat then ucValue.getLsbD (j - p)
      else word.getLsbD j || (decide (p ≤ j) && ucValue.getLsbD (j - p)) := by
  rw [BitVec.getLsbD_or, BitVec.getLsbD_and, BitVec.getLsbD_not, BitVec.getLsbD_shiftLeft,
    BitVec.getLsbD_shiftLeft, getLsbD_bitMask few, BitVec.getLsbD_setWidth, decide_eq_true wide]
  have near : j - p < 16 := by omega
  by_cases before : j < p
  · have outside : ¬ (p ≤ j ∧ j < p + ucNBits.toNat) := by omega
    rw [if_neg outside]
    simp [before, Nat.not_le.mpr before]
  · by_cases field : j - p < ucNBits.toNat
    · have inside : p ≤ j ∧ j < p + ucNBits.toNat := by omega
      rw [if_pos inside]
      simp [before, field, near]
    · have outside : ¬ (p ≤ j ∧ j < p + ucNBits.toNat) := by omega
      rw [if_neg outside]
      simp [before, field, near, Nat.le_of_not_lt before]

/-- Setting a field overwrites its bits in the row; set bits of the value above the field
are added to the bits that follow, up to eight bits from its start. -/
theorem bitAt_xMBUtilSetBits (m : Memory) (base q : Nat) (usBitOffset : INT16U)
    {ucNBits : INT8U} (ucValue : INT8U) (few : ucNBits.toNat ≤ 8) :
    bitAt (xMBUtilSetBits m (base + q) usBitOffset ucNBits ucValue) base =
      orInto (overwrite (bitAt m base) (8 * q + usBitOffset.toNat) ucNBits.toNat ucValue.getLsbD)
        (8 * q + usBitOffset.toNat + ucNBits.toNat) (8 - ucNBits.toNat)
        fun j => ucValue.getLsbD (ucNBits.toNat + j) := by
  have start : 8 * (q + usBitOffset.toNat / 8) + usBitOffset.toNat % 8 =
      8 * q + usBitOffset.toNat := by omega
  unfold xMBUtilSetBits
  simp only [toNat_byteOffset, toNat_preBits]
  rw [Nat.add_assoc base, bitAt_store16, overwrite_field (n := ucNBits.toNat) (v := ucValue.getLsbD)
    (Nat.mod_lt usBitOffset.toNat (by decide : 0 < 8)) few
    (fun k => BitVec.getLsbD_of_ge ucValue k), start]
  intro j wide
  rw [getLsbD_fieldWord _ _ few wide, getLsbD_load16, decide_eq_true wide, Bool.true_and]

/-- Nothing in front of the buffer is touched. -/
theorem xMBUtilSetBits_before (m : Memory) (ucByteBuf : Nat) (usBitOffset : INT16U)
    (ucNBits ucValue : INT8U) {a : Nat} (before : a < ucByteBuf) :
    xMBUtilSetBits m ucByteBuf usBitOffset ucNBits ucValue a = m a := by
  unfold xMBUtilSetBits
  rw [store_outside _ _ _ _ (Or.inl (by omega)), store_outside _ _ _ _ (Or.inl (by omega))]

/-- The field that is read. -/
theorem getLsbD_xMBUtilGetBits (m : Memory) (ucByteBuf : Nat) (usBitOffset : INT16U)
    {ucNBits : INT8U} (few : ucNBits.toNat ≤ 8) (k : Nat) :
    (xMBUtilGetBits m ucByteBuf usBitOffset ucNBits).getLsbD k =
      (decide (k < ucNBits.toNat) && bitAt m ucByteBuf (usBitOffset.toNat + k)) := by
  unfold xMBUtilGetBits
  simp only [toNat_byteOffset, toNat_preBits]
  rw [BitVec.getLsbD_setWidth, BitVec.getLsbD_and, BitVec.getLsbD_ushiftRight, getLsbD_load16,
    getLsbD_bitMask few]
  by_cases field : k < ucNBits.toNat
  · have eight : k < 8 := by omega
    have wide : usBitOffset.toNat % 8 + k < 16 := by omega
    have place : 8 * (usBitOffset.toNat / 8) + (usBitOffset.toNat % 8 + k) =
        usBitOffset.toNat + k := by omega
    rw [place]
    simp [eight, wide, field]
  · simp [field]

end GasSub.Source
