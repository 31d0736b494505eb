import GasSub.Source.MbUserApp

/-!
# What the Modbus master knows of the slaves

`user_mb_app_m.c`: for each of the sixteen slaves a row of discrete inputs, coils, input and
holding registers, and the callbacks that bring data of the slave with the destination
address into its row. The places of an array are counted from one row in front of it, so
that the row of the destination address `d`, with the index `d - 1`, starts `d` rows on.
-/
namespace GasSub.Source
open GasSub.Library.ByteMemory

structure MasterRegs where
  ucMDiscInBuf : Memory
  ucMCoilBuf : Memory
  usMRegInBuf : Nat → INT16U
  usMRegHoldBuf : Nat → INT16U

def mDiscreteInputStart : Nat := 0
def mDiscreteInputNdiscretes : Nat := 16
def mCoilStart : Nat := 0
def mCoilNcoils : Nat := 64
def mRegInputStart : Nat := 0
def mRegInputNregs : Nat := 100
def mRegHoldingStart : Nat := 0
def mRegHoldingNregs : Nat := 100

/-- Where the row of the destination address starts. -/
def masterRow (width : Nat) (dest : INT8U) : Nat := width * dest.toNat

section
variable (dest : INT8U) (regs : MasterRegs) (buf : Memory) (pucRegBuffer : Nat)

def eMBMasterRegInputCB (usAddress usNRegs : INT16U) : EMBError × MasterRegs :=
  let usAddress := usAddress - 1
  if InBlock usAddress usNRegs mRegInputStart mRegInputNregs then
    (.enoerr, { regs with
      usMRegInBuf := bufferToRegs buf usNRegs.toNat pucRegBuffer
        (masterRow mRegInputNregs dest + usAddress.toNat) regs.usMRegInBuf })
  else (.enoreg, regs)

/-- The mode is overwritten with `MB_REG_WRITE`. -/
def eMBMasterRegHoldingCB (usAddress usNRegs : INT16U) (_ : EMBRegisterMode) :
    EMBError × MasterRegs :=
  let usAddress := usAddress - 1
  if InBlock usAddress usNRegs mRegHoldingStart mRegHoldingNregs then
    (.enoerr, { regs with
      usMRegHoldBuf := bufferToRegs buf usNRegs.toNat pucRegBuffer
        (masterRow mRegHoldingNregs dest + usAddress.toNat) regs.usMRegHoldBuf })
  else (.enoreg, regs)

/-- The mode is overwritten with `MB_REG_WRITE`. -/
def eMBMasterRegCoilsCB (usAddress usNCoils : INT16U) (_ : EMBRegisterMode) :
    EMBError × MasterRegs :=
  let usAddress := usAddress - 1
  if InBlock usAddress usNCoils mCoilStart mCoilNcoils then
    (.enoerr, { regs with
      ucMCoilBuf := writeBits buf pucRegBuffer usAddress usNCoils regs.ucMCoilBuf
        (masterRow (mCoilNcoils / 8) dest) })
  else (.enoreg, regs)

def eMBMasterRegDiscreteCB (usAddress usNDiscrete : INT16U) : EMBError × MasterRegs :=
  let usAddress := usAddress - 1
  if InBlock usAddress usNDiscrete mDiscreteInputStart mDiscreteInputNdiscretes then
    (.enoerr, { regs with
      ucMDiscInBuf := writeBits buf pucRegBuffer usAddress usNDiscrete regs.ucMDiscInBuf
        (masterRow (mDiscreteInputNdiscretes / 8) dest) })
  else (.enoreg, regs)

end

end GasSub.Source
