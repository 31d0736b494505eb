import GasSub.Source.MbUserApp

/-!
# The function handlers of the Modbus slave

`mbfuncholding.c`, `mbfuncinput.c`, `mbfunccoils.c`, `mbfuncdisc.c` and `mbfuncother.c`: the
functions that take a request PDU in a buffer and leave the answer in it. The buffer is
memory with the place of the PDU in it; a handler returns the exception, the registers,
the buffer and the length of the answer. The four functions that read are one definition
with the values in which they differ.
-/
namespace GasSub.Source
open GasSub.Library.ByteMemory GasSub.Library.ByteWord

def mbFuncReadCoils : INT8U := 1
def mbFuncReadDiscreteInputs : INT8U := 2
def mbFuncReadHoldingRegister : INT8U := 3
def mbFuncReadInputRegister : INT8U := 4
def mbFuncWriteSingleCoil : INT8U := 5
def mbFuncWriteRegister : INT8U := 6
def mbFuncWriteMultipleCoils : INT8U := 15
def mbFuncWriteMultipleRegisters : INT8U := 16
def mbFuncOtherReportSlaveid : INT8U := 17
def mbFuncReadwriteMultipleRegisters : INT8U := 23
def mbFuncError : INT8U := 128

/-- What the handlers keep: the registers and the slave ID. -/
structure SlaveNode where
  regs : SlaveRegs
  ucMBSlaveID : Memory
  usMBSlaveIDLen : INT16U

structure Handled where
  eStatus : EMBException
  node : SlaveNode
  buf : Memory
  usLen : INT16U

/-- A word of the PDU, the high byte first. -/
def frameWord (buf : Memory) (a : Nat) : INT16U := join16 (buf a) (buf (a + 1))

/-- `prveMBError2Exception` where a handler calls it. -/
def exceptionOf (eRegStatus : EMBError) : EMBException :=
  if eRegStatus ≠ .enoerr then prveMBError2Exception eRegStatus else .exNone

/-! ### Reading -/

/-- What the functions that read differ in: the function code, the count they take from the
PDU, the counts they accept, the number of data bytes, and the callback. -/
structure ReadFunction where
  functionCode : INT8U
  count : Memory → Nat → INT16U
  valid : INT16U → Bool
  bytes : INT16U → INT16U
  callback : SlaveRegs → Memory → Nat → INT16U → INT16U → EMBError × Memory

def readFunction (f : ReadFunction) (node : SlaveNode) (buf : Memory) (pucFrame : Nat)
    (usLen : INT16U) : Handled :=
  if usLen = 4 + 1 then
    let usRegAddress := frameWord buf (pucFrame + 1) + 1
    let usRegCount := f.count buf (pucFrame + 3)
    if f.valid usRegCount then
      let buf := store buf pucFrame [f.functionCode]
      let buf := store buf (pucFrame + 1) [(f.bytes usRegCount).setWidth 8]
      let called := f.callback node.regs buf (pucFrame + 2) usRegAddress usRegCount
      { eStatus := exceptionOf called.1
        node := node
        buf := called.2
        usLen := if called.1 ≠ .enoerr then 2 else 2 + f.bytes usRegCount }
    else ⟨.exIllegalDataValue, node, buf, usLen⟩
  else ⟨.exIllegalDataValue, node, buf, usLen⟩

/-- The bytes that `usCoilCount` bits need. -/
def bitBytes (usCoilCount : INT16U) : INT8U :=
  if usCoilCount &&& 0x0007 ≠ 0 then (usCoilCount / 8 + 1).setWidth 8
  else (usCoilCount / 8).setWidth 8

/-- The count is assigned twice: its high byte is lost. -/
def eMBFuncReadHoldingRegister : SlaveNode → Memory → Nat → INT16U → Handled :=
  readFunction {
    functionCode := mbFuncReadHoldingRegister
    count := fun buf a => (buf (a + 1)).setWidth 16
    valid := fun usRegCount => 1 ≤ usRegCount ∧ usRegCount ≤ 0x007D
    bytes := fun usRegCount => usRegCount * 2
    callback := fun regs buf pucRegBuffer usAddress usNRegs =>
      let called := eMBRegHoldingCB regs buf pucRegBuffer usAddress usNRegs .regRead
      (called.1, called.2.2) }

def eMBFuncReadInputRegister : SlaveNode → Memory → Nat → INT16U → Handled :=
  readFunction {
    functionCode := mbFuncReadInputRegister
    count := frameWord
    valid := fun usRegCount => 1 ≤ usRegCount ∧ usRegCount < 0x007D
    bytes := fun usRegCount => usRegCount * 2
    callback := eMBRegInputCB }

def eMBFuncReadCoils : SlaveNode → Memory → Nat → INT16U → Handled :=
  readFunction {
    functionCode := mbFuncReadCoils
    count := frameWord
    valid := fun usCoilCount => 1 ≤ usCoilCount ∧ usCoilCount < 0x07D0
    bytes := fun usCoilCount => (bitBytes usCoilCount).setWidth 16
    callback := fun regs buf pucRegBuffer usAddress usNCoils =>
      let called := eMBRegCoilsCB regs buf pucRegBuffer usAddress usNCoils .regRead
      (called.1, called.2.2) }

def eMBFuncReadDiscreteInputs : SlaveNode → Memory → Nat → INT16U → Handled :=
  readFunction {
    functionCode := mbFuncReadDiscreteInputs
    count := frameWord
    valid := fun usDiscreteCnt => 1 ≤ usDiscreteCnt ∧ usDiscreteCnt < 0x07D0
    bytes := fun usDiscreteCnt => (bitBytes usDiscreteCnt).setWidth 16
    callback := eMBRegDiscreteCB }

/-! ### Writing -/

def eMBFuncWriteHoldingRegister (node : SlaveNode) (buf : Memory) (pucFrame : Nat)
    (usLen : INT16U) : Handled :=
  if usLen = 4 + 1 then
    let usRegAddress := frameWord buf (pucFrame + 1) + 1
    let called := eMBRegHoldingCB node.regs buf (pucFrame + 3) usRegAddress 1 .regWrite
    ⟨exceptionOf called.1, { node with regs := called.2.1 }, called.2.2, usLen⟩
  else ⟨.exIllegalDataValue, node, buf, usLen⟩

def eMBFuncWriteMultipleHoldingRegister (node : SlaveNode) (buf : Memory) (pucFrame : Nat)
    (usLen : INT16U) : Handled :=
  if usLen ≥ 5 + 1 then
    let usRegAddress := frameWord buf (pucFrame + 1) + 1
    let usRegCount := frameWord buf (pucFrame + 3)
    let ucRegByteCount := buf (pucFrame + 5)
    if 1 ≤ usRegCount ∧ usRegCount ≤ 0x0078 ∧ ucRegByteCount = (2 * usRegCount).setWidth 8 then
      let called := eMBRegHoldingCB node.regs buf (pucFrame + 6) usRegAddress usRegCount .regWrite
      { eStatus := exceptionOf called.1
        node := { node with regs := called.2.1 }
        buf := called.2.2
        usLen := if called.1 ≠ .enoerr then usLen else 5 }
    else ⟨.exIllegalDataValue, node, buf, usLen⟩
  else ⟨.exIllegalDataValue, node, buf, usLen⟩

/-- `ucBuf` of the function below. -/
def coilBuf (value : INT8U) : Memory := fun a => if a = 0 ∧ value = 0xFF then 1 else 0

def eMBFuncWriteCoil (node : SlaveNode) (buf : Memory) (pucFrame : Nat) (usLen : INT16U) :
    Handled :=
  if usLen = 4 + 1 then
    let usRegAddress := frameWord buf (pucFrame + 1) + 1
    if buf (pucFrame + 4) = 0x00 ∧ (buf (pucFrame + 3) = 0xFF ∨ buf (pucFrame + 3) = 0x00) then
      let called := eMBRegCoilsCB node.regs (coilBuf (buf (pucFrame + 3))) 0 usRegAddress 1 .regWrite
      ⟨exceptionOf called.1, { node with regs := called.2.1 }, buf, usLen⟩
    else ⟨.exIllegalDataValue, node, buf, usLen⟩
  else ⟨.exIllegalDataValue, node, buf, usLen⟩

def eMBFuncWriteMultipleCoils (node : SlaveNode) (buf : Memory) (pucFrame : Nat)
    (usLen : INT16U) : Handled :=
  if usLen > 4 + 1 then
    let usRegAddress := frameWord buf (pucFrame + 1) + 1
    let usCoilCnt := frameWord buf (pucFrame + 3)
    let ucByteCount := buf (pucFrame + 5)
    if 1 ≤ usCoilCnt ∧ usCoilCnt ≤ 0x07B0 ∧ bitBytes usCoilCnt = ucByteCount then
      let called := eMBRegCoilsCB node.regs buf (pucFrame + 6) usRegAddress usCoilCnt .regWrite
      { eStatus := exceptionOf called.1
        node := { node with regs := called.2.1 }
        buf := called.2.2
        usLen := if called.1 ≠ .enoerr then usLen else 5 }
    else ⟨.exIllegalDataValue, node, buf, usLen⟩
  else ⟨.exIllegalDataValue, node, buf, usLen⟩

/-- The registers are written before the others are read. A request that is too short is
answered as it came. -/
def eMBFuncReadWriteMultipleHoldingRegister (node : SlaveNode) (buf : Memory) (pucFrame : Nat)
    (usLen : INT16U) : Handled :=
  if usLen ≥ 9 + 1 then
    let usRegReadAddress := frameWord buf (pucFrame + 1) + 1
    let usRegReadCount := frameWord buf (pucFrame + 3)
    let usRegWriteAddress := frameWord buf (pucFrame + 5) + 1
    let usRegWriteCount := frameWord buf (pucFrame + 7)
    let ucRegWriteByteCount := buf (pucFrame + 9)
    if 1 ≤ usRegReadCount ∧ usRegReadCount ≤ 0x7D ∧ 1 ≤ usRegWriteCount ∧
        usRegWriteCount ≤ 0x79 ∧ 2 * usRegWriteCount.toNat = ucRegWriteByteCount.toNat then
      let written := eMBRegHoldingCB node.regs buf (pucFrame + 10) usRegWriteAddress
        usRegWriteCount .regWrite
      if written.1 = .enoerr then
        let buf := store written.2.2 pucFrame [mbFuncReadwriteMultipleRegisters]
        let buf := store buf (pucFrame + 1) [(usRegReadCount * 2).setWidth 8]
        let read := eMBRegHoldingCB written.2.1 buf (pucFrame + 2) usRegReadAddress usRegReadCount
          .regRead
        { eStatus := exceptionOf read.1
          node := { node with regs := read.2.1 }
          buf := read.2.2
          usLen := if read.1 = .enoerr then 2 + 2 * usRegReadCount else 2 }
      else ⟨exceptionOf written.1, { node with regs := written.2.1 }, written.2.2, usLen⟩
    else ⟨.exIllegalDataValue, node, buf, usLen⟩
  else ⟨.exNone, node, buf, usLen⟩

/-! ### The slave ID -/

def mbFuncOtherRepSlaveidBuf : Nat := 32

/-- `eMBSetSlaveID` with the additional bytes that are there. -/
def eMBSetSlaveID (node : SlaveNode) (ucSlaveID : INT8U) (xIsRunning : Bool)
    (pucAdditional : List INT8U) : EMBError × SlaveNode :=
  if pucAdditional.length + 2 < mbFuncOtherRepSlaveidBuf then
    let bytes := ucSlaveID :: (if xIsRunning then 0xFF else 0x00) :: pucAdditional
    (.enoerr, { node with
      ucMBSlaveID := store node.ucMBSlaveID 0 bytes
      usMBSlaveIDLen := BitVec.ofNat 16 bytes.length })
  else (.enores, node)

def eMBFuncReportSlaveID (node : SlaveNode) (buf : Memory) (pucFrame : Nat) (_ : INT16U) :
    Handled where
  eStatus := .exNone
  node := node
  buf := store buf (pucFrame + 1) ((List.range node.usMBSlaveIDLen.toNat).map node.ucMBSlaveID)
  usLen := 1 + node.usMBSlaveIDLen

end GasSub.Source
