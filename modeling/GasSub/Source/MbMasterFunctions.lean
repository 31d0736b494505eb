import GasSub.Source.MbMasterApp
import GasSub.Source.MbRtuMaster
import GasSub.Source.MbSlaveFunctions

/-!
# The functions of the Modbus master

`mbfunccoils_m.c`, `mbfuncdisc_m.c`, `mbfuncholding_m.c`, `mbfuncinput_m.c` and the resource
in `portevent_m.c`: the functions that put a request into the send buffer, those that take
the answer of a slave, or the request itself after a broadcast, and bring its data into the
rows, and the wait for the end of a request. A task that finds the resource taken is
modelled by its timeout. A write outside the send buffer leaves no defined state.
-/
namespace GasSub.Source
open GasSub.Library.ByteMemory GasSub.Library.ByteWord GasSub.Library.EventFlags

inductive EMBMasterReqErrCode where
  | noErr | noReg | illArg | revData | timedout | masterBusy | exeFun
  deriving DecidableEq, Repr

/-- A buffer as memory. -/
def memoryOf {n : Nat} (buffer : Vector INT8U n) : Memory := fun a => buffer.toList.getD a 0

/-- The first bytes of memory as a buffer. -/
def bufferOf (n : Nat) (m : Memory) : Vector INT8U n := Vector.ofFn fun i => m i.val

/-- What the request functions and the handlers work on. `slave` is the slave of the same
program, whose ID one handler reports. -/
structure MasterNode where
  rtu : RtuMaster
  usMasterSendPDULength : INT16U
  ucMBMasterDestAddress : INT8U
  xMasterOsEvent : OSFlagGrp
  xMasterRunRes : INT16U
  regs : MasterRegs
  slave : SlaveNode

/-- What `vMBMasterGetPDUSndBuf` points to is at place 1 of this. -/
def MasterNode.sndBuf (m : MasterNode) : Memory := memoryOf m.rtu.ucMasterRTUSndBuf

def MasterNode.post (m : MasterNode) (eEvent : EMBMasterEventType) : MasterNode :=
  { m with xMasterOsEvent := xMBMasterPortEventPost m.xMasterOsEvent eEvent }

/-! ### Requests -/

def xMBMasterRunResTake (m : MasterNode) : Option MasterNode :=
  if 0 < m.xMasterRunRes then some { m with xMasterRunRes := m.xMasterRunRes - 1 } else none

/-- `OSSemPost` where no task waits. -/
def vMBMasterRunResRelease (m : MasterNode) : MasterNode :=
  if m.xMasterRunRes < 65535 then { m with xMasterRunRes := m.xMasterRunRes + 1 } else m

/-- What the request functions have in common, up to the wait for the end of the request:
the error they return at once, or what they leave. `pucPDU` are the bytes they store. -/
def masterRequest (m : MasterNode) (illegal : Bool) (ucSndAddr : INT8U) (pucPDU : List INT8U)
    (usLength : INT16U) : Option (Except EMBMasterReqErrCode MasterNode) :=
  if illegal then some (.error .illArg)
  else
    match xMBMasterRunResTake m with
    | none => some (.error .masterBusy)
    | some m =>
      if 1 + pucPDU.length ≤ 253 then
        some (.ok ({ m with
          ucMBMasterDestAddress := ucSndAddr
          rtu := { m.rtu with ucMasterRTUSndBuf := bufferOf 253 (store m.sndBuf 1 pucPDU) }
          usMasterSendPDULength := usLength }.post .frameSent))
      else none

def farSlave (ucSndAddr : INT8U) : Bool := mbMasterTotalSlaveNum < ucSndAddr.toNat

/-- A request of two words. -/
def wordsRequest (functionCode : INT8U) (first second : INT16U) : List INT8U :=
  [functionCode, byteOf first 1, byteOf first 0, byteOf second 1, byteOf second 0]

section
variable (m : MasterNode) (ucSndAddr : INT8U)

def eMBMasterReqReadCoils (usCoilAddr usNCoils : INT16U) :=
  masterRequest m (farSlave ucSndAddr) ucSndAddr (wordsRequest mbFuncReadCoils usCoilAddr usNCoils) 5

/-- The coil's address is compared with the number of slaves, and the slave's with nothing. -/
def eMBMasterReqWriteCoil (usCoilAddr usCoilData : INT16U) :=
  masterRequest m (mbMasterTotalSlaveNum < usCoilAddr.toNat ∨ (usCoilData ≠ 0xFF00 ∧ usCoilData ≠ 0x0000))
    ucSndAddr (wordsRequest mbFuncWriteSingleCoil usCoilAddr usCoilData) 5

/-- As many bytes of `pucDataBuffer` as the coils need. -/
def eMBMasterReqWriteMultipleCoils (usCoilAddr usNCoils : INT16U) (pucDataBuffer : Memory) :=
  masterRequest m (farSlave ucSndAddr ∨ 0x07B0 < usNCoils) ucSndAddr
    (wordsRequest mbFuncWriteMultipleCoils usCoilAddr usNCoils ++ bitBytes usNCoils ::
      (List.range (bitBytes usNCoils).toNat).map pucDataBuffer)
    (6 + (bitBytes usNCoils).setWidth 16)

def eMBMasterReqReadDiscreteInputs (usDiscreteAddr usNDiscreteIn : INT16U) :=
  masterRequest m (farSlave ucSndAddr) ucSndAddr
    (wordsRequest mbFuncReadDiscreteInputs usDiscreteAddr usNDiscreteIn) 5

def eMBMasterReqReadInputRegister (usRegAddr usNRegs : INT16U) :=
  masterRequest m (farSlave ucSndAddr) ucSndAddr
    (wordsRequest mbFuncReadInputRegister usRegAddr usNRegs) 5

def eMBMasterReqReadHoldingRegister (usRegAddr usNRegs : INT16U) :=
  masterRequest m (farSlave ucSndAddr) ucSndAddr
    (wordsRequest mbFuncReadHoldingRegister usRegAddr usNRegs) 5

def eMBMasterReqWriteHoldingRegister (usRegAddr usRegData : INT16U) :=
  masterRequest m (farSlave ucSndAddr) ucSndAddr
    (wordsRequest mbFuncWriteRegister usRegAddr usRegData) 5

/-- The registers of `pusDataBuffer`, the high byte first. -/
def registerBytes (pusDataBuffer : Nat → INT16U) (usNRegs : INT16U) : List INT8U :=
  (List.range usNRegs.toNat).flatMap fun i => bigEndian (pusDataBuffer i)

def eMBMasterReqWriteMultipleHoldingRegister (usRegAddr usNRegs : INT16U)
    (pusDataBuffer : Nat → INT16U) :=
  masterRequest m (farSlave ucSndAddr) ucSndAddr
    (wordsRequest mbFuncWriteMultipleRegisters usRegAddr usNRegs ++ (usNRegs * 2).setWidth 8 ::
      registerBytes pusDataBuffer usNRegs)
    (6 + 2 * usNRegs)

def eMBMasterReqReadWriteMultipleHoldingRegister (usReadRegAddr usNReadRegs : INT16U)
    (pusDataBuffer : Nat → INT16U) (usWriteRegAddr usNWriteRegs : INT16U) :=
  masterRequest m (farSlave ucSndAddr) ucSndAddr
    (wordsRequest mbFuncReadwriteMultipleRegisters usReadRegAddr usNReadRegs ++
      [byteOf usWriteRegAddr 1, byteOf usWriteRegAddr 0, byteOf usNWriteRegs 1, byteOf usNWriteRegs 0,
        (usNWriteRegs * 2).setWidth 8] ++ registerBytes pusDataBuffer usNWriteRegs)
    (10 + 2 * usNWriteRegs)

end

/-- The events that end a request. -/
def finishedEvents : List EMBMasterEventType :=
  [.processSucess, .errorRespondTimeout, .errorReceiveData, .errorExecuteFunction]

/-- The switch of `eMBMasterWaitRequestFinish`. -/
def requestResult (recvedEvent : OSFlags) : EMBMasterReqErrCode :=
  if recvedEvent = masterFlags.code .errorRespondTimeout then .timedout
  else if recvedEvent = masterFlags.code .errorReceiveData then .revData
  else if recvedEvent = masterFlags.code .errorExecuteFunction then .exeFun
  else .noErr

/-- `eMBMasterWaitRequestFinish` of the one task that waits for these events, when it comes
back; nothing while none of them is posted. -/
def eMBMasterWaitRequestFinish (m : MasterNode) : Option (EMBMasterReqErrCode × MasterNode) :=
  let flagsRdy := m.xMasterOsEvent.osFlagFlags &&& masterFlags.mask finishedEvents
  if flagsRdy = 0 then none
  else some (requestResult flagsRdy, { m with
    xMasterOsEvent := { m.xMasterOsEvent with
      osFlagFlags := m.xMasterOsEvent.osFlagFlags &&& ~~~flagsRdy } })

/-! ### Answers -/

/-- What a handler returns and leaves: the exception, the rows, the frame and its length. -/
structure MasterHandled where
  eStatus : EMBException
  regs : MasterRegs
  buf : Memory
  usLen : INT16U

/-- What the functions that read differ in: the count they take from the request, the number
of bytes they expect, and the callback. -/
structure MasterRead where
  count : Memory → Nat → INT16U
  bytes : INT16U → Nat
  callback : INT8U → MasterRegs → Memory → Nat → INT16U → INT16U → EMBError × MasterRegs

def masterRead (f : MasterRead) (m : MasterNode) (buf : Memory) (pucFrame : Nat) (usLen : INT16U) :
    MasterHandled :=
  if m.rtu.xFrameIsBroadcast then ⟨.exNone, m.regs, buf, usLen⟩
  else if usLen ≥ 1 + 1 then
    let usRegAddress := frameWord m.sndBuf 2 + 1
    let usRegCount := f.count m.sndBuf 4
    if usRegCount ≥ 1 ∧ f.bytes usRegCount = (buf (pucFrame + 1)).toNat then
      let called := f.callback m.ucMBMasterDestAddress m.regs buf (pucFrame + 2) usRegAddress usRegCount
      ⟨exceptionOf called.1, called.2, buf, usLen⟩
    else ⟨.exIllegalDataValue, m.regs, buf, usLen⟩
  else ⟨.exIllegalDataValue, m.regs, buf, usLen⟩

/-- The count is assigned twice: its high byte is lost. -/
def lowByteCount (buf : Memory) (a : Nat) : INT16U := (buf (a + 1)).setWidth 16

def eMBMasterFuncReadCoils : MasterNode → Memory → Nat → INT16U → MasterHandled :=
  masterRead {
    count := frameWord
    bytes := fun usCoilCount => (bitBytes usCoilCount).toNat
    callback := fun dest regs buf pucRegBuffer usAddress usNCoils =>
      eMBMasterRegCoilsCB dest regs buf pucRegBuffer usAddress usNCoils .regRead }

def eMBMasterFuncReadDiscreteInputs : MasterNode → Memory → Nat → INT16U → MasterHandled :=
  masterRead {
    count := frameWord
    bytes := fun usDiscreteCnt => (bitBytes usDiscreteCnt).toNat
    callback := eMBMasterRegDiscreteCB }

def eMBMasterFuncReadInputRegister : MasterNode → Memory → Nat → INT16U → MasterHandled :=
  masterRead {
    count := lowByteCount
    bytes := fun usRegCount => 2 * usRegCount.toNat
    callback := eMBMasterRegInputCB }

def eMBMasterFuncReadHoldingRegister : MasterNode → Memory → Nat → INT16U → MasterHandled :=
  masterRead {
    count := lowByteCount
    bytes := fun usRegCount => 2 * usRegCount.toNat
    callback := fun dest regs buf pucRegBuffer usAddress usNRegs =>
      eMBMasterRegHoldingCB dest regs buf pucRegBuffer usAddress usNRegs .regRead }

/-- Everything is taken from the request. -/
def eMBMasterFuncWriteMultipleHoldingRegister (m : MasterNode) (buf : Memory) (_ : Nat) (usLen : INT16U) :
    MasterHandled :=
  if usLen = 1 + 4 ∨ m.rtu.xFrameIsBroadcast then
    let usRegAddress := frameWord m.sndBuf 2 + 1
    let usRegCount := frameWord m.sndBuf 4
    let ucRegByteCount := m.sndBuf 6
    if ucRegByteCount.toNat = 2 * usRegCount.toNat then
      let called := eMBMasterRegHoldingCB m.ucMBMasterDestAddress m.regs m.sndBuf 7 usRegAddress usRegCount
        .regWrite
      ⟨exceptionOf called.1, called.2, buf, usLen⟩
    else ⟨.exIllegalDataValue, m.regs, buf, usLen⟩
  else ⟨.exIllegalDataValue, m.regs, buf, usLen⟩

section
variable (m : MasterNode) (buf : Memory) (pucFrame : Nat) (usLen : INT16U)

def eMBMasterFuncWriteHoldingRegister : MasterHandled :=
  if usLen = 1 + 4 then
    let usRegAddress := frameWord buf (pucFrame + 1) + 1
    let called := eMBMasterRegHoldingCB m.ucMBMasterDestAddress m.regs buf (pucFrame + 3) usRegAddress 1
      .regWrite
    ⟨exceptionOf called.1, called.2, buf, usLen⟩
  else ⟨.exIllegalDataValue, m.regs, buf, usLen⟩

def eMBMasterFuncWriteCoil : MasterHandled :=
  if usLen = 4 + 1 then
    let usRegAddress := frameWord buf (pucFrame + 1) + 1
    if buf (pucFrame + 4) = 0x00 ∧ (buf (pucFrame + 3) = 0xFF ∨ buf (pucFrame + 3) = 0x00) then
      let called := eMBMasterRegCoilsCB m.ucMBMasterDestAddress m.regs (coilBuf (buf (pucFrame + 3))) 0
        usRegAddress 1 .regWrite
      ⟨exceptionOf called.1, called.2, buf, usLen⟩
    else ⟨.exIllegalDataValue, m.regs, buf, usLen⟩
  else ⟨.exIllegalDataValue, m.regs, buf, usLen⟩

/-- Address and count are taken from the answer, the coils from the request. -/
def eMBMasterFuncWriteMultipleCoils : MasterHandled :=
  if usLen = 5 ∨ m.rtu.xFrameIsBroadcast then
    let usRegAddress := frameWord buf (pucFrame + 1) + 1
    let usCoilCnt := frameWord buf (pucFrame + 3)
    let ucByteCount := m.sndBuf 6
    if usCoilCnt ≥ 1 ∧ bitBytes usCoilCnt = ucByteCount then
      let called := eMBMasterRegCoilsCB m.ucMBMasterDestAddress m.regs m.sndBuf 7 usRegAddress usCoilCnt
        .regWrite
      ⟨exceptionOf called.1, called.2, buf, usLen⟩
    else ⟨.exIllegalDataValue, m.regs, buf, usLen⟩
  else ⟨.exIllegalDataValue, m.regs, buf, usLen⟩

/-- What was written is noted before what was read. An answer that is too short is none. -/
def eMBMasterFuncReadWriteMultipleHoldingRegister : MasterHandled :=
  if m.rtu.xFrameIsBroadcast then ⟨.exNone, m.regs, buf, usLen⟩
  else if usLen ≥ 1 + 1 then
    let usRegReadAddress := frameWord m.sndBuf 2 + 1
    let usRegReadCount := frameWord m.sndBuf 4
    let usRegWriteAddress := frameWord m.sndBuf 6 + 1
    let usRegWriteCount := frameWord m.sndBuf 8
    if 2 * usRegReadCount.toNat = (buf (pucFrame + 1)).toNat then
      let written := eMBMasterRegHoldingCB m.ucMBMasterDestAddress m.regs m.sndBuf 11 usRegWriteAddress
        usRegWriteCount .regWrite
      let called :=
        if written.1 = .enoerr then
          eMBMasterRegHoldingCB m.ucMBMasterDestAddress written.2 buf (pucFrame + 2) usRegReadAddress
            usRegReadCount .regRead
        else written
      ⟨exceptionOf called.1, called.2, buf, usLen⟩
    else ⟨.exIllegalDataValue, m.regs, buf, usLen⟩
  else ⟨.exNone, m.regs, buf, usLen⟩

/-- The handler of the slave: the ID goes into the frame. -/
def eMBMasterFuncReportSlaveID : MasterHandled :=
  let handled := eMBFuncReportSlaveID m.slave buf pucFrame usLen
  ⟨handled.eStatus, m.regs, handled.buf, handled.usLen⟩

end

end GasSub.Source
