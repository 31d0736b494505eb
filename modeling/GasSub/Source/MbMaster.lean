import GasSub.Source.MbMasterFunctions
import GasSub.Source.MbSlave

/-!
# The Modbus master

`mb_m.c` in RTU mode: the table of handlers, starting and stopping the stack and the poll,
with the callbacks at the end of a request from `portevent_m.c`. A poll is modelled up to
its return or to the point where it is blocked; the variable for the event is not
initialised, and what it holds is an argument. Whether callbacks run in master mode is
read nowhere.
-/
namespace GasSub.Source
open GasSub.Library.ByteMemory

/-- The functions in the table. -/
inductive MasterHandler where
  | reportSlaveID | readInputRegister | readHoldingRegister | writeMultipleHoldingRegister
  | writeHoldingRegister | readWriteMultipleHoldingRegister | readCoils | writeCoil
  | writeMultipleCoils | readDiscreteInputs
  deriving DecidableEq, Repr

def MasterHandler.call : MasterHandler → MasterNode → Memory → Nat → INT16U → MasterHandled
  | .reportSlaveID => eMBMasterFuncReportSlaveID
  | .readInputRegister => eMBMasterFuncReadInputRegister
  | .readHoldingRegister => eMBMasterFuncReadHoldingRegister
  | .writeMultipleHoldingRegister => eMBMasterFuncWriteMultipleHoldingRegister
  | .writeHoldingRegister => eMBMasterFuncWriteHoldingRegister
  | .readWriteMultipleHoldingRegister => eMBMasterFuncReadWriteMultipleHoldingRegister
  | .readCoils => eMBMasterFuncReadCoils
  | .writeCoil => eMBMasterFuncWriteCoil
  | .writeMultipleCoils => eMBMasterFuncWriteMultipleCoils
  | .readDiscreteInputs => eMBMasterFuncReadDiscreteInputs

def xMasterFuncHandlers : List (Option (INT8U × MasterHandler)) :=
  [ some (mbFuncOtherReportSlaveid, .reportSlaveID),
    some (mbFuncReadInputRegister, .readInputRegister),
    some (mbFuncReadHoldingRegister, .readHoldingRegister),
    some (mbFuncWriteMultipleRegisters, .writeMultipleHoldingRegister),
    some (mbFuncWriteRegister, .writeHoldingRegister),
    some (mbFuncReadwriteMultipleRegisters, .readWriteMultipleHoldingRegister),
    some (mbFuncReadCoils, .readCoils),
    some (mbFuncWriteSingleCoil, .writeCoil),
    some (mbFuncWriteMultipleCoils, .writeMultipleCoils),
    some (mbFuncReadDiscreteInputs, .readDiscreteInputs) ] ++ List.replicate 6 none

/-- The search of `eMBMasterPoll`: an empty slot ends it. -/
def findMasterHandler : List (Option (INT8U × MasterHandler)) → INT8U → Option MasterHandler
  | [], _ => none
  | none :: _, _ => none
  | some slot :: rest, ucFunctionCode =>
    if slot.1 = ucFunctionCode then some slot.2 else findMasterHandler rest ucFunctionCode

/-- Where the PDU of `ucMBFrame` is: at place 1 of one of the two buffers. -/
inductive MasterBuffer where
  | receive | send
  deriving DecidableEq, Repr

/-- The static variables, those of the poll among them, and the flags that the application
reads. -/
structure Master where
  eMBState : EMBState
  node : MasterNode
  ucMBFrame : Option MasterBuffer
  ucRcvAddress : INT8U
  usLength : INT16U
  commxTimeOut1 : Bool
  commxTimeOut2 : Bool

/-! ### The stack -/

def eMBMasterEnable (m : Master) : EMBError × Master :=
  if m.eMBState = .disabled then
    (.enoerr, { m with
      eMBState := .enabled
      node := { m.node with rtu := eMBMasterRTUStart m.node.rtu } })
  else (.eillstate, m)

def eMBMasterDisable (m : Master) : EMBError × Master :=
  match m.eMBState with
  | .enabled =>
    (.enoerr, { m with
      eMBState := .disabled
      node := { m.node with rtu := eMBMasterRTUStop m.node.rtu } })
  | .disabled => (.enoerr, m)
  | .notInitialized => (.eillstate, m)

def Master.post (m : Master) (eEvent : EMBMasterEventType) : Master :=
  { m with node := m.node.post eEvent }

def Master.setErrorType (m : Master) (errorType : EMBMasterErrorEventType) : Master :=
  { m with node := { m.node with rtu := { m.node.rtu with errorType := errorType } } }

def Master.release (m : Master) : Master := { m with node := vMBMasterRunResRelease m.node }

/-- The flag of the slave, if it has one. -/
def Master.setTimeOut (m : Master) (ucDestAddress : INT8U) (value : Bool) : Master :=
  if ucDestAddress = 1 then { m with commxTimeOut1 := value }
  else if ucDestAddress = 2 then { m with commxTimeOut2 := value }
  else m

def vMBMasterErrorCBRespondTimeout (m : Master) : Master :=
  (m.post .errorRespondTimeout).setTimeOut m.node.ucMBMasterDestAddress true

def vMBMasterErrorCBReceiveData (m : Master) : Master := m.post .errorReceiveData

def vMBMasterErrorCBExecuteFunction (m : Master) : Master := m.post .errorExecuteFunction

def vMBMasterCBRequestScuuess (m : Master) : Master :=
  (m.post .processSucess).setTimeOut m.node.ucMBMasterDestAddress false

/-! ### The poll -/

/-- `EV_MASTER_FRAME_RECEIVED`. -/
def masterReceived (m : Master) : Master :=
  match eMBMasterRTUReceive m.node.rtu with
  | .ok frame =>
    let m := { m with
      ucRcvAddress := frame.ucRcvAddress
      ucMBFrame := some .receive
      usLength := frame.usLength }
    if frame.ucRcvAddress = m.node.ucMBMasterDestAddress then m.post .execute
    else (m.setErrorType .receiveData).post .errorProcess
  | .error _ => (m.setErrorType .receiveData).post .errorProcess

def MasterNode.buffer (m : MasterNode) : MasterBuffer → Memory
  | .receive => memoryOf m.rtu.ucMasterRTURcvBuf
  | .send => memoryOf m.rtu.ucMasterRTUSndBuf

def MasterNode.setBuffer (m : MasterNode) (buf : Memory) : MasterBuffer → MasterNode
  | .receive => { m with rtu := { m.rtu with ucMasterRTURcvBuf := bufferOf 256 buf } }
  | .send => { m with rtu := { m.rtu with ucMasterRTUSndBuf := bufferOf 253 buf } }

/-- A handler is called; its exception, what it leaves and the length. -/
def callMasterHandler (handler : MasterHandler) (frame : MasterBuffer) (m : MasterNode)
    (usLength : INT16U) : EMBException × MasterNode × INT16U :=
  let handled := handler.call m (m.buffer frame) 1 usLength
  (handled.eStatus, { m with regs := handled.regs }.setBuffer handled.buf frame, handled.usLen)

/-- After a broadcast it is called for all slaves from `j` on, and the last exception counts. -/
def callForSlaves (handler : MasterHandler) (frame : MasterBuffer) :
    (slaves j : Nat) → EMBException × MasterNode × INT16U → EMBException × MasterNode × INT16U
  | 0, _, called => called
  | slaves + 1, j, called =>
    callForSlaves handler frame slaves (j + 1)
      (callMasterHandler handler frame
        { called.2.1 with ucMBMasterDestAddress := BitVec.ofNat 8 j } called.2.2)

/-- The exception, the node and the length when the search is over. -/
def executeHandler (m : Master) (frame : MasterBuffer) (ucFunctionCode : INT8U) :
    EMBException × MasterNode × INT16U :=
  match findMasterHandler xMasterFuncHandlers ucFunctionCode with
  | none => (.exIllegalFunction, m.node, m.usLength)
  | some handler =>
    if m.node.rtu.xFrameIsBroadcast then
      callForSlaves handler frame mbMasterTotalSlaveNum 1
        (.exIllegalFunction, m.node, m.node.usMasterSendPDULength)
    else callMasterHandler handler frame m.node m.usLength

/-- `EV_MASTER_EXECUTE`: an answer whose function code has the highest bit is an exception. -/
def masterExecute (m : Master) : Option Master :=
  m.ucMBFrame.map fun frame =>
    let ucFunctionCode := m.node.buffer frame 1
    let executed : INT8U × MasterNode × INT16U :=
      if ucFunctionCode >>> 7 ≠ 0 then (m.node.buffer frame 2, m.node, m.usLength)
      else
        let called := executeHandler m frame ucFunctionCode
        (called.1.value, called.2.1, called.2.2)
    let m := { m with node := executed.2.1, usLength := executed.2.2 }
    if executed.1 ≠ EMBException.exNone.value then
      (m.setErrorType .executeFunction).post .errorProcess
    else (vMBMasterCBRequestScuuess m).release

/-- `EV_MASTER_FRAME_SENT`; what the send function returns is not used. -/
def masterFrameSent (m : Master) : Option Master :=
  (eMBMasterRTUSend m.node.rtu m.node.ucMBMasterDestAddress m.node.usMasterSendPDULength).map
    fun sent => { m with ucMBFrame := some .send, node := { m.node with rtu := sent.2 } }

/-- `EV_MASTER_ERROR_PROCESS`. -/
def masterErrorProcess (m : Master) : Master :=
  let m := { m with ucMBFrame := some .send }
  let m :=
    match m.node.rtu.errorType with
    | .respondTimeout => vMBMasterErrorCBRespondTimeout m
    | .receiveData => vMBMasterErrorCBReceiveData m
    | .executeFunction => vMBMasterErrorCBExecuteFunction m
  m.release

/-- The switch on the event. -/
def masterSwitch (m : Master) (eEvent : INT32U) : Option Master :=
  if eEvent = EMBMasterEventType.value .frameReceived then some (masterReceived m)
  else if eEvent = EMBMasterEventType.value .execute then masterExecute m
  else if eEvent = EMBMasterEventType.value .frameSent then masterFrameSent m
  else if eEvent = EMBMasterEventType.value .errorProcess then some (masterErrorProcess m)
  else some m

/-- What follows a get, unless it is blocked. -/
def masterGot (m : Master) (got : Option INT32U × OSFlagGrp) : Option (Option EMBError × Master) :=
  let m := { m with node := { m.node with xMasterOsEvent := got.2 } }
  match got.1 with
  | none => some (none, m)
  | some eEvent => (masterSwitch m eEvent).map fun m => (some .enoerr, m)

/-- `eMBMasterPoll` up to its return, with what it returns, or to the point where it is
blocked. -/
def eMBMasterPoll (m : Master) (eEvent : INT32U) : Option (Option EMBError × Master) :=
  if m.eMBState ≠ .enabled then some (some .eillstate, m)
  else masterGot m (xMBMasterPortEventGet m.node.xMasterOsEvent eEvent)

/-- The rest of a poll that was blocked. -/
def eMBMasterPollResume (m : Master) (eEvent : INT32U) : Option (Option EMBError × Master) :=
  masterGot m (xMBMasterPortEventGetResume m.node.xMasterOsEvent eEvent)

end GasSub.Source
