import GasSub.Source.MbRtuSlave
import GasSub.Source.MbSlaveFunctions

/-!
# The Modbus slave

`mb.c` in RTU mode: the table of function handlers, starting and stopping the stack and
the poll. A slot of the table is empty or has a function code and a handler. The event a
poll gets is its argument, the events it posts are part of its result.
-/
namespace GasSub.Source
open GasSub.Library.ByteMemory

/-- The functions that a slot can point to. -/
inductive FunctionHandler where
  | reportSlaveID | readInputRegister | readHoldingRegister | writeMultipleHoldingRegister
  | writeHoldingRegister | readWriteMultipleHoldingRegister | readCoils | writeCoil
  | writeMultipleCoils | readDiscreteInputs
  deriving DecidableEq, Repr

/-- `pxHandler( pucFrame, &usLen )`. -/
def FunctionHandler.call : FunctionHandler → SlaveNode → Memory → Nat → INT16U → Handled
  | .reportSlaveID => eMBFuncReportSlaveID
  | .readInputRegister => eMBFuncReadInputRegister
  | .readHoldingRegister => eMBFuncReadHoldingRegister
  | .writeMultipleHoldingRegister => eMBFuncWriteMultipleHoldingRegister
  | .writeHoldingRegister => eMBFuncWriteHoldingRegister
  | .readWriteMultipleHoldingRegister => eMBFuncReadWriteMultipleHoldingRegister
  | .readCoils => eMBFuncReadCoils
  | .writeCoil => eMBFuncWriteCoil
  | .writeMultipleCoils => eMBFuncWriteMultipleCoils
  | .readDiscreteInputs => eMBFuncReadDiscreteInputs

abbrev HandlerTable := List (Option (INT8U × FunctionHandler))

def mbFuncHandlersMax : Nat := 16

/-- `xFuncHandlers` as it is initialised. -/
def xFuncHandlers : HandlerTable :=
  [ some (mbFuncOtherReportSlaveid, .reportSlaveID),
    some (mbFuncReadInputRegister, .readInputRegister),
    some (mbFuncReadHoldingRegister, .readHoldingRegister),
    some (mbFuncWriteMultipleRegisters, .writeMultipleHoldingRegister),
    some (mbFuncWriteRegister, .writeHoldingRegister),
    some (mbFuncReadwriteMultipleRegisters, .readWriteMultipleHoldingRegister),
    some (mbFuncReadCoils, .readCoils),
    some (mbFuncWriteSingleCoil, .writeCoil),
    some (mbFuncWriteMultipleCoils, .writeMultipleCoils),
    some (mbFuncReadDiscreteInputs, .readDiscreteInputs) ] ++ List.replicate 6 none

/-- The search of `eMBPoll`: an empty slot ends it. -/
def findHandler : HandlerTable → INT8U → Option FunctionHandler
  | [], _ => none
  | none :: _, _ => none
  | some slot :: rest, ucFunctionCode =>
    if slot.1 = ucFunctionCode then some slot.2 else findHandler rest ucFunctionCode

/-- The slot a handler goes to: the first that is empty or has the same handler. -/
def takesHandler (pxHandler : FunctionHandler) (slot : Option (INT8U × FunctionHandler)) : Bool :=
  match slot with
  | none => true
  | some used => used.2 = pxHandler

/-- The slot that a removal empties. -/
def hasCode (ucFunctionCode : INT8U) (slot : Option (INT8U × FunctionHandler)) : Bool :=
  match slot with
  | none => false
  | some used => used.1 = ucFunctionCode

/-- The first slot of a kind is assigned. -/
def assignFirst (kind : Option (INT8U × FunctionHandler) → Bool)
    (slot : Option (INT8U × FunctionHandler)) : HandlerTable → Option HandlerTable
  | [] => none
  | used :: rest =>
    if kind used then some (slot :: rest) else (assignFirst kind slot rest).map (used :: ·)

def eMBRegisterCB (table : HandlerTable) (ucFunctionCode : INT8U)
    (pxHandler : Option FunctionHandler) : EMBError × HandlerTable :=
  if 0 < ucFunctionCode ∧ ucFunctionCode ≤ 127 then
    match pxHandler with
    | some handler =>
      match assignFirst (takesHandler handler) (some (ucFunctionCode, handler)) table with
      | some assigned => (.enoerr, assigned)
      | none => (.enores, table)
    | none => (.enoerr, (assignFirst (hasCode ucFunctionCode) none table).getD table)
  else (.einval, table)

/-! ### The stack -/

inductive EMBState where
  | enabled | disabled | notInitialized
  deriving DecidableEq, Repr

/-- The static variables, those of the poll among them. -/
structure Slave where
  eMBState : EMBState
  ucMBAddress : INT8U
  table : HandlerTable
  rtu : RtuSlave
  node : SlaveNode
  ucMBFrame : Nat
  ucRcvAddress : INT8U
  usLength : INT16U

def mbAddressMax : INT8U := 247

/-- `eMBInit` for `MB_RTU`, where the port is initialised. -/
def eMBInit (s : Slave) (ucSlaveAddress : INT8U) : EMBError × Slave :=
  if ucSlaveAddress = mbAddressBroadcast ∨ mbAddressMax < ucSlaveAddress then (.einval, s)
  else (.enoerr, { s with ucMBAddress := ucSlaveAddress, eMBState := .disabled })

def eMBEnable (s : Slave) : EMBError × Slave :=
  if s.eMBState = .disabled then
    (.enoerr, { s with rtu := eMBRTUStart s.rtu, eMBState := .enabled })
  else (.eillstate, s)

def eMBDisable (s : Slave) : EMBError × Slave :=
  match s.eMBState with
  | .enabled => (.enoerr, { s with rtu := eMBRTUStop s.rtu, eMBState := .disabled })
  | .disabled => (.enoerr, s)
  | .notInitialized => (.eillstate, s)

/-- `EV_FRAME_RECEIVED` in the poll. -/
def pollReceived (s : Slave) : Slave × List EMBEventType :=
  match eMBRTUReceive s.rtu with
  | .ok frame =>
    ({ s with
      ucRcvAddress := frame.ucRcvAddress
      ucMBFrame := frame.pucFrame
      usLength := frame.usLength },
      if frame.ucRcvAddress = s.ucMBAddress ∨ frame.ucRcvAddress = mbAddressBroadcast then [.execute]
      else [])
  | .error _ => (s, [])

/-- The handler of the function code, if the search finds one. -/
def callHandler (s : Slave) : Handled :=
  match findHandler s.table (s.rtu.ucRTUBuf s.ucMBFrame) with
  | some handler => handler.call s.node s.rtu.ucRTUBuf s.ucMBFrame s.usLength
  | none => ⟨.exIllegalFunction, s.node, s.rtu.ucRTUBuf, s.usLength⟩

/-- The error frame in place of the answer of a handler that failed. -/
def errorFrame (ucFunctionCode : INT8U) (pucFrame : Nat) (h : Handled) : Memory × INT16U :=
  if h.eStatus ≠ .exNone then
    let buf := store h.buf pucFrame [ucFunctionCode ||| mbFuncError]
    (store buf (pucFrame + 1) [h.eStatus.value], 2)
  else (h.buf, h.usLen)

/-- `EV_EXECUTE` in the poll. -/
def pollExecute (s : Slave) : Slave :=
  let ucFunctionCode := s.rtu.ucRTUBuf s.ucMBFrame
  let handled := callHandler s
  if s.ucRcvAddress ≠ mbAddressBroadcast then
    let answer := errorFrame ucFunctionCode s.ucMBFrame handled
    { s with
      node := handled.node
      usLength := answer.2
      rtu := (eMBRTUSend { s.rtu with ucRTUBuf := answer.1 } s.ucMBAddress s.ucMBFrame answer.2).2 }
  else
    { s with
      node := handled.node
      usLength := handled.usLen
      rtu := { s.rtu with ucRTUBuf := handled.buf } }

/-- `eMBPoll` with the event it gets, if there is one. -/
def eMBPoll (s : Slave) (eEvent : Option EMBEventType) : EMBError × Slave × List EMBEventType :=
  if s.eMBState ≠ .enabled then (.eillstate, s, [])
  else
    match eEvent with
    | some .frameReceived => (.enoerr, pollReceived s)
    | some .execute => (.enoerr, pollExecute s, [])
    | _ => (.enoerr, s, [])

end GasSub.Source
