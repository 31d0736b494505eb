import GasSub.Library.ByteMemory
import GasSub.Source.MbRtuMaster

/-!
# The RTU machines of the Modbus slave

`mbrtu.c`: starting, sending and receiving a frame, the receive and the transmit machine
and what they do when the timer expires. `ucRTUBuf` is the memory from its first byte on,
256 bytes of it belong to the buffer, and pointers into it are places in it. Of the port
the model keeps which interrupts of the UART are enabled and whether the timer runs.
-/
namespace GasSub.Source
open GasSub.Library.ByteMemory

inductive EMBRcvState where
  | rxInit | rxIdle | rxRcv | rxError
  deriving DecidableEq, Repr

inductive EMBSndState where
  | txIdle | txXmit
  deriving DecidableEq, Repr

inductive EMBEventType where
  | ready | frameReceived | execute | frameSent
  deriving DecidableEq, Repr

/-- The interrupts of the UART that are enabled. -/
structure SlaveSerial where
  xRxEnable : Bool
  xTxEnable : Bool
  deriving DecidableEq, Repr

/-- The static variables, the port and the bytes put on the line. -/
structure RtuSlave where
  eSndState : EMBSndState
  eRcvState : EMBRcvState
  ucRTUBuf : Memory
  pucSndBufferCur : Nat
  usSndBufferCount : INT16U
  usRcvBufferPos : Nat
  serial : SlaveSerial
  timerRuns : Bool
  line : List INT8U

/-- The static variables before `eMBRTUInit`. -/
def RtuSlave.reset : RtuSlave where
  eSndState := .txIdle
  eRcvState := .rxInit
  ucRTUBuf := fun _ => 0
  pucSndBufferCur := 0
  usSndBufferCount := 0
  usRcvBufferPos := 0
  serial := ⟨false, false⟩
  timerRuns := false
  line := []

def vMBPortSerialEnable (s : RtuSlave) (xRxEnable xTxEnable : Bool) : RtuSlave :=
  { s with serial := ⟨xRxEnable, xTxEnable⟩ }

def vMBPortTimersEnable (s : RtuSlave) : RtuSlave := { s with timerRuns := true }

def vMBPortTimersDisable (s : RtuSlave) : RtuSlave := { s with timerRuns := false }

def eMBRTUStart (s : RtuSlave) : RtuSlave :=
  vMBPortTimersEnable (vMBPortSerialEnable { s with eRcvState := .rxInit } true false)

def eMBRTUStop (s : RtuSlave) : RtuSlave := vMBPortTimersDisable (vMBPortSerialEnable s false false)

/-- The bytes received. -/
def RtuSlave.received (s : RtuSlave) : List INT8U := (List.range s.usRcvBufferPos).map s.ucRTUBuf

/-- `eMBRTUReceive` on the bytes received, and the error it returns otherwise. -/
def eMBRTUReceive (s : RtuSlave) : Except EMBErrorCode RcvFrame :=
  if mbSerPduSizeMin ≤ s.usRcvBufferPos ∧ usMBCRC16 s.received = (0, 0) then
    .ok {
      ucRcvAddress := s.ucRTUBuf mbSerPduAddrOff
      pucFrame := mbSerPduPduOff
      usLength := BitVec.ofNat 16 (s.usRcvBufferPos - mbSerPduPduOff - mbSerPduSizeCrc) }
  else .error .eio

/-- `eMBRTUSend` of a PDU in `ucRTUBuf`: the address goes in front of it, and the checksum to
where the frame ends if it begins with the buffer. -/
def eMBRTUSend (s : RtuSlave) (ucSlaveAddress : INT8U) (pucFrame : Nat) (usLength : INT16U) :
    EMBErrorCode × RtuSlave :=
  if s.eRcvState = .rxIdle then
    let pucSndBufferCur := pucFrame - 1
    let buf := store s.ucRTUBuf (pucSndBufferCur + mbSerPduAddrOff) [ucSlaveAddress]
    let count := 1 + usLength
    let usCRC16 := usMBCRC16 ((List.range count.toNat).map fun i => buf (pucSndBufferCur + i))
    let buf := store buf count.toNat [usCRC16.2]
    let buf := store buf (count + 1).toNat [usCRC16.1]
    (.enoerr, vMBPortSerialEnable { s with
      pucSndBufferCur := pucSndBufferCur
      ucRTUBuf := buf
      usSndBufferCount := count + 2
      eSndState := .txXmit } false true)
  else (.eio, s)

def xMBRTUReceiveFSM (s : RtuSlave) (ucByte : INT8U) : RtuSlave :=
  match s.eRcvState with
  | .rxInit => vMBPortTimersEnable s
  | .rxError => vMBPortTimersEnable s
  | .rxIdle =>
    vMBPortTimersEnable { s with
      ucRTUBuf := store s.ucRTUBuf 0 [ucByte]
      usRcvBufferPos := 1
      eRcvState := .rxRcv }
  | .rxRcv =>
    if s.usRcvBufferPos < mbSerPduSizeMax then
      vMBPortTimersEnable { s with
        ucRTUBuf := store s.ucRTUBuf s.usRcvBufferPos [ucByte]
        usRcvBufferPos := s.usRcvBufferPos + 1 }
    else vMBPortTimersEnable { s with eRcvState := .rxError }

/-- `xMBRTUTransmitFSM` and the event it posts. -/
def xMBRTUTransmitFSM (s : RtuSlave) : RtuSlave × List EMBEventType :=
  match s.eSndState with
  | .txIdle => (vMBPortSerialEnable s true false, [])
  | .txXmit =>
    if s.usSndBufferCount ≠ 0 then
      ({ s with
        line := s.line ++ [s.ucRTUBuf s.pucSndBufferCur]
        pucSndBufferCur := s.pucSndBufferCur + 1
        usSndBufferCount := s.usSndBufferCount - 1 }, [])
    else (vMBPortSerialEnable { s with eSndState := .txIdle } true false, [.frameSent])

/-- `xMBRTUTimerT35Expired` and the events it posts. -/
def xMBRTUTimerT35Expired (s : RtuSlave) : RtuSlave × List EMBEventType :=
  let posted : List EMBEventType :=
    match s.eRcvState with
    | .rxInit => [.ready]
    | .rxRcv => [.frameReceived]
    | _ => []
  (vMBPortTimersDisable { s with eRcvState := .rxIdle }, posted)

end GasSub.Source
