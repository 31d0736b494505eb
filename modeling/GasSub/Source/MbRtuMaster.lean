import GasSub.Source.PortEvent
import GasSub.Source.PortTimer

/-!
# The RTU machines of the Modbus master

`mbrtu_m.c`: sending and receiving a frame, the receive and the transmit machine and what
they do when timer 3 expires. `vMBMasterPortSerialEnable` is empty in this port and
`assert_param` only reports. A read or a write outside a buffer leaves no defined
state.
-/
namespace GasSub.Source

/-! ### The checksum -/

def aucCRCHi : Array INT8U :=
  #[
    0x00, 0xC1, 0x81, 0x40, 0x01, 0xC0, 0x80, 0x41, 0x01, 0xC0, 0x80, 0x41,
    0x00, 0xC1, 0x81, 0x40, 0x01, 0xC0, 0x80, 0x41, 0x00, 0xC1, 0x81, 0x40,
    0x00, 0xC1, 0x81, 0x40, 0x01, 0xC0, 0x80, 0x41, 0x01, 0xC0, 0x80, 0x41,
    0x00, 0xC1, 0x81, 0x40, 0x00, 0xC1, 0x81, 0x40, 0x01, 0xC0, 0x80, 0x41,
    0x00, 0xC1, 0x81, 0x40, 0x01, 0xC0, 0x80, 0x41, 0x01, 0xC0, 0x80, 0x41,
    0x00, 0xC1, 0x81, 0x40, 0x01, 0xC0, 0x80, 0x41, 0x00, 0xC1, 0x81, 0x40,
    0x00, 0xC1, 0x81, 0x40, 0x01, 0xC0, 0x80, 0x41, 0x00, 0xC1, 0x81, 0x40,
    0x01, 0xC0, 0x80, 0x41, 0x01, 0xC0, 0x80, 0x41, 0x00, 0xC1, 0x81, 0x40,
    0x00, 0xC1, 0x81, 0x40, 0x01, 0xC0, 0x80, 0x41, 0x01, 0xC0, 0x80, 0x41,
    0x00, 0xC1, 0x81, 0x40, 0x01, 0xC0, 0x80, 0x41, 0x00, 0xC1, 0x81, 0x40,
    0x00, 0xC1, 0x81, 0x40, 0x01, 0xC0, 0x80, 0x41, 0x01, 0xC0, 0x80, 0x41,
    0x00, 0xC1, 0x81, 0x40, 0x00, 0xC1, 0x81, 0x40, 0x01, 0xC0, 0x80, 0x41,
    0x00, 0xC1, 0x81, 0x40, 0x01, 0xC0, 0x80, 0x41, 0x01, 0xC0, 0x80, 0x41,
    0x00, 0xC1, 0x81, 0x40, 0x00, 0xC1, 0x81, 0x40, 0x01, 0xC0, 0x80, 0x41,
    0x01, 0xC0, 0x80, 0x41, 0x00, 0xC1, 0x81, 0x40, 0x01, 0xC0, 0x80, 0x41,
    0x00, 0xC1, 0x81, 0x40, 0x00, 0xC1, 0x81, 0x40, 0x01, 0xC0, 0x80, 0x41,
    0x00, 0xC1, 0x81, 0x40, 0x01, 0xC0, 0x80, 0x41, 0x01, 0xC0, 0x80, 0x41,
    0x00, 0xC1, 0x81, 0x40, 0x01, 0xC0, 0x80, 0x41, 0x00, 0xC1, 0x81, 0x40,
    0x00, 0xC1, 0x81, 0x40, 0x01, 0xC0, 0x80, 0x41, 0x01, 0xC0, 0x80, 0x41,
    0x00, 0xC1, 0x81, 0x40, 0x00, 0xC1, 0x81, 0x40, 0x01, 0xC0, 0x80, 0x41,
    0x00, 0xC1, 0x81, 0x40, 0x01, 0xC0, 0x80, 0x41, 0x01, 0xC0, 0x80, 0x41,
    0x00, 0xC1, 0x81, 0x40]

def aucCRCLo : Array INT8U :=
  #[
    0x00, 0xC0, 0xC1, 0x01, 0xC3, 0x03, 0x02, 0xC2, 0xC6, 0x06, 0x07, 0xC7,
    0x05, 0xC5, 0xC4, 0x04, 0xCC, 0x0C, 0x0D, 0xCD, 0x0F, 0xCF, 0xCE, 0x0E,
    0x0A, 0xCA, 0xCB, 0x0B, 0xC9, 0x09, 0x08, 0xC8, 0xD8, 0x18, 0x19, 0xD9,
    0x1B, 0xDB, 0xDA, 0x1A, 0x1E, 0xDE, 0xDF, 0x1F, 0xDD, 0x1D, 0x1C, 0xDC,
    0x14, 0xD4, 0xD5, 0x15, 0xD7, 0x17, 0x16, 0xD6, 0xD2, 0x12, 0x13, 0xD3,
    0x11, 0xD1, 0xD0, 0x10, 0xF0, 0x30, 0x31, 0xF1, 0x33, 0xF3, 0xF2, 0x32,
    0x36, 0xF6, 0xF7, 0x37, 0xF5, 0x35, 0x34, 0xF4, 0x3C, 0xFC, 0xFD, 0x3D,
    0xFF, 0x3F, 0x3E, 0xFE, 0xFA, 0x3A, 0x3B, 0xFB, 0x39, 0xF9, 0xF8, 0x38,
    0x28, 0xE8, 0xE9, 0x29, 0xEB, 0x2B, 0x2A, 0xEA, 0xEE, 0x2E, 0x2F, 0xEF,
    0x2D, 0xED, 0xEC, 0x2C, 0xE4, 0x24, 0x25, 0xE5, 0x27, 0xE7, 0xE6, 0x26,
    0x22, 0xE2, 0xE3, 0x23, 0xE1, 0x21, 0x20, 0xE0, 0xA0, 0x60, 0x61, 0xA1,
    0x63, 0xA3, 0xA2, 0x62, 0x66, 0xA6, 0xA7, 0x67, 0xA5, 0x65, 0x64, 0xA4,
    0x6C, 0xAC, 0xAD, 0x6D, 0xAF, 0x6F, 0x6E, 0xAE, 0xAA, 0x6A, 0x6B, 0xAB,
    0x69, 0xA9, 0xA8, 0x68, 0x78, 0xB8, 0xB9, 0x79, 0xBB, 0x7B, 0x7A, 0xBA,
    0xBE, 0x7E, 0x7F, 0xBF, 0x7D, 0xBD, 0xBC, 0x7C, 0xB4, 0x74, 0x75, 0xB5,
    0x77, 0xB7, 0xB6, 0x76, 0x72, 0xB2, 0xB3, 0x73, 0xB1, 0x71, 0x70, 0xB0,
    0x50, 0x90, 0x91, 0x51, 0x93, 0x53, 0x52, 0x92, 0x96, 0x56, 0x57, 0x97,
    0x55, 0x95, 0x94, 0x54, 0x9C, 0x5C, 0x5D, 0x9D, 0x5F, 0x9F, 0x9E, 0x5E,
    0x5A, 0x9A, 0x9B, 0x5B, 0x99, 0x59, 0x58, 0x98, 0x88, 0x48, 0x49, 0x89,
    0x4B, 0x8B, 0x8A, 0x4A, 0x4E, 0x8E, 0x8F, 0x4F, 0x8D, 0x4D, 0x4C, 0x8C,
    0x44, 0x84, 0x85, 0x45, 0x87, 0x47, 0x46, 0x86, 0x82, 0x42, 0x43, 0x83,
    0x41, 0x81, 0x80, 0x40]

/-- One pass of `usMBCRC16` on `ucCRCHi` and `ucCRCLo`. -/
def crcByte (crc : INT8U × INT8U) (byte : INT8U) : INT8U × INT8U :=
  let iIndex := (crc.2 ^^^ byte).toNat
  (aucCRCLo.getD iIndex 0, crc.1 ^^^ aucCRCHi.getD iIndex 0)

/-- `usMBCRC16`: the two bytes of its result, the high one first. -/
def usMBCRC16 (pucFrame : List INT8U) : INT8U × INT8U := pucFrame.foldl crcByte (0xFF, 0xFF)

/-! ### The state -/

inductive EMBMasterRcvState where
  | rxInit | rxIdle | rxRcv | rxError
  deriving DecidableEq, Repr

inductive EMBMasterSndState where
  | txIdle | txXmit | txXfwr
  deriving DecidableEq, Repr

inductive EMBMasterErrorEventType where
  | respondTimeout | receiveData | executeFunction
  deriving DecidableEq, Repr

/-- The static variables, the timer and the bytes put on the line. `pucMasterSndBufferCur`
is an index into `ucMasterRTUSndBuf`. -/
structure RtuMaster where
  eSndState : EMBMasterSndState
  eRcvState : EMBMasterRcvState
  ucMasterRTUSndBuf : Vector INT8U 253
  ucMasterRTURcvBuf : Vector INT8U 256
  pucMasterSndBufferCur : Nat
  usMasterSndBufferCount : INT16U
  usMasterRcvBufferPos : Nat
  xFrameIsBroadcast : Bool
  errorType : EMBMasterErrorEventType
  timers : MasterTimers
  line : List INT8U
  deriving DecidableEq, Repr

def RtuMaster.onTimers (m : RtuMaster) (change : MasterTimers → MasterTimers) : RtuMaster :=
  { m with timers := change m.timers }

def eMBMasterRTUStart (m : RtuMaster) : RtuMaster :=
  { m with eRcvState := .rxInit }.onTimers vMBMasterPortTimersT35Enable

def eMBMasterRTUStop (m : RtuMaster) : RtuMaster := m.onTimers vMBMasterPortTimersDisable

/-! ### Sending -/

def mbMasterTotalSlaveNum : Nat := 16
def mbAddressBroadcast : INT8U := 0

inductive EMBErrorCode where
  | enoerr | einval | eio
  deriving DecidableEq, Repr

/-- The frame is the address, the PDU behind it in `ucMasterRTUSndBuf` and the checksum. -/
def rtuFrame (m : RtuMaster) (ucSlaveAddress : INT8U) (usLength : INT16U) : Option RtuMaster :=
  let sndBuf := m.ucMasterRTUSndBuf.set 0 ucSlaveAddress
  let count := 1 + usLength
  if inside : count.toNat + 1 < 253 then
    let usCRC16 := usMBCRC16 (sndBuf.toList.take count.toNat)
    some { m with
      pucMasterSndBufferCur := 0
      ucMasterRTUSndBuf := (sndBuf.set count.toNat usCRC16.2).set (count.toNat + 1) usCRC16.1
      usMasterSndBufferCount := count + 2
      eSndState := .txXmit }
  else none

/-- `eMBMasterRTUSend` of the PDU in `ucMasterRTUSndBuf`. -/
def eMBMasterRTUSend (m : RtuMaster) (ucSlaveAddress : INT8U) (usLength : INT16U) :
    Option (EMBErrorCode × RtuMaster) :=
  if mbMasterTotalSlaveNum < ucSlaveAddress.toNat then some (.einval, m)
  else if m.eRcvState = .rxIdle then
    (rtuFrame m ucSlaveAddress usLength).map fun sent => (.enoerr, sent)
  else some (.eio, m)

/-! ### Receiving -/

def mbSerPduSizeMin : Nat := 4
def mbSerPduSizeMax : Nat := 256
def mbSerPduSizeCrc : Nat := 2
def mbSerPduAddrOff : Nat := 0
def mbSerPduPduOff : Nat := 1

/-- What a receive function hands over: the address, the place of the PDU in the buffer and
its length. -/
structure RcvFrame where
  ucRcvAddress : INT8U
  pucFrame : Nat
  usLength : INT16U
  deriving DecidableEq, Repr

/-- `eMBMasterRTUReceive` on the bytes received, and the error it returns otherwise. -/
def eMBMasterRTUReceive (m : RtuMaster) : Except EMBErrorCode RcvFrame :=
  if mbSerPduSizeMin ≤ m.usMasterRcvBufferPos ∧
      usMBCRC16 (m.ucMasterRTURcvBuf.toList.take m.usMasterRcvBufferPos) = (0, 0) then
    .ok {
      ucRcvAddress := m.ucMasterRTURcvBuf[0]
      pucFrame := mbSerPduPduOff
      usLength := BitVec.ofNat 16 (m.usMasterRcvBufferPos - mbSerPduPduOff - mbSerPduSizeCrc) }
  else .error .eio

/-! ### The machines -/

def xMBMasterRTUReceiveFSM (m : RtuMaster) (ucByte : INT8U) : RtuMaster :=
  match m.eRcvState with
  | .rxInit => m.onTimers vMBMasterPortTimersT35Enable
  | .rxError => m.onTimers vMBMasterPortTimersT35Enable
  | .rxIdle =>
    { m.onTimers vMBMasterPortTimersDisable with
      eSndState := .txIdle
      ucMasterRTURcvBuf := m.ucMasterRTURcvBuf.set 0 ucByte
      usMasterRcvBufferPos := 1
      eRcvState := .rxRcv }.onTimers vMBMasterPortTimersT35Enable
  | .rxRcv =>
    if inside : m.usMasterRcvBufferPos < 256 then
      { m with
        ucMasterRTURcvBuf := m.ucMasterRTURcvBuf.set m.usMasterRcvBufferPos ucByte
        usMasterRcvBufferPos := m.usMasterRcvBufferPos + 1 }.onTimers vMBMasterPortTimersT35Enable
    else { m with eRcvState := .rxError }.onTimers vMBMasterPortTimersT35Enable

/-- The end of a frame in the transmit machine. -/
def rtuFrameSent (m : RtuMaster) : RtuMaster :=
  let xFrameIsBroadcast : Bool := m.ucMasterRTUSndBuf.toList.head? = some mbAddressBroadcast
  { m with
    xFrameIsBroadcast := xFrameIsBroadcast
    eSndState := .txXfwr }.onTimers
      (if xFrameIsBroadcast then vMBMasterPortTimersConvertDelayEnable
      else vMBMasterPortTimersRespondTimeoutEnable)

def xMBMasterRTUTransmitFSM (m : RtuMaster) : Option RtuMaster :=
  match m.eSndState with
  | .txIdle => some m
  | .txXfwr => some m
  | .txXmit =>
    if m.usMasterSndBufferCount = 0 then some (rtuFrameSent m)
    else if inside : m.pucMasterSndBufferCur < 253 then
      some { m with
        line := m.line ++ [m.ucMasterRTUSndBuf[m.pucMasterSndBufferCur]]
        pucMasterSndBufferCur := m.pucMasterSndBufferCur + 1
        usMasterSndBufferCount := m.usMasterSndBufferCount - 1 }
    else none

/-- `xMBMasterRTUTimerExpired` and the events it posts. -/
def xMBMasterRTUTimerExpired (m : RtuMaster) : RtuMaster × List EMBMasterEventType :=
  let received : List EMBMasterEventType :=
    match m.eRcvState with
    | .rxInit => [.ready]
    | .rxRcv => [.frameReceived]
    | _ => []
  let unanswered := m.eSndState = .txXfwr ∧ m.xFrameIsBroadcast = false
  let failed : List EMBMasterEventType := if unanswered then [.errorProcess] else []
  let executed : List EMBMasterEventType :=
    if m.timers.eMasterCurTimerMode = .convertDelay then [.execute] else []
  ({ m with
    eRcvState := .rxIdle
    errorType := if unanswered then .respondTimeout else m.errorType
    eSndState := .txIdle }.onTimers vMBMasterPortTimersDisable, received ++ failed ++ executed)

end GasSub.Source
