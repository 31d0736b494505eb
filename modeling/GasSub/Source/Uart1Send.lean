import GasSub.Source.Uart1Receive

/-!
# UART1 transmission

The transmit branch of `UART1_IRQHandler`, `Uart1_Send_Struct`, and the handler
as a whole. `line` is the sequence of bytes handed to `UART_SendByte`, and
`threEnabled` the THRE bit of the interrupt enable register, which the handler
writes but does not read.
-/
namespace GasSub.Source

/-- The transmit-side globals of the driver and the transmitter they drive. -/
structure Uart1Tx where
  dataToSend : Vector INT8U 8
  uart1SendOK : INT8U
  uart1SendIndex : INT16U
  threEnabled : Bool
  line : List INT8U
  deriving DecidableEq, Repr

/-- What `LPC_Uart_Init` does to the transmit side. -/
def lpcUartInitSend (s : Uart1Tx) : Uart1Tx := { s with uart1SendIndex := 0, uart1SendOK := 1 }

/-- `UART_SendByte`. -/
def uartSendByte (s : Uart1Tx) (byte : INT8U) : Uart1Tx := { s with line := s.line ++ [byte] }

/-- The eight stores of `Uart1_Send_Struct`. -/
def commandBytes (command : SendStruct) : Vector INT8U 8 :=
  let clear := command.clearFreCount
  let sel := command.sel
  let out := command.outPut.setWidth 16
  #v[0x5B,
    ((clear &&& 0xFE00) >>> 8).setWidth 8,
    ((clear &&& 0x01FC) >>> 1).setWidth 8,
    ((clear &&& 0x3) <<< 6 ||| (sel &&& 0xF800) >>> 10).setWidth 8,
    ((sel &&& 0x07F0) >>> 3).setWidth 8,
    ((sel &&& 0x0F) <<< 4 ||| (out &&& 0xE0) >>> 4).setWidth 8,
    ((out &&& 0x1F) <<< 3).setWidth 8,
    0xB5]

/-- `Uart1_Send_Struct`, compiled with `UART1SEND_INT`. -/
def uart1SendStruct (s : Uart1Tx) (command : SendStruct) : Uart1Tx :=
  if s.uart1SendOK = 0 then s
  else
    let filled := { s with dataToSend := commandBytes command }
    { uartSendByte filled filled.dataToSend.head with threEnabled := true, uart1SendOK := 0 }

/-- Its statement that sends the first byte. -/
def uart1SendFirst (s : Uart1Tx) : Uart1Tx := uartSendByte s s.dataToSend.head

/-- The THRE branch of the handler. An index behind the end of `dataToSend` reads a
byte of some other variable, here 0. -/
def uart1IRQHandlerSend (s : Uart1Tx) : Uart1Tx :=
  let index := s.uart1SendIndex + 1
  let sent := uartSendByte { s with uart1SendIndex := index } (s.dataToSend.toList.getD index.toNat 0)
  if 7 ≤ index.toNat then
    { sent with threEnabled := false, uart1SendOK := 1, uart1SendIndex := 0 }
  else sent

/-- Both halves of the driver. -/
structure Uart1 where
  rx : Uart1Rx
  tx : Uart1Tx
  deriving DecidableEq, Repr

/-! The identifications of `lpc177x_8x_uart.h`. -/

def uartIirIntidRls : INT32U := 3 <<< 1
def uartIirIntidRda : INT32U := 2 <<< 1
def uartIirIntidCti : INT32U := 6 <<< 1
def uartIirIntidThre : INT32U := 1 <<< 1

/-- `UART1_IRQHandler`: `intsrc` is what `UART_GetIntId` returns and `received` what
`UART_ReceiveByte` would. A line-status interrupt is only acknowledged. -/
def uart1IRQHandler (s : Uart1) (intsrc : INT32U) (received : INT8U) : Uart1 :=
  let source := intsrc &&& 0x0f
  if source = uartIirIntidRls then s
  else if source = uartIirIntidRda ∨ source = uartIirIntidCti then
    { s with rx := uart1IRQHandlerReceive s.rx received }
  else if source = uartIirIntidThre then { s with tx := uart1IRQHandlerSend s.tx }
  else s

/-- What happens to the driver after `LPC_Uart_Init`. -/
inductive Uart1Event where
  | interrupt (intsrc : INT32U) (received : INT8U)
  | getStruct
  | sendStruct (command : SendStruct)

def Uart1Event.step (s : Uart1) : Uart1Event → Uart1
  | .interrupt intsrc received => uart1IRQHandler s intsrc received
  | .getStruct => { s with rx := (uart1GetStruct s.rx).2 }
  | .sendStruct command => { s with tx := uart1SendStruct s.tx command }

/-- The driver after a sequence of events. -/
def uart1Run (s : Uart1) (events : List Uart1Event) : Uart1 := events.foldl Uart1Event.step s

/-- A THRE interrupt. -/
def Uart1Event.isThre : Uart1Event → Bool
  | .interrupt intsrc _ => intsrc &&& 0x0f == uartIirIntidThre
  | _ => false

/-! ### What one event does to the transmitter -/

theorem tx_step_thre (s : Uart1) (event : Uart1Event) (thre : event.isThre = true) :
    (event.step s).tx = uart1IRQHandlerSend s.tx := by
  cases event with
  | interrupt intsrc received =>
    have source : intsrc &&& 0x0f = uartIirIntidThre := eq_of_beq thre
    simp only [Uart1Event.step, uart1IRQHandler, source]
    rfl
  | getStruct => cases thre
  | sendStruct => cases thre

/-- While a frame is going out, everything but a THRE interrupt leaves the
transmitter alone, a further `Uart1_Send_Struct` included. -/
theorem tx_step_other (s : Uart1) (event : Uart1Event) (other : event.isThre = false)
    (busy : s.tx.uart1SendOK = 0) : (event.step s).tx = s.tx := by
  cases event with
  | interrupt intsrc received =>
    have source : intsrc &&& 0x0f ≠ uartIirIntidThre := by
      intro same
      simp only [Uart1Event.isThre, same, beq_self_eq_true, Bool.true_eq_false] at other
    simp only [Uart1Event.step, uart1IRQHandler, source, if_false]
    split
    · rfl
    · split <;> rfl
  | getStruct => rfl
  | sendStruct command => simp only [Uart1Event.step, uart1SendStruct, busy, if_true]

end GasSub.Source
