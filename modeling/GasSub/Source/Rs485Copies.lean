import GasSub.Source.Rs485Send
import GasSub.Source.Uart1Send

/-!
# The four copies of the RS485 code

`UART0/2/3/4_IRQHandler`, the switch of `RS485Send_Struct` and that of
`RS485_Get_Struct`, over the globals of `com_uart.c`. Each text is written out
four times and names a structure, a flag, a UART number and a UART pointer; here
a copy is the text with the names it uses.
-/
namespace GasSub.Source

/-- The structures `RS485UartN`, the flags `uartNRcvOK` and what the code does to the
four UARTs: the THRE bit by their numbers, the bytes sent by their pointers. -/
structure Rs485Globals where
  rs485Uart : RS485UartNum → RS485TMP
  uartRcvOK : RS485UartNum → INT8U
  threEnabled : RS485UartNum → Bool
  line : RS485UartNum → List INT8U

/-- The names in one copy of a text: `RS485UartN`, `uartNRcvOK`, `UART_N` and `LPC_UARTN`. -/
structure CopyNames where
  rs485Uart : RS485UartNum
  uartRcvOK : RS485UartNum
  uartId : RS485UartNum
  lpcUart : RS485UartNum

/-- What a text reads under its names. -/
def Rs485Globals.named (g : Rs485Globals) (names : CopyNames) : Rs485Channel :=
  { port := { uart := g.rs485Uart names.rs485Uart, rcvOK := g.uartRcvOK names.uartRcvOK }
    threEnabled := g.threEnabled names.uartId
    line := g.line names.lpcUart }

/-- What a text writes under its names. -/
def Rs485Globals.assign (g : Rs485Globals) (names : CopyNames) (c : Rs485Channel) :
    Rs485Globals :=
  { rs485Uart := Function.update g.rs485Uart names.rs485Uart c.port.uart
    uartRcvOK := Function.update g.uartRcvOK names.uartRcvOK c.port.rcvOK
    threEnabled := Function.update g.threEnabled names.uartId c.threEnabled
    line := Function.update g.line names.lpcUart c.line }

/-! ### The interrupt handlers -/

/-- What a handler reads from a UART: `UART_GetIntId` and `UART_ReceiveByte`. -/
structure UartRegisters where
  intId : INT32U
  rbr : INT8U

/-- A byte has come, or one waits in the FIFO. -/
abbrev ReceiveInt (intsrc : INT32U) : Prop :=
  intsrc &&& 0x0f = uartIirIntidRda ∨ intsrc &&& 0x0f = uartIirIntidCti

abbrev ThreInt (intsrc : INT32U) : Prop := intsrc &&& 0x0f = uartIirIntidThre

/-- The text of a handler. A line status interrupt reads the status and drops it. -/
def rs485Interrupt (c : Rs485Channel) (intsrc : INT32U) (received : INT8U) :
    Option Rs485Channel :=
  if intsrc &&& 0x0f = uartIirIntidRls then some c
  else if ReceiveInt intsrc then
    (rs485Receive c.port received).1.map fun port => { c with port := port }
  else if ThreInt intsrc then rs485Transmit c
  else some c

/-- The sources of an interrupt exclude one another. -/
theorem rs485Interrupt_thre (c : Rs485Channel) {intsrc : INT32U} (received : INT8U)
    (thre : ThreInt intsrc) : rs485Interrupt c intsrc received = rs485Transmit c := by
  have notStatus : ¬ intsrc &&& 0x0f = uartIirIntidRls := by
    rw [thre]
    decide
  have notReceive : ¬ ReceiveInt intsrc := by
    rw [ReceiveInt, thre]
    decide
  rw [rs485Interrupt, if_neg notStatus, if_neg notReceive, if_pos thre]

/-- A handler with the names it uses. -/
def irqHandlerCopy (names : CopyNames) (g : Rs485Globals)
    (registers : RS485UartNum → UartRegisters) : Option Rs485Globals :=
  (rs485Interrupt (g.named names) (registers names.uartId).intId (registers names.lpcUart).rbr).map
    (g.assign names)

def uart0IRQHandler : Rs485Globals → (RS485UartNum → UartRegisters) → Option Rs485Globals :=
  irqHandlerCopy ⟨.uart0, .uart0, .uart0, .uart0⟩

def uart2IRQHandler : Rs485Globals → (RS485UartNum → UartRegisters) → Option Rs485Globals :=
  irqHandlerCopy ⟨.uart2, .uart2, .uart2, .uart2⟩

def uart3IRQHandler : Rs485Globals → (RS485UartNum → UartRegisters) → Option Rs485Globals :=
  irqHandlerCopy ⟨.uart3, .uart3, .uart3, .uart3⟩

def uart4IRQHandler : Rs485Globals → (RS485UartNum → UartRegisters) → Option Rs485Globals :=
  irqHandlerCopy ⟨.uart4, .uart4, .uart4, .uart4⟩

/-- The vector of UART `n`. -/
def uartIRQHandler (n : RS485UartNum) (g : Rs485Globals)
    (registers : RS485UartNum → UartRegisters) : Option Rs485Globals :=
  match n with
  | .uart0 => uart0IRQHandler g registers
  | .uart2 => uart2IRQHandler g registers
  | .uart3 => uart3IRQHandler g registers
  | .uart4 => uart4IRQHandler g registers

/-! ### The two switches -/

/-- A case of `RS485Send_Struct` with the names it uses; it names no flag. -/
def sendStructCopy (names : CopyNames) (g : Rs485Globals) (packet : UserRS485Send)
    (behind : Nat → INT8U) : Option Rs485Globals :=
  (rs485SendFrame (g.named names) packet behind).map (g.assign names)

/-- The switch of `RS485Send_Struct`. -/
def sendStructSwitch (g : Rs485Globals) (packet : UserRS485Send) (behind : Nat → INT8U) :
    RS485UartNum → Option Rs485Globals
  | .uart0 => sendStructCopy ⟨.uart0, .uart0, .uart0, .uart0⟩ g packet behind
  | .uart2 => sendStructCopy ⟨.uart2, .uart2, .uart2, .uart2⟩ g packet behind
  | .uart3 => sendStructCopy ⟨.uart3, .uart3, .uart3, .uart3⟩ g packet behind
  | .uart4 => sendStructCopy ⟨.uart4, .uart4, .uart4, .uart4⟩ g packet behind

/-- A case of `RS485_Get_Struct` on one channel. -/
def rs485Fetch (c : Rs485Channel) (junk : UserRS485Rcv) : Option (UserRS485Rcv × Rs485Channel) :=
  (rs485Get c.port junk).1.map fun found => (found.1, { c with port := found.2 })

/-- A case of `RS485_Get_Struct` with the names it uses; it names no UART. -/
def getStructCopy (names : CopyNames) (g : Rs485Globals) (junk : UserRS485Rcv) :
    Option (UserRS485Rcv × Rs485Globals) :=
  (rs485Fetch (g.named names) junk).map fun found => (found.1, g.assign names found.2)

/-- The switch of `RS485_Get_Struct`. -/
def getStructSwitch (g : Rs485Globals) (junk : UserRS485Rcv) :
    RS485UartNum → Option (UserRS485Rcv × Rs485Globals)
  | .uart0 => getStructCopy ⟨.uart0, .uart0, .uart0, .uart0⟩ g junk
  | .uart2 => getStructCopy ⟨.uart2, .uart2, .uart2, .uart2⟩ g junk
  | .uart3 => getStructCopy ⟨.uart3, .uart3, .uart3, .uart3⟩ g junk
  | .uart4 => getStructCopy ⟨.uart4, .uart4, .uart4, .uart4⟩ g junk

/-! ### The globals as four channels -/

/-- All names of one channel. -/
def CopyNames.of (n : RS485UartNum) : CopyNames := ⟨n, n, n, n⟩

def Rs485Globals.channels (g : Rs485Globals) : Rs485Channels := fun n => g.named (.of n)

/-- `LPC_Uart_Init`, where it concerns the four channels. -/
def Rs485Globals.lpcUartInit (g : Rs485Globals) : Rs485Globals :=
  { g with
    rs485Uart := fun n => (g.channels n).init.port.uart
    uartRcvOK := fun _ => 0
    threEnabled := fun _ => false }

theorem channels_lpcUartInit (g : Rs485Globals) (n : RS485UartNum) :
    g.lpcUartInit.channels n = (g.channels n).init := rfl

/-- A text that keeps to one channel writes that channel and no other. -/
theorem channels_assign (g : Rs485Globals) (n : RS485UartNum) (c : Rs485Channel) :
    (g.assign (.of n) c).channels = Function.update g.channels n c := by
  funext m
  by_cases here : m = n
  · subst here
    simp only [Rs485Globals.channels, Rs485Globals.named, Rs485Globals.assign, CopyNames.of,
      Function.update_self]
  · simp only [Rs485Globals.channels, Rs485Globals.named, Rs485Globals.assign, CopyNames.of,
      Function.update_of_ne here]

/-- Every handler keeps to the names of its own channel. -/
theorem uartIRQHandler_eq (n : RS485UartNum) (g : Rs485Globals)
    (registers : RS485UartNum → UartRegisters) :
    uartIRQHandler n g registers = irqHandlerCopy (.of n) g registers := by
  cases n <;> rfl

/-- A THRE interrupt of channel `n`. -/
theorem uartIRQHandler_thre {n : RS485UartNum} (g : Rs485Globals)
    {registers : RS485UartNum → UartRegisters} {after : Rs485Channel}
    (thre : ThreInt (registers n).intId) (sent : rs485Transmit (g.channels n) = some after) :
    uartIRQHandler n g registers = some (g.assign (.of n) after) := by
  have handled := (rs485Interrupt_thre (g.channels n) (registers n).rbr thre).trans sent
  rw [uartIRQHandler_eq, irqHandlerCopy]
  exact congrArg (Option.map (g.assign (.of n))) handled

theorem sendStructSwitch_eq (g : Rs485Globals) (packet : UserRS485Send) (behind : Nat → INT8U)
    (n : RS485UartNum) :
    sendStructSwitch g packet behind n = sendStructCopy (.of n) g packet behind := by
  cases n <;> rfl

/-- With `sendOK` down `RS485Send_Struct` changes nothing. -/
theorem sendStructSwitch_busy (g : Rs485Globals) (n : RS485UartNum) (packet : UserRS485Send)
    (behind : Nat → INT8U) (busy : (g.rs485Uart n).sendOK = 0) :
    sendStructSwitch g packet behind n = some g := by
  have same : rs485SendFrame (g.named (.of n)) packet behind = some (g.named (.of n)) := if_pos busy
  rw [sendStructSwitch_eq, sendStructCopy, same, Option.map_some]
  simp only [Rs485Globals.assign, Rs485Globals.named, CopyNames.of, Function.update_eq_self]

/-- On a free channel a frame that fits `Send` changes three members of its structure. -/
theorem sendStructSwitch_short (g : Rs485Globals) (n : RS485UartNum) (packet : UserRS485Send)
    (behind : Nat → INT8U) (free : (g.rs485Uart n).sendOK ≠ 0) (short : packet.len.toNat ≤ 4) :
    ∃ final send, sendStructSwitch g packet behind n = some final ∧
      send.toList =
        frameBytes packet behind ++ (g.rs485Uart n).send.toList.drop (packet.len.toNat + 6) ∧
      final.rs485Uart = Function.update g.rs485Uart n
        { g.rs485Uart n with send := send, sendLen := packet.len + 6, sendOK := 0 } := by
  obtain ⟨send, whole, loaded⟩ := rs485Load_short (g.named (.of n)) packet behind short
  have sent : rs485SendFrame (g.named (.of n)) packet behind =
      (rs485Load (g.named (.of n)) packet behind).map fun loaded =>
        rs485Mark (rs485Arm (rs485SendFirst loaded)) := if_neg free
  rw [loaded, Option.map_some] at sent
  have result := sendStructSwitch_eq g packet behind n
  rw [sendStructCopy, sent, Option.map_some] at result
  exact ⟨_, send, result, whole, rfl⟩

theorem getStructSwitch_eq (g : Rs485Globals) (junk : UserRS485Rcv) (n : RS485UartNum) :
    getStructSwitch g junk n = getStructCopy (.of n) g junk := by
  cases n <;> rfl

end GasSub.Source
