import GasSub.Library.Interleaving
import GasSub.Guarantees.TransmitWedge
import GasSub.Source.Rs485Copies

/-!
# The four RS485 channels are independent

Interrupts, `RS485Send_Struct` and `RS485_Get_Struct` in any order on the four
channels, over the globals of `com_uart.c`. One machine stands for a channel:
each channel sends, flags and returns what that machine does on the channel's
own events. As long as no capture outgrows `Rcv`, frames have at most three bytes of
payload and a fetch finds the flag up and a length that fits, every run is
defined.
-/
namespace GasSub.Guarantees.ChannelIndependence
open GasSub.Source
open GasSub.Library.Run GasSub.Library.Interleaving
open GasSub.Library.BusyFlag (Place)
open GasSub.Guarantees.TransmitWedge

/-- What happens on one channel. -/
inductive Action where
  | interrupt (registers : UartRegisters)
  | sendStruct (packet : UserRS485Send) (behind : Nat → INT8U)
  | getStruct (junk : UserRS485Rcv)

/-- What happens to the program; at an interrupt all four UARTs hold some registers. -/
inductive Event where
  | interrupt (n : RS485UartNum) (registers : RS485UartNum → UartRegisters)
  | sendStruct (n : RS485UartNum) (packet : UserRS485Send) (behind : Nat → INT8U)
  | getStruct (n : RS485UartNum) (junk : UserRS485Rcv)

/-- The channel of an event and what happens there. -/
def Event.label : Event → RS485UartNum × Action
  | .interrupt n registers => (n, .interrupt (registers n))
  | .sendStruct n packet behind => (n, .sendStruct packet behind)
  | .getStruct n junk => (n, .getStruct junk)

/-- A UART raises the THRE interrupt only while it is enabled. -/
abbrev Raised (threEnabled : Bool) (registers : UartRegisters) : Prop :=
  ThreInt registers.intId → threEnabled = true

/-- The machine of a channel; a fetch puts out the structure returned. -/
def channelStep (c : Rs485Channel) : Action → Option (Rs485Channel × Option UserRS485Rcv)
  | .interrupt registers =>
    if Raised c.threEnabled registers then
      (rs485Interrupt c registers.intId registers.rbr).map fun after => (after, none)
    else some (c, none)
  | .sendStruct packet behind => (rs485SendFrame c packet behind).map fun after => (after, none)
  | .getStruct junk => (rs485Fetch c junk).map fun found => (found.2, some found.1)

/-- The program; with what it puts out goes the channel. -/
def step (g : Rs485Globals) : Event → Option (Rs485Globals × (RS485UartNum × Option UserRS485Rcv))
  | .interrupt n registers =>
    if Raised (g.threEnabled n) (registers n) then
      (uartIRQHandler n g registers).map fun after => (after, (n, none))
    else some (g, (n, none))
  | .sendStruct n packet behind =>
    (sendStructSwitch g packet behind n).map fun after => (after, (n, none))
  | .getStruct n junk => (getStructSwitch g junk n).map fun found => (found.2, (n, some found.1))

/-- One step of the program is a step of the machine on the channel of the event. -/
theorem step_channels (g : Rs485Globals) (e : Event) :
    (step g e).map (fun r => (r.1.channels, r.2)) = family channelStep g.channels e.label := by
  cases e with
  | interrupt n registers =>
    have reading : g.named (.of n) = g.channels n := rfl
    have enabled : (g.channels n).threEnabled = g.threEnabled n := rfl
    simp only [step, family, Event.label, channelStep, uartIRQHandler_eq, irqHandlerCopy, enabled]
    by_cases raised : Raised (g.threEnabled n) (registers n)
    · rw [if_pos raised, if_pos raised, Option.map_map, Option.map_map, Option.map_map]
      congr 1
      funext after
      simp only [Function.comp_apply, channels_assign]
    · rw [if_neg raised, if_neg raised, Option.map_some, Option.map_some,
        Function.update_eq_self]
  | sendStruct n packet behind =>
    simp only [step, family, Event.label, channelStep, sendStructSwitch_eq, sendStructCopy,
      Option.map_map]
    congr 1
    funext after
    simp only [Function.comp_apply, channels_assign]
  | getStruct n junk =>
    simp only [step, family, Event.label, channelStep, getStructSwitch_eq, getStructCopy,
      Option.map_map]
    congr 1
    funext found
    simp only [Function.comp_apply, channels_assign]

/-- In every run each channel does what the machine does on the channel's own events. -/
theorem run_channel {g final : Rs485Globals} {events : List Event}
    {outputs : List (RS485UartNum × Option UserRS485Rcv)}
    (reached : run step g events = some (final, outputs)) (n : RS485UartNum) :
    run channelStep (g.channels n) (own n (events.map Event.label)) =
      some (final.channels n, own n outputs) := by
  have viewed := run_view Rs485Globals.channels Event.label step_channels g events
  rw [reached, Option.map_some] at viewed
  exact run_own viewed.symm n

/-! ### Runs that stay inside the arrays -/

/-- A byte that is stored finds room, a payload fits `data`, and a fetch finds the flag
up and a length byte that fits `data`. -/
def Fits (c : Rs485Channel) : Action → Prop
  | .interrupt registers =>
    ReceiveInt registers.intId → c.port.uart.readyToRcv = 1 → c.port.uart.rcvIndex.toNat < 15
  | .sendStruct packet _ => packet.len.toNat ≤ 3
  | .getStruct _ => c.port.rcvOK ≠ 0 ∧ c.port.uart.lengthByte.toNat ≤ 10

instance (c : Rs485Channel) (a : Action) : Decidable (Fits c a) := by
  cases a with
  | interrupt => exact inferInstanceAs (Decidable (_ → _ → _))
  | sendStruct => exact inferInstanceAs (Decidable (_ ≤ _))
  | getStruct => exact inferInstanceAs (Decidable (_ ∧ _))

/-- The event stays inside the arrays of its channel. -/
abbrev Within (g : Rs485Globals) (e : Event) : Prop := Fits (g.channels e.label.1) e.label.2

/-- A received byte that finds room leaves the transmitter alone. -/
theorem rs485Receive_inside (p : Rs485Port) (byte : INT8U)
    (room : p.uart.readyToRcv = 1 → p.uart.rcvIndex.toNat < 15) :
    ∃ q, (rs485Receive p byte).1 = some q ∧ q.uart.send = p.uart.send ∧
      q.uart.sendIndex = p.uart.sendIndex ∧ q.uart.sendOK = p.uart.sendOK ∧
      q.uart.sendLen = p.uart.sendLen := by
  by_cases capturing : p.uart.readyToRcv = 1
  · have inside := room capturing
    refine ⟨rs485Capture p byte inside, by rw [rs485Receive, if_pos capturing, dif_pos inside], ?_⟩
    by_cases ends : p.Ends byte
    · rw [rs485Capture_ends p byte inside ends]
      exact ⟨rfl, rfl, rfl, rfl⟩
    · rw [rs485Capture_inside p byte inside ends]
      exact ⟨rfl, rfl, rfl, rfl⟩
  · by_cases opens : byte = 0x53 ∧ p.uart.readyToRcv = 0
    · refine ⟨{ p with uart := { p.uart with readyToRcv := 1 } }, ?_, rfl, rfl, rfl, rfl⟩
      rw [rs485Receive, if_neg capturing, if_pos opens]
    · exact ⟨p, by rw [rs485Receive, if_neg capturing, if_neg opens], rfl, rfl, rfl, rfl⟩

/-- The transmitter's invariant speaks about the transmitter only. -/
theorem insideSend_port {place : Place} {c : Rs485Channel} {q : Rs485Port}
    (inside : InsideSend place c) (send : q.uart.send = c.port.uart.send)
    (index : q.uart.sendIndex = c.port.uart.sendIndex) (ok : q.uart.sendOK = c.port.uart.sendOK)
    (length : q.uart.sendLen = c.port.uart.sendLen) : InsideSend place { c with port := q } := by
  have frame : FrameLoaded c → FrameLoaded { c with port := q } := by
    intro loaded
    refine ⟨?_, ?_, ?_⟩
    · simp only [length]
      exact loaded.short
    · simp only [length]
      exact loaded.long
    · simp only [length, send]
      exact loaded.tail
  refine ⟨fun armed => ?_, fun idle => ?_, fun early => ?_, fun outside armed => ?_⟩
  · obtain ⟨loaded, early⟩ := inside.sending armed
    refine ⟨frame loaded, ?_⟩
    simp only [length, index]
    exact early
  · exact index.trans (inside.idle idle)
  · obtain ⟨loaded, idle⟩ := inside.loaded early
    exact ⟨frame loaded, idle⟩
  · exact ok.trans (inside.busy outside armed)

/-- The copy loop stays inside both arrays for a length of up to ten. -/
theorem copyData_inside (rcv : Vector INT8U 15) (remaining i : Nat) (data : Vector INT8U 10)
    (fits : i + remaining ≤ 10) : ∃ copied, (copyData rcv remaining i data).1 = some copied := by
  induction remaining generalizing i data with
  | zero => exact ⟨data, rfl⟩
  | succ remaining ih =>
    have inside : i + 2 < 15 ∧ i < 10 := by omega
    rw [copyData, dif_pos inside]
    exact ih (i + 1) _ (by omega)

/-- `RS485Send_Struct` with a short payload, between two events. -/
theorem sendFrame_inside {c : Rs485Channel} (inside : InsideSend .outside c)
    (packet : UserRS485Send) (behind : Nat → INT8U) (short : packet.len.toNat ≤ 3) :
    ∃ after, rs485SendFrame c packet behind = some after ∧ InsideSend .outside after := by
  by_cases busy : c.port.uart.sendOK = 0
  · exact ⟨c, if_pos busy, inside⟩
  · obtain ⟨loaded, filled, ready⟩ := insideSend_load inside busy packet behind (by omega)
    refine ⟨rs485Mark (rs485Arm (rs485SendFirst loaded)), ?_, ?_⟩
    · rw [rs485SendFrame, if_neg busy, filled, Option.map_some]
    · exact insideSend_mark (insideSend_arm (insideSend_first ready))

theorem interrupt_inside {c : Rs485Channel} (inside : InsideSend .outside c)
    (registers : UartRegisters) (raised : Raised c.threEnabled registers)
    (room : ReceiveInt registers.intId → c.port.uart.readyToRcv = 1 →
      c.port.uart.rcvIndex.toNat < 15) :
    ∃ after, rs485Interrupt c registers.intId registers.rbr = some after ∧
      InsideSend .outside after := by
  unfold rs485Interrupt
  by_cases status : registers.intId &&& 0x0f = uartIirIntidRls
  · exact ⟨c, if_pos status, inside⟩
  rw [if_neg status]
  by_cases received : ReceiveInt registers.intId
  · obtain ⟨q, taken, send, index, ok, length⟩ :=
      rs485Receive_inside c.port registers.rbr (room received)
    refine ⟨{ c with port := q }, ?_, insideSend_port inside send index ok length⟩
    rw [if_pos received, taken, Option.map_some]
  rw [if_neg received]
  by_cases thre : ThreInt registers.intId
  · rw [if_pos thre]
    exact insideSend_transmit inside (raised thre)
  · exact ⟨c, if_neg thre, inside⟩

/-- What happens on a channel and stays inside its arrays has a result. -/
theorem channelStep_inside {c : Rs485Channel} {a : Action} (inside : InsideSend .outside c)
    (fits : Fits c a) : ∃ r, channelStep c a = some r ∧ InsideSend .outside r.1 := by
  cases a with
  | interrupt registers =>
    by_cases raised : Raised c.threEnabled registers
    · obtain ⟨after, handled, kept⟩ := interrupt_inside inside registers raised fits
      exact ⟨(after, none), by rw [channelStep, if_pos raised, handled, Option.map_some], kept⟩
    · exact ⟨(c, none), if_neg raised, inside⟩
  | sendStruct packet behind =>
    obtain ⟨after, sent, kept⟩ := sendFrame_inside inside packet behind fits
    exact ⟨(after, none), by rw [channelStep, sent, Option.map_some], kept⟩
  | getStruct junk =>
    obtain ⟨up, short⟩ := fits
    obtain ⟨data, copied⟩ := copyData_inside c.port.uart.rcv c.port.uart.lengthByte.toNat 0
      junk.data (by omega)
    have fetched : (rs485Get c.port junk).1 =
        some (⟨c.port.uart.rcv[0], c.port.uart.lengthByte, data⟩, { c.port with rcvOK := 0 }) := by
      rw [rs485Get, if_neg up]
      exact congrArg (Option.map _) copied
    refine ⟨({ c with port := { c.port with rcvOK := 0 } },
      some ⟨c.port.uart.rcv[0], c.port.uart.lengthByte, data⟩), ?_, ?_⟩
    · rw [channelStep, rs485Fetch, fetched, Option.map_some, Option.map_some]
    · exact insideSend_port inside rfl rfl rfl rfl

/-- One event that stays inside the arrays has a result. -/
theorem step_inside (g : Rs485Globals) (e : Event)
    (inside : ∀ n, InsideSend .outside (g.channels n)) (within : Within g e) :
    ∃ r, step g e = some r ∧ ∀ n, InsideSend .outside (r.1.channels n) := by
  obtain ⟨r, taken, kept⟩ := channelStep_inside (inside e.label.1) within
  have viewed := step_channels g e
  rw [family, taken, Option.map_some] at viewed
  obtain ⟨s, result, same⟩ := Option.map_eq_some_iff.mp viewed
  refine ⟨s, result, fun n => ?_⟩
  rw [(Prod.mk.inj same).1]
  by_cases here : n = e.label.1
  · subst here
    rw [Function.update_self]
    exact kept
  · rw [Function.update_of_ne here]
    exact inside n

/-- From initialization on, in every run that stays inside the arrays, each channel ends
with the bytes sent, the flags and the structures returned of the machine on its own
events; channels that start alike and see the same end alike. -/
theorem channels_independent (g : Rs485Globals) (events : List Event)
    (within : EachStep (next step) Within g.lpcUartInit events) :
    ∃ final outputs, run step g.lpcUartInit events = some (final, outputs) ∧
      (∀ n, run channelStep (g.channels n).init (own n (events.map Event.label)) =
        some (final.channels n, own n outputs)) ∧
      ∀ n m, (g.channels n).init = (g.channels m).init →
        own n (events.map Event.label) = own m (events.map Event.label) →
        final.channels n = final.channels m ∧ own n outputs = own m outputs := by
  have start : ∀ n, InsideSend .outside (g.lpcUartInit.channels n) := by
    intro n
    rw [channels_lpcUartInit]
    exact insideSend_init (g.channels n)
  obtain ⟨final, outputs, reached⟩ := run_defined step_inside start within
  have each := run_channel reached
  refine ⟨final, outputs, reached, each, fun n m alike same => ?_⟩
  have left := each n
  have right := each m
  rw [channels_lpcUartInit, alike, same] at left
  rw [channels_lpcUartInit, left] at right
  exact Prod.mk.inj (Option.some.inj right)

/-! ### A run on two channels -/

def quiet : Rs485Globals where
  rs485Uart _ := ⟨Vector.replicate 10 0, Vector.replicate 15 0, 0, 0, 1, 0, 0⟩
  uartRcvOK _ := 0
  threEnabled _ := false
  line _ := []

/-- UART `n` raises the interrupt, the others none. -/
def raising (n : RS485UartNum) (intId : INT32U) (byte : INT8U) : Event :=
  .interrupt n fun m => if m = n then ⟨intId, byte⟩ else ⟨1, 0⟩

/-- A frame goes out on UART0 while one comes in on UART2 and is fetched. -/
def mixed : List Event :=
  [.sendStruct .uart0 ⟨1, 2, 1, Vector.replicate 3 7⟩ fun _ => 0,
    raising .uart2 uartIirIntidRda 0x53, raising .uart0 uartIirIntidThre 0,
    raising .uart2 uartIirIntidRda 9, raising .uart2 uartIirIntidRda 1,
    raising .uart0 uartIirIntidThre 0, raising .uart2 uartIirIntidCti 5,
    raising .uart2 uartIirIntidRda 0x98, raising .uart0 uartIirIntidThre 0,
    raising .uart2 uartIirIntidRda 0x45, .getStruct .uart2 ⟨0, 0, Vector.replicate 10 0⟩]

theorem channels_independent_mixed :
    ∃ final outputs, run step quiet.lpcUartInit mixed = some (final, outputs) ∧
      (∀ n, run channelStep (quiet.channels n).init (own n (mixed.map Event.label)) =
        some (final.channels n, own n outputs)) ∧
      ∀ n m, (quiet.channels n).init = (quiet.channels m).init →
        own n (mixed.map Event.label) = own m (mixed.map Event.label) →
        final.channels n = final.channels m ∧ own n outputs = own m outputs :=
  channels_independent quiet mixed (by decide)

/-- The line of UART0 and the structure fetched on UART2 in that run. -/
example : (run step quiet.lpcUartInit mixed).any (fun r =>
    r.1.line .uart0 = [0x53, 1, 2, 1] ∧ r.1.uartRcvOK .uart2 = 0 ∧
      (own .uart2 r.2).getLast? = some (some ⟨9, 1, (Vector.replicate 10 0).set 0 5⟩)) = true := by
  decide

end GasSub.Guarantees.ChannelIndependence
