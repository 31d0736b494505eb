import GasSub.Guarantees.ChannelIndependence

/-!
# A frame on the line

What `RS485Send_Struct` hands over goes out byte by byte, whatever else happens
on the channel and on the other three in between. The interrupt stops on an
index test and a byte test together, so that an E in the payload does not end
the frame.
-/
namespace GasSub.Guarantees.Rs485Frame
open GasSub.Source
open GasSub.Library.Run GasSub.Library.Interleaving
open GasSub.Guarantees.ChannelIndependence

/-- The bytes of a frame with a payload that fits `data`. -/
def frameOf (packet : UserRS485Send) : List INT8U :=
  [0x53, packet.address, packet.ctrl, packet.len] ++ packet.data.toList.take packet.len.toNat ++
    [0x98, 0x45]

/-- Nothing behind `data` is read for such a payload. -/
theorem frameBytes_short (packet : UserRS485Send) (behind : Nat → INT8U)
    (short : packet.len.toNat ≤ 3) : frameBytes packet behind = frameOf packet := by
  have payload : (List.range packet.len.toNat).map (packet.dataAt behind) =
      packet.data.toList.take packet.len.toNat := by
    refine List.ext_getElem (by simp; omega) fun k left right => ?_
    have inside : k < packet.data.toList.length := by
      rw [List.length_take] at right
      omega
    rw [List.getElem_map, List.getElem_range, List.getElem_take, UserRS485Send.dataAt,
      List.getD_eq_getElem?_getD, List.getElem?_eq_getElem inside, Option.getD_some]
  rw [frameBytes, frameOf, payload]

/-! ### A channel with a frame on its way -/

/-- The frame is loaded and `count` interrupts have come since the first byte went out. -/
structure Sending (before frame : List INT8U) (count : Nat) (c : Rs485Channel) : Prop where
  pending : count + 1 < frame.length
  loaded : frame <+: c.port.uart.send.toList
  length : c.port.uart.sendLen.toNat = frame.length
  busy : c.port.uart.sendOK = 0
  index : c.port.uart.sendIndex.toNat = count
  armed : c.threEnabled = true
  line : c.line = before ++ frame.take (count + 1)

/-- The frame is out and the channel free again. -/
structure Finished (before frame : List INT8U) (c : Rs485Channel) : Prop where
  disabled : c.threEnabled = false
  free : c.port.uart.sendOK = 1
  index : c.port.uart.sendIndex = 0
  line : c.line = before ++ frame

variable {before frame : List INT8U} {count : Nat} {c : Rs485Channel}

/-- The byte that the next interrupt sends. -/
theorem sending_next (sending : Sending before frame count c) :
    (c.port.uart.sendIndex + 1).toNat = count + 1 ∧ count + 1 < 10 ∧
      frame[count + 1]? = some (c.port.uart.send.toList.getD (count + 1) 0) := by
  have pending := sending.pending
  have size := sending.loaded.length_le
  rw [Vector.length_toList] at size
  refine ⟨?_, by omega, ?_⟩
  · rw [counter_succ (by rw [sending.index]; omega), sending.index]
  · obtain ⟨rest, whole⟩ := sending.loaded
    have here : c.port.uart.send.toList[count + 1]? = frame[count + 1]? := by
      rw [← whole, List.getElem?_append_left pending]
    rw [List.getD_eq_getElem?_getD, here, List.getElem?_eq_getElem pending, Option.getD_some]

/-- An interrupt before the last one sends the next byte and goes on, an E or not. -/
theorem sending_advance (sending : Sending before frame count c)
    (more : count + 2 < frame.length) :
    ∃ after, rs485Transmit c = some after ∧ Sending before frame (count + 1) after := by
  obtain ⟨index, inside, byte⟩ := sending_next sending
  have early : ¬ (c.port.uart.sendLen.toNat ≤ count + 1 + 1 ∧
      c.port.uart.send.toList.getD (count + 1) 0 = 0x45) := by
    rw [sending.length]
    omega
  refine ⟨_, by rw [rs485Transmit, index, if_pos inside, if_neg early], ?_⟩
  refine ⟨more, sending.loaded, sending.length, sending.busy, index, sending.armed, ?_⟩
  rw [sending.line, List.append_assoc, List.take_add_one (i := count + 1), byte, Option.toList_some]

/-- The last interrupt sends the tail and ends the transmission. -/
theorem sending_finish (sending : Sending before frame count c)
    (last : count + 2 = frame.length) (tail : frame[count + 1]? = some 0x45) :
    ∃ after, rs485Transmit c = some after ∧ Finished before frame after := by
  obtain ⟨index, inside, byte⟩ := sending_next sending
  have same : c.port.uart.send.toList.getD (count + 1) 0 = 0x45 :=
    Option.some.inj (byte.symm.trans tail)
  have ends : c.port.uart.sendLen.toNat ≤ count + 1 + 1 ∧
      c.port.uart.send.toList.getD (count + 1) 0 = 0x45 := by
    rw [sending.length]
    exact ⟨by omega, same⟩
  refine ⟨_, by rw [rs485Transmit, index, if_pos inside, if_pos ends], rfl, rfl, rfl, ?_⟩
  have whole : frame.take (count + 1) ++ [0x45] = frame := by
    rw [← Option.toList_some, ← tail, ← List.take_add_one, last, List.take_length]
  rw [sending.line, List.append_assoc, same, whole]

/-! ### What else happens on the channel -/

/-- Whether something that happens on a channel is its THRE interrupt. -/
def isThre : Action → Bool
  | .interrupt registers => decide (ThreInt registers.intId)
  | _ => false

/-- The transmitter alone decides how far a frame has come. -/
theorem sending_port (sending : Sending before frame count c) {q : Rs485Port}
    (send : q.uart.send = c.port.uart.send) (index : q.uart.sendIndex = c.port.uart.sendIndex)
    (ok : q.uart.sendOK = c.port.uart.sendOK) (length : q.uart.sendLen = c.port.uart.sendLen) :
    Sending before frame count { c with port := q } where
  pending := sending.pending
  loaded := send ▸ sending.loaded
  length := length ▸ sending.length
  busy := ok.trans sending.busy
  index := index ▸ sending.index
  armed := sending.armed
  line := sending.line

/-- A received byte for which there is room. -/
theorem received_room {p q : Rs485Port} {byte : INT8U} (taken : (rs485Receive p byte).1 = some q) :
    p.uart.readyToRcv = 1 → p.uart.rcvIndex.toNat < 15 := by
  intro capturing
  by_contra full
  rw [rs485Receive, if_pos capturing, dif_neg full] at taken
  cases taken

/-- Everything but the THRE interrupt leaves the frame as it is. -/
theorem sending_other (sending : Sending before frame count c) {a : Action} {after : Rs485Channel}
    {out : Option UserRS485Rcv} (taken : channelStep c a = some (after, out))
    (other : isThre a = false) : Sending before frame count after := by
  cases a with
  | interrupt registers =>
    have away : ¬ ThreInt registers.intId := of_decide_eq_false other
    rw [channelStep, if_pos fun thre => absurd thre away] at taken
    obtain ⟨handled, interrupted, result⟩ := Option.map_eq_some_iff.mp taken
    obtain ⟨rfl, -⟩ := Prod.mk.inj result
    unfold rs485Interrupt at interrupted
    split at interrupted
    · obtain rfl := Option.some.inj interrupted
      exact sending
    · split at interrupted
      · obtain ⟨q, received, rfl⟩ := Option.map_eq_some_iff.mp interrupted
        obtain ⟨q', received', send, index, ok, length⟩ :=
          rs485Receive_inside c.port registers.rbr (received_room received)
        obtain rfl := Option.some.inj (received.symm.trans received')
        exact sending_port sending send index ok length
      · obtain rfl := Option.some.inj interrupted
        exact sending
  | sendStruct packet behind =>
    rw [channelStep, rs485SendFrame, if_pos sending.busy, Option.map_some] at taken
    obtain ⟨rfl, -⟩ := Prod.mk.inj (Option.some.inj taken)
    exact sending
  | getStruct junk =>
    obtain ⟨found, fetched, result⟩ := Option.map_eq_some_iff.mp taken
    obtain ⟨rfl, -⟩ := Prod.mk.inj result
    obtain ⟨⟨rcv, q⟩, returned, rfl⟩ := Option.map_eq_some_iff.mp fetched
    obtain rfl := rs485Get_port c.port junk rcv q returned
    exact sending_port sending rfl rfl rfl rfl

/-- One step of the channel: only its THRE interrupts count. -/
theorem sending_step (sending : Sending before frame count c) {a : Action} {after : Rs485Channel}
    {out : Option UserRS485Rcv} (taken : channelStep c a = some (after, out))
    (more : isThre a = true → count + 2 < frame.length) :
    Sending before frame (count + (isThre a).toNat) after := by
  cases thre : isThre a with
  | false => exact sending_other sending taken thre
  | true =>
    obtain ⟨advanced, sent, next⟩ := sending_advance sending (more thre)
    cases a with
    | interrupt registers =>
      have raised : ThreInt registers.intId := of_decide_eq_true thre
      have handled : rs485Interrupt c registers.intId registers.rbr = rs485Transmit c :=
        rs485Interrupt_thre c registers.rbr raised
      rw [channelStep, if_pos fun _ => sending.armed, handled, sent, Option.map_some] at taken
      obtain ⟨rfl, -⟩ := Prod.mk.inj (Option.some.inj taken)
      exact next
    | sendStruct => cases thre
    | getStruct => cases thre

/-- A run of the channel with too few THRE interrupts to end the frame. -/
theorem sending_run (actions : List Action) {final : Rs485Channel}
    {outs : List (Option UserRS485Rcv)} (sending : Sending before frame count c)
    (reached : run channelStep c actions = some (final, outs))
    (more : count + actions.countP isThre + 1 < frame.length) :
    Sending before frame (count + actions.countP isThre) final := by
  induction actions generalizing count c outs with
  | nil =>
    obtain ⟨rfl, -⟩ := Prod.mk.inj (Option.some.inj reached)
    exact sending
  | cons a rest ih =>
    have total : (a :: rest).countP isThre = (isThre a).toNat + rest.countP isThre := by
      rw [List.countP_cons, Nat.add_comm]
      cases isThre a <;> rfl
    rw [total] at more ⊢
    cases taken : channelStep c a with
    | none =>
      rw [run_cons_none _ taken] at reached
      cases reached
    | some first =>
      rw [run_cons _ taken] at reached
      obtain ⟨tail, later, result⟩ := Option.map_eq_some_iff.mp reached
      obtain ⟨rfl, -⟩ := Prod.mk.inj result
      have one : Sending before frame (count + (isThre a).toNat) first.1 := by
        refine sending_step sending taken fun thre => ?_
        rw [thre, Bool.toNat_true] at more
        omega
      rw [← Nat.add_assoc]
      exact ih one later (by omega)

/-! ### The four channels -/

/-- The THRE interrupts of a channel in a run. -/
def threInterrupts (n : RS485UartNum) (events : List Event) : Nat :=
  (own n (events.map Event.label)).countP isThre

/-- A run of the program after the first byte, as long as the frame is not out. -/
theorem sending_events {called final : Rs485Globals} {n : RS485UartNum} {events : List Event}
    {outputs : List (RS485UartNum × Option UserRS485Rcv)}
    (sending : Sending before frame 0 (called.channels n))
    (reached : run step called events = some (final, outputs))
    (more : threInterrupts n events + 1 < frame.length) :
    Sending before frame (threInterrupts n events) (final.channels n) := by
  have later := sending_run (own n (events.map Event.label)) sending (run_channel reached n) (by
    rw [Nat.zero_add]
    exact more)
  rw [Nat.zero_add] at later
  exact later

/-- `RS485Send_Struct` on a free channel puts out the first byte. -/
theorem sendFrame_sending (c : Rs485Channel) (packet : UserRS485Send) (behind : Nat → INT8U)
    (short : packet.len.toNat ≤ 3) (free : c.port.uart.sendOK = 1)
    (start : c.port.uart.sendIndex = 0) :
    ∃ after, rs485SendFrame c packet behind = some after ∧
      Sending c.line (frameOf packet) 0 after := by
  obtain ⟨send, whole, loaded⟩ := rs485Load_short c packet behind (by omega)
  have size := length_frameBytes packet behind
  rw [frameBytes_short packet behind short] at whole size
  have notBusy : ¬ c.port.uart.sendOK = 0 := by
    rw [free]
    decide
  refine ⟨_, by rw [rs485SendFrame, if_neg notBusy, loaded, Option.map_some], ?_⟩
  refine ⟨by omega, ⟨_, whole.symm⟩, ?_, rfl, ?_, rfl, ?_⟩
  · exact (sendLen_toNat packet (by omega)).trans size.symm
  · exact congrArg BitVec.toNat start
  · have first : send.toList[0]? = some 0x53 := by
      rw [whole]
      rfl
    have head : send.head = 0x53 := by
      simpa [Vector.head] using first
    change c.line ++ [send.head] = c.line ++ [0x53]
    rw [head]

/-- A frame from the first byte on: `count` interrupts later `count + 1` bytes are out, the
channel is busy and its interrupt enabled. -/
structure OnLine (g : Rs485Globals) (n : RS485UartNum) (packet : UserRS485Send) (count : Nat)
    (s : Rs485Globals) : Prop where
  line : s.line n = g.line n ++ (frameOf packet).take (count + 1)
  busy : (s.rs485Uart n).sendOK = 0
  enabled : s.threEnabled n = true

/-- The frame is out, the interrupt disabled and the channel free. -/
structure Out (g : Rs485Globals) (n : RS485UartNum) (packet : UserRS485Send)
    (s : Rs485Globals) : Prop where
  line : s.line n = g.line n ++ frameOf packet
  disabled : s.threEnabled n = false
  free : (s.rs485Uart n).sendOK = 1
  index : (s.rs485Uart n).sendIndex = 0

/-- The other channels of two states are the same. -/
def OthersKept (n : RS485UartNum) (s t : Rs485Globals) : Prop :=
  ∀ m, m ≠ n → t.channels m = s.channels m

theorem othersKept_assign (s : Rs485Globals) (n : RS485UartNum) (c : Rs485Channel) :
    OthersKept n s (s.assign (.of n) c) := by
  intro m away
  rw [channels_assign, Function.update_of_ne away]

/-- From a free channel a frame with up to three bytes of payload goes out as it is, one byte
with each interrupt, in any run; the interrupt that sends the last byte frees the channel.
Neither the call nor the interrupts touch another channel, and a call on a busy channel
changes nothing. -/
theorem frame_onLine (g : Rs485Globals) (n : RS485UartNum) (packet : UserRS485Send)
    (behind : Nat → INT8U) (short : packet.len.toNat ≤ 3)
    (free : (g.rs485Uart n).sendOK = 1) (start : (g.rs485Uart n).sendIndex = 0) :
    (∃ called, sendStructSwitch g packet behind n = some called ∧ OthersKept n g called ∧
      ∀ events final outputs, run step called events = some (final, outputs) →
        threInterrupts n events < packet.len.toNat + 5 →
        OnLine g n packet (threInterrupts n events) final ∧
        ∀ registers, ThreInt (registers n).intId →
          ∃ after, uartIRQHandler n final registers = some after ∧ OthersKept n final after ∧
            (threInterrupts n events + 1 = packet.len.toNat + 5 → Out g n packet after)) ∧
    ∀ s m other behind', (s.rs485Uart m).sendOK = 0 →
      sendStructSwitch s other behind' m = some s := by
  refine ⟨?_, fun s m other behind' busy => sendStructSwitch_busy s m other behind' busy⟩
  obtain ⟨c, sent, sending⟩ := sendFrame_sending (g.channels n) packet behind short free start
  refine ⟨g.assign (.of n) c, ?_, othersKept_assign g n c, ?_⟩
  · exact (sendStructSwitch_eq g packet behind n).trans (congrArg (Option.map _) sent)
  intro events final outputs reached few
  have size := length_frameBytes packet behind
  rw [frameBytes_short packet behind short] at size
  have here : (g.assign (.of n) c).channels n = c := by
    rw [channels_assign, Function.update_self]
  have midway : Sending (g.channels n).line (frameOf packet) (threInterrupts n events)
      (final.channels n) := sending_events (here.symm ▸ sending) reached (by omega)
  refine ⟨⟨midway.line, midway.busy, midway.armed⟩, fun registers thre => ?_⟩
  by_cases last : threInterrupts n events + 2 = (frameOf packet).length
  · have tail : (frameOf packet)[threInterrupts n events + 1]? = some 0x45 := by
      have place : threInterrupts n events + 1 = packet.len.toNat + 5 := by omega
      rw [place, ← frameBytes_short packet behind short, frameBytes_last]
    obtain ⟨after, transmitted, finished⟩ := sending_finish midway last tail
    refine ⟨_, uartIRQHandler_thre final thre transmitted, othersKept_assign final n after, fun _ => ?_⟩
    have now : (final.assign (.of n) after).channels n = after := by
      rw [channels_assign, Function.update_self]
    rw [← now] at finished
    exact ⟨finished.line, finished.disabled, finished.free, finished.index⟩
  · obtain ⟨after, transmitted, -⟩ := sending_advance midway (by omega)
    refine ⟨_, uartIRQHandler_thre final thre transmitted, othersKept_assign final n after, ?_⟩
    omega

/-! ### A payload that looks like a tail -/

def tails : UserRS485Send := ⟨1, 2, 3, ⟨#[0x45, 0x98, 0x45], rfl⟩⟩

theorem frame_onLine_tails :
    (∃ called, sendStructSwitch quiet.lpcUartInit tails (fun _ => 0) .uart2 = some called ∧
      OthersKept .uart2 quiet.lpcUartInit called ∧
      ∀ events final outputs, run step called events = some (final, outputs) →
        threInterrupts .uart2 events < tails.len.toNat + 5 →
        OnLine quiet.lpcUartInit .uart2 tails (threInterrupts .uart2 events) final ∧
        ∀ registers, ThreInt (registers .uart2).intId →
          ∃ after, uartIRQHandler .uart2 final registers = some after ∧
            OthersKept .uart2 final after ∧
            (threInterrupts .uart2 events + 1 = tails.len.toNat + 5 →
              Out quiet.lpcUartInit .uart2 tails after)) ∧
    ∀ s m other behind', (s.rs485Uart m).sendOK = 0 →
      sendStructSwitch s other behind' m = some s :=
  frame_onLine quiet.lpcUartInit .uart2 tails (fun _ => 0) (by decide) rfl rfl

/-- The whole of it on the line, with a frame of UART0 in between. -/
example : (run step quiet.lpcUartInit
    (.sendStruct .uart2 tails (fun _ => 0) :: .sendStruct .uart0 tails (fun _ => 0) ::
      List.replicate 8 (raising .uart2 uartIirIntidThre 0))).any (fun r =>
    r.1.line .uart2 = [0x53, 1, 2, 3, 0x45, 0x98, 0x45, 0x98, 0x45] ∧
      r.1.threEnabled .uart2 = false ∧ r.1.line .uart0 = [0x53]) = true := by
  decide

end GasSub.Guarantees.Rs485Frame
