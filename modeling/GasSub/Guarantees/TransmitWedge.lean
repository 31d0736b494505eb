import GasSub.Library.BusyFlag
import GasSub.Source.Rs485Send
import GasSub.Source.Uart1Send

/-!
# The transmit engines under preemption

`Uart1_Send_Struct` and `RS485Send_Struct` enable the THRE interrupt one
statement before they clear `sendOK`. Each statement is a step of its own here,
and a THRE interrupt may come between any two of them while it is enabled. An
engine hangs exactly when the frame has gone out by the time `sendOK` is
cleared.
-/
namespace GasSub.Guarantees.TransmitWedge
open GasSub.Source
open GasSub.Library.Run GasSub.Library.BusyFlag

/-- The statements of `Uart1_Send_Struct` and the THRE branch of `UART1_IRQHandler`. -/
def uart1Transmitter : Transmitter Uart1Tx SendStruct where
  flag s := s.uart1SendOK
  armed s := s.threEnabled
  load s command := some { s with dataToSend := commandBytes command }
  first := uart1SendFirst
  arm s := { s with threEnabled := true }
  mark s := { s with uart1SendOK := 0 }
  interrupt s := some (uart1IRQHandlerSend s)
  armed_mark _ := rfl
  flag_mark _ := rfl
  interrupt_ends s t sent armed disarmed := by
    obtain rfl := Option.some.inj sent
    simp only [uart1IRQHandlerSend] at disarmed ⊢
    split at disarmed
    next finished => rw [if_pos finished]
    next =>
      have same : true = false := armed.symm.trans disarmed
      cases same

theorem send_uart1 (s : Uart1Tx) (command : SendStruct) :
    send uart1Transmitter s command = some (uart1SendStruct s command) := by
  by_cases busy : s.uart1SendOK = 0
  · rw [uart1SendStruct, if_pos busy]
    exact if_pos busy
  · rw [uart1SendStruct, if_neg busy]
    exact if_neg busy

/-- The statements of `RS485Send_Struct` for channel `n` and the THRE branch of its
handler. A frame comes with the bytes behind its `data`. -/
def rs485Transmitter (n : RS485UartNum) :
    Transmitter Rs485Channels (UserRS485Send × (Nat → INT8U)) where
  flag channels := (channels n).port.uart.sendOK
  armed channels := (channels n).threEnabled
  load channels frame := onChannel channels n (rs485Load (channels n) frame.1 frame.2)
  first channels := Function.update channels n (rs485SendFirst (channels n))
  arm channels := Function.update channels n (rs485Arm (channels n))
  mark channels := Function.update channels n (rs485Mark (channels n))
  interrupt channels := rs485IRQHandlerSend channels n
  armed_mark channels := by rw [Function.update_self]; rfl
  flag_mark channels := by rw [Function.update_self]; rfl
  interrupt_ends channels after sent armed disarmed := by
    rw [rs485IRQHandlerSend_eq] at sent
    obtain ⟨c, transmitted, rfl⟩ := Option.map_eq_some_iff.mp sent
    rw [Function.update_self] at disarmed ⊢
    rcases rs485Transmit_cases transmitted with ⟨same, -⟩ | ⟨-, accepts⟩
    · rw [same, armed] at disarmed
      cases disarmed
    · exact accepts

theorem send_rs485 (n : RS485UartNum) (channels : Rs485Channels) (packet : UserRS485Send)
    (behind : Nat → INT8U) :
    send (rs485Transmitter n) channels (packet, behind) =
      rs485SendStruct channels packet behind n := by
  rw [rs485SendStruct_eq, rs485SendFrame]
  by_cases busy : (channels n).port.uart.sendOK = 0
  · rw [if_pos busy, onChannel, Option.map_some, Function.update_eq_self]
    exact if_pos busy
  · have sent : send (rs485Transmitter n) channels (packet, behind) =
        ((rs485Transmitter n).load channels (packet, behind)).map fun loaded =>
          (rs485Transmitter n).mark ((rs485Transmitter n).arm ((rs485Transmitter n).first loaded)) :=
      if_neg busy
    rw [sent, if_neg busy, onChannel, Option.map_map]
    simp only [rs485Transmitter, onChannel, Option.map_map]
    congr 1
    funext loaded
    simp only [Function.comp_apply, Function.update_self, Function.update_idem]

/-- `LPC_Uart_Init`; `UART_Init` clears the interrupt enable register. -/
def uart1Start (s : Uart1Tx) : State Uart1Tx :=
  ⟨.outside, { lpcUartInitSend s with threEnabled := false }⟩

def rs485Start (channels : Rs485Channels) : State Rs485Channels :=
  ⟨.outside, fun n => (channels n).init⟩

/-- Whenever the task is outside the send function and THRE is disabled, `sendOK` is 1. -/
abbrev NeverWedges {δ κ : Type} (T : Transmitter δ κ) : State δ → List (Event κ) → Prop :=
  Throughout (step T) (Free T)

/-- Whenever the task executes `sendOK=0`, THRE is still enabled. -/
abbrev EachMarkInTime {δ κ : Type} (T : Transmitter δ κ) : State δ → List (Event κ) → Prop :=
  EachStep (step T) (MarksInTime T)

/-- From initialization on, under any interleaving of the statements of the send function
with THRE interrupts, an engine stays usable exactly when no frame ends before `sendOK` is
cleared for it. -/
theorem engines_neverWedge_iff (s : Uart1Tx) (events : List (Event SendStruct)) (n : RS485UartNum)
    (channels : Rs485Channels) (events' : List (Event (UserRS485Send × (Nat → INT8U)))) :
    (NeverWedges uart1Transmitter (uart1Start s) events ↔
      EachMarkInTime uart1Transmitter (uart1Start s) events) ∧
    (NeverWedges (rs485Transmitter n) (rs485Start channels) events' ↔
      EachMarkInTime (rs485Transmitter n) (rs485Start channels) events') :=
  ⟨free_throughout_iff _ _ events fun _ _ => rfl, free_throughout_iff _ _ events' fun _ _ => rfl⟩

/-! ### Runs of an RS485 channel are defined -/

/-- A frame of at most ten bytes lies in `Send`. -/
structure FrameLoaded (c : Rs485Channel) : Prop where
  short : c.port.uart.sendLen.toNat ≤ 10
  long : 6 ≤ c.port.uart.sendLen.toNat
  tail : c.port.uart.send.toList.getD (c.port.uart.sendLen.toNat - 1) 0 = 0x45

/-- What holds of a channel between any two statements. -/
structure InsideSend (place : Place) (c : Rs485Channel) : Prop where
  sending : c.threEnabled = true →
    FrameLoaded c ∧ c.port.uart.sendIndex.toNat + 2 ≤ c.port.uart.sendLen.toNat
  idle : c.threEnabled = false → c.port.uart.sendIndex = 0
  loaded : place = .loaded ∨ place = .started → FrameLoaded c ∧ c.threEnabled = false
  busy : place = .outside → c.threEnabled = true → c.port.uart.sendOK = 0

theorem insideSend_init (c : Rs485Channel) : InsideSend .outside c.init where
  sending armed := by cases armed
  idle _ := rfl
  loaded inside := by rcases inside with no | no <;> cases no
  busy _ armed := by cases armed

/-- A THRE interrupt during a frame reads inside `Send`. -/
theorem insideSend_transmit {place : Place} {c : Rs485Channel} (inside : InsideSend place c)
    (armed : c.threEnabled = true) :
    ∃ after, rs485Transmit c = some after ∧ InsideSend place after := by
  obtain ⟨frame, early⟩ := inside.sending armed
  have short := frame.short
  have notLoaded : ¬ (place = .loaded ∨ place = .started) := by
    intro early
    have := (inside.loaded early).2
    rw [armed] at this
    cases this
  have next : (c.port.uart.sendIndex + 1).toNat = c.port.uart.sendIndex.toNat + 1 :=
    counter_succ (by omega)
  simp only [rs485Transmit]
  rw [if_pos (by rw [next]; omega)]
  split
  next ended =>
    refine ⟨_, rfl, ?_, fun _ => rfl, fun early => absurd early notLoaded, ?_⟩
    · intro no
      cases no
    · intro _ no
      cases no
  next goesOn =>
    refine ⟨_, rfl, fun _ => ?_, ?_, fun early => absurd early notLoaded, inside.busy⟩
    · refine ⟨⟨frame.short, frame.long, frame.tail⟩, ?_⟩
      rw [next]
      rcases Nat.lt_or_ge (c.port.uart.sendIndex.toNat + 2) c.port.uart.sendLen.toNat with
        before | last
      · exact before
      · -- the last byte is the tail, with which the frame would have ended
        exfalso
        apply goesOn
        rw [next]
        refine ⟨last, ?_⟩
        have place : c.port.uart.sendLen.toNat - 1 = c.port.uart.sendIndex.toNat + 1 := by omega
        rw [← place]
        exact frame.tail
    · intro no
      exact absurd (armed.symm.trans no) (by decide)

/-- The frames handed over in a run have at most four bytes of payload. -/
def ShortFrames (events : List (Event (UserRS485Send × (Nat → INT8U)))) : Prop :=
  ∀ frame, .call frame ∈ events → frame.1.len.toNat ≤ 4

theorem insideSend_load {c : Rs485Channel} (inside : InsideSend .outside c)
    (free : c.port.uart.sendOK ≠ 0) (packet : UserRS485Send) (behind : Nat → INT8U)
    (short : packet.len.toNat ≤ 4) :
    ∃ after, rs485Load c packet behind = some after ∧ InsideSend .loaded after := by
  obtain ⟨send, tail, filled⟩ := rs485Load_defined c packet behind short
  have idle : c.threEnabled = false := by
    cases armed : c.threEnabled with
    | false => rfl
    | true => exact absurd (inside.busy rfl armed) free
  have length := sendLen_toNat packet short
  refine ⟨_, filled, ?_, fun _ => inside.idle idle, fun _ => ⟨⟨?_, ?_, ?_⟩, idle⟩, ?_⟩
  · intro armed
    exact absurd (idle.symm.trans armed) (by decide)
  · rw [length]
    omega
  · rw [length]
    omega
  · rw [length]
    exact tail
  · intro no
    cases no

theorem insideSend_first {c : Rs485Channel} (inside : InsideSend .loaded c) :
    InsideSend .started (rs485SendFirst c) := by
  obtain ⟨frame, idle⟩ := inside.loaded (Or.inl rfl)
  refine ⟨fun armed => ?_, inside.idle, fun _ => ⟨⟨frame.short, frame.long, frame.tail⟩, idle⟩,
    fun no => nomatch no⟩
  exact absurd (idle.symm.trans armed) (by decide)

theorem insideSend_arm {c : Rs485Channel} (inside : InsideSend .started c) :
    InsideSend .arming (rs485Arm c) := by
  obtain ⟨frame, idle⟩ := inside.loaded (Or.inr rfl)
  have long := frame.long
  refine ⟨fun _ => ⟨⟨frame.short, frame.long, frame.tail⟩, ?_⟩, fun no => (nomatch no), ?_,
    fun no => nomatch no⟩
  · have zero : c.port.uart.sendIndex.toNat = 0 := by rw [inside.idle idle]; rfl
    simp only [rs485Arm, zero]
    omega
  · intro no
    rcases no with no | no <;> cases no

theorem insideSend_mark {c : Rs485Channel} (inside : InsideSend .arming c) :
    InsideSend .outside (rs485Mark c) := by
  refine ⟨fun armed => ?_, inside.idle, ?_, fun _ _ => rfl⟩
  · obtain ⟨frame, early⟩ := inside.sending armed
    exact ⟨⟨frame.short, frame.long, frame.tail⟩, early⟩
  · intro no
    rcases no with no | no <;> cases no

/-- One step of a channel that carries short frames has a result. -/
theorem insideSend_step (n : RS485UartNum) (place : Place) (channels : Rs485Channels)
    (event : Event (UserRS485Send × (Nat → INT8U)))
    (short : ∀ frame, event = .call frame → frame.1.len.toNat ≤ 4)
    (inside : InsideSend place (channels n)) :
    ∃ t, step (rs485Transmitter n) ⟨place, channels⟩ event = some t ∧
      InsideSend t.place (t.device n) := by
  have updated : ∀ (place : Place) {c : Rs485Channel}, InsideSend place c →
      InsideSend place (Function.update channels n c n) := by
    intro place c kept
    rwa [Function.update_self]
  cases event with
  | call frame =>
    by_cases enters : place = .outside ∧ (channels n).port.uart.sendOK ≠ 0
    · obtain ⟨rfl, free⟩ := enters
      obtain ⟨after, filled, loaded⟩ :=
        insideSend_load inside free frame.1 frame.2 (short frame rfl)
      refine ⟨⟨.loaded, Function.update channels n after⟩, ?_, updated _ loaded⟩
      have entered : step (rs485Transmitter n) ⟨.outside, channels⟩ (.call frame) =
          (onChannel channels n (rs485Load (channels n) frame.1 frame.2)).map
            fun d => ⟨.loaded, d⟩ := if_pos ⟨rfl, free⟩
      rw [entered, filled, onChannel, Option.map_some, Option.map_some]
    · exact ⟨_, if_neg enters, inside⟩
  | interrupt =>
    by_cases armed : (channels n).threEnabled = true
    · obtain ⟨after, sent, kept⟩ := insideSend_transmit inside armed
      refine ⟨⟨place, Function.update channels n after⟩, ?_, updated _ kept⟩
      have interrupted : step (rs485Transmitter n) ⟨place, channels⟩ .interrupt =
          (rs485IRQHandlerSend channels n).map fun d => ⟨place, d⟩ := if_pos armed
      rw [interrupted, rs485IRQHandlerSend_eq, sent, onChannel, Option.map_some, Option.map_some]
    · exact ⟨_, if_neg armed, inside⟩
  | advance =>
    cases place with
    | outside => exact ⟨_, rfl, inside⟩
    | loaded => exact ⟨_, rfl, updated _ (insideSend_first inside)⟩
    | started => exact ⟨_, rfl, updated _ (insideSend_arm inside)⟩
    | arming => exact ⟨_, rfl, updated _ (insideSend_mark inside)⟩

/-- A channel that is handed short frames only never leaves its arrays. -/
theorem rs485_defined (n : RS485UartNum) (channels : Rs485Channels)
    (events : List (Event (UserRS485Send × (Nat → INT8U)))) (short : ShortFrames events) :
    ∃ t, events.foldlM (step (rs485Transmitter n)) (rs485Start channels) = some t := by
  have start : InsideSend (rs485Start channels).place ((rs485Start channels).device n) :=
    insideSend_init (channels n)
  generalize rs485Start channels = s at start
  induction events generalizing s with
  | nil => exact ⟨s, rfl⟩
  | cons event rest ih =>
    obtain ⟨t, taken, inside⟩ := insideSend_step n s.place s.device event
      (fun frame same => short frame (same ▸ List.mem_cons_self)) start
    obtain ⟨last, reached⟩ := ih (fun frame member => short frame (List.mem_cons_of_mem _ member))
      t inside
    exact ⟨last, by rw [List.foldlM_cons, taken]; exact reached⟩

/-! ### The hang -/

/-- The task enters the send function, sends the first byte, enables THRE and is then
preempted for `sent` interrupts. -/
def preempted {κ : Type} (frame : κ) (sent : Nat) : List (Event κ) :=
  [.call frame, .advance, .advance] ++ List.replicate sent .interrupt ++ [.advance]

def quietUart1 : Uart1Tx := ⟨Vector.replicate 8 0, 1, 0, false, []⟩

def quietChannels : Rs485Channels := fun _ =>
  ⟨⟨⟨Vector.replicate 10 0, Vector.replicate 15 0, 0, 0, 1, 0, 0⟩, 0⟩, false, []⟩

/-- Seven interrupts send the rest of a UART1 frame, five that of an RS485 frame without
payload; with the task back outside, THRE is disabled and `sendOK` is 0. -/
theorem engines_wedge_preempted :
    ¬ NeverWedges uart1Transmitter (uart1Start quietUart1) (preempted ⟨0, 0, 0⟩ 7) ∧
    ∀ n, ¬ NeverWedges (rs485Transmitter n) (rs485Start quietChannels)
      (preempted (⟨1, 2, 0, Vector.replicate 3 0⟩, fun _ => 0) 5) := by
  constructor
  · intro never
    exact absurd (throughout_last never rfl rfl rfl) (by decide)
  · intro n never
    cases n <;> exact absurd (throughout_last never rfl rfl rfl) (by decide)

end GasSub.Guarantees.TransmitWedge
