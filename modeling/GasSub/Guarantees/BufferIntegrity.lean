import GasSub.Library.Run
import GasSub.Source.Rs485Receive
import GasSub.Source.Uart1Receive

/-!
# Receive buffers while their ready flag is up

Bytes arrive on UART1 and on the four RS485 lines, frames are fetched in any
order. A log beside each receiver keeps the bytes of the running capture and
those of the last accepted frame. The capture buffer is also the delivery
buffer and a new capture does not lower the flag, so the buffer stays intact
exactly when no byte of a following frame changes it while the flag is up.
-/
namespace GasSub.Guarantees.BufferIntegrity
open GasSub.Source GasSub.Library.Run

/-- The bytes of the running capture and of the last accepted frame. -/
structure LineLog where
  capture : List INT8U
  frame : List INT8U

/-- A byte arrives; `ends` and `accepted` tell what the receiver made of it. -/
def LineLog.observe (log : LineLog) (byte : INT8U) (capturing ends accepted : Prop)
    [Decidable capturing] [Decidable ends] [Decidable accepted] : LineLog :=
  if capturing then
    if ends then
      { capture := [], frame := if accepted then log.capture ++ [byte] else log.frame }
    else { log with capture := log.capture ++ [byte] }
  else log

/-! ### UART1 -/

/-- The log of UART1 after a byte. -/
def uart1Log (s : Uart1Rx) (log : LineLog) (byte : INT8U) : LineLog :=
  let after := uart1IRQHandlerReceive s byte
  log.observe byte (s.readyToRcv = 1) (after.readyToRcv = 0) (after.uart1RcvOK = 1)

/-- With the flag up, the buffer holds the body of the last accepted frame. -/
def Uart1Intact (s : Uart1Rx) (log : LineLog) : Prop :=
  s.uart1RcvOK = 1 → s.dataToRcv.toList = log.frame

/-- What UART1 and its log have in common in every state of a run. -/
structure Uart1Follows (s : Uart1Rx) (log : LineLog) : Prop where
  bounds : s.InBounds
  flag : s.uart1RcvOK = 0 ∨ s.uart1RcvOK = 1
  idle : s.readyToRcv = 0 → log.capture = []
  running : s.readyToRcv = 1 → log.capture = s.dataToRcv.toList.take s.uart1RcvIndex.toNat

/-- The byte is the one the buffer already holds at its place, or it completes
the block, or the flag is down. -/
def Uart1Unchanging (s : Uart1Rx) (byte : INT8U) : Prop :=
  s.readyToRcv = 1 → s.uart1RcvOK = 1 → s.uart1RcvIndex.toNat < 133 →
    s.dataToRcv[s.uart1RcvIndex.toNat]? = some byte

/-- Outside a capture a byte touches neither the buffer nor the flag. -/
theorem uart1Hunt_frame (s : Uart1Rx) (byte : INT8U) :
    (uart1Hunt s byte).dataToRcv = s.dataToRcv ∧ (uart1Hunt s byte).uart1RcvOK = s.uart1RcvOK ∧
      ((uart1Hunt s byte).readyToRcv = 1 → s.readyToRcv = 1 ∨ (uart1Hunt s byte).uart1RcvIndex = 0) := by
  unfold uart1Hunt
  split
  · exact ⟨rfl, rfl, Or.inl⟩
  · split
    · split
      · exact ⟨rfl, rfl, fun _ => Or.inr rfl⟩
      · exact ⟨rfl, rfl, Or.inl⟩
    · exact ⟨rfl, rfl, Or.inl⟩

theorem toList_set_eq {n : Nat} (v : Vector INT8U n) (k : Nat) (byte : INT8U) (inside : k < n) :
    (v.set k byte inside).toList = (v.setIfInBounds k byte).toList := by
  rw [Vector.toList_set, Vector.toList_setIfInBounds]

theorem take_set_succ {n : Nat} (v : Vector INT8U n) (k : Nat) (byte : INT8U) (inside : k < n) :
    (v.setIfInBounds k byte).toList.take (k + 1) = v.toList.take k ++ [byte] := by
  have length : v.toList.length = n := Vector.length_toList
  rw [Vector.toList_setIfInBounds, List.take_add_one, List.take_set_of_le (Nat.le_refl k),
    List.getElem?_set_self (by omega)]
  rfl

/-- Storing a byte leaves the list as it was exactly when the byte was there. -/
theorem set_eq_iff {n : Nat} (v : Vector INT8U n) (k : Nat) (byte : INT8U) (inside : k < n) :
    v.setIfInBounds k byte = v ↔ v[k]? = some byte := by
  rw [Vector.getElem?_eq_getElem inside, Option.some.injEq]
  constructor
  · intro same
    have here : (v.setIfInBounds k byte)[k] = byte := Vector.getElem_setIfInBounds_self _
    rw [← here]
    simp only [same]
  · intro same
    apply Vector.ext
    intro j bound
    by_cases here : k = j
    · subst here
      rw [Vector.getElem_setIfInBounds_self, same]
    · rw [Vector.getElem_setIfInBounds_ne bound here]

theorem uart1_follows (s : Uart1Rx) (log : LineLog) (byte : INT8U) (follows : Uart1Follows s log) :
    Uart1Follows (uart1IRQHandlerReceive s byte) (uart1Log s log byte) := by
  have bounds := inBounds_receive s byte follows.bounds
  by_cases capturing : s.readyToRcv = 1
  · have inside := follows.bounds.2 capturing
    have captured := follows.running capturing
    by_cases room : s.uart1RcvIndex.toNat < 133
    · have stored : uart1IRQHandlerReceive s byte = _ :=
        (if_pos capturing).trans (uart1Capture_inside s byte room)
      have next := toNat_succ inside
      have log' : uart1Log s log byte = { log with capture := log.capture ++ [byte] } := by
        simp only [uart1Log, stored, LineLog.observe, capturing]
        rfl
      rw [log']
      rw [stored] at bounds ⊢
      refine ⟨bounds, follows.flag, fun stopped => ?_, fun _ => ?_⟩
      · rw [capturing] at stopped
        exact absurd stopped (by decide)
      · simp only [next, captured, take_set_succ _ _ _ inside]
    · have stored : uart1IRQHandlerReceive s byte = _ :=
        (if_pos capturing).trans (uart1Capture_last s byte (by omega))
      have ended : (uart1Log s log byte).capture = [] := by
        simp only [uart1Log, stored, LineLog.observe, capturing]
        rfl
      refine ⟨bounds, ?_, fun _ => ended, fun now => ?_⟩
      · rw [stored]
        simp only
        split
        · exact Or.inr rfl
        · exact Or.inl rfl
      · rw [stored] at now
        exact absurd now (by decide : ¬ (0 : INT8U) = 1)
  · have idle := follows.bounds.1.resolve_right capturing
    have hunts : uart1IRQHandlerReceive s byte = uart1Hunt s byte := if_neg capturing
    have log' : uart1Log s log byte = log := if_neg capturing
    obtain ⟨-, flag, opens⟩ := uart1Hunt_frame s byte
    rw [log', hunts]
    rw [hunts] at bounds
    refine ⟨bounds, ?_, fun _ => follows.idle idle, fun now => ?_⟩
    · rw [flag]
      exact follows.flag
    · have zero := (opens now).resolve_left capturing
      rw [follows.idle idle, zero]
      rfl

/-- One byte keeps an intact buffer intact exactly when it does not change it
under a raised flag. -/
theorem uart1_intact_iff (s : Uart1Rx) (log : LineLog) (byte : INT8U)
    (follows : Uart1Follows s log) (intact : Uart1Intact s log) :
    Uart1Intact (uart1IRQHandlerReceive s byte) (uart1Log s log byte) ↔ Uart1Unchanging s byte := by
  by_cases capturing : s.readyToRcv = 1
  · have inside := follows.bounds.2 capturing
    by_cases room : s.uart1RcvIndex.toNat < 133
    · have stored : uart1IRQHandlerReceive s byte = _ :=
        (if_pos capturing).trans (uart1Capture_inside s byte room)
      have frame : (uart1Log s log byte).frame = log.frame := by
        simp only [uart1Log, stored, LineLog.observe, capturing]
        rfl
      simp only [Uart1Intact, frame, stored, Uart1Unchanging, capturing, room, true_implies]
      refine forall_congr' fun up => ?_
      rw [← set_eq_iff _ _ _ inside, ← intact up, Vector.toList_inj]
    · have stored : uart1IRQHandlerReceive s byte = _ :=
        (if_pos capturing).trans (uart1Capture_last s byte (by omega))
      have full : s.uart1RcvIndex.toNat = 133 := by omega
      refine iff_of_true (fun up => ?_) (fun _ _ early => absurd early room)
      have frame : (uart1Log s log byte).frame = log.capture ++ [byte] := by
        rw [stored] at up
        simp only [uart1Log, stored, LineLog.observe, capturing, up, if_true]
      have whole := take_set_succ s.dataToRcv 133 byte (by omega)
      rw [List.take_of_length_le (by simp)] at whole
      rw [frame, follows.running capturing, full, stored]
      exact whole
  · have hunts : uart1IRQHandlerReceive s byte = uart1Hunt s byte := if_neg capturing
    have log' : uart1Log s log byte = log := if_neg capturing
    obtain ⟨data, flag, -⟩ := uart1Hunt_frame s byte
    refine iff_of_true (fun up => ?_) (fun now => absurd now capturing)
    rw [hunts, flag] at up
    rw [hunts, log', data]
    exact intact up

/-! ### RS485 -/

/-- The log of a channel that goes from `p` to `q` on a byte. -/
def rs485Log (p q : Rs485Port) (log : LineLog) (byte : INT8U) : LineLog :=
  log.observe byte (p.uart.readyToRcv = 1) (q.uart.readyToRcv = 0) (q.rcvOK = 1)

/-- With the flag up, the buffer starts with the last accepted frame. -/
def Rs485Intact (p : Rs485Port) (log : LineLog) : Prop :=
  p.rcvOK = 1 → p.uart.rcv.toList.take log.frame.length = log.frame

/-- What a channel and its log have in common in every state of a run. -/
structure Rs485Follows (p : Rs485Port) (log : LineLog) : Prop where
  phased : p.Phased
  flag : p.rcvOK = 0 ∨ p.rcvOK = 1
  idle : p.uart.readyToRcv = 0 → log.capture = []
  running : p.uart.readyToRcv = 1 → log.capture = p.uart.rcv.toList.take p.uart.rcvIndex.toNat

/-- The byte finds room, and it is behind the accepted frame, or the one the
buffer already holds at its place, or it completes the capture, or the flag is
down. -/
def Rs485Unchanging (p : Rs485Port) (log : LineLog) (byte : INT8U) : Prop :=
  p.uart.readyToRcv = 1 → p.uart.rcvIndex.toNat < 15 ∧
    (p.rcvOK = 1 → ¬ p.Ends byte → p.uart.rcvIndex.toNat < log.frame.length →
      p.uart.rcv[p.uart.rcvIndex.toNat]? = some byte)

/-- Storing a byte leaves a prefix as it was exactly when it is behind the prefix
or was there already. -/
theorem take_set_eq_iff {n : Nat} (v : Vector INT8U n) (k length : Nat) (byte : INT8U)
    (inside : k < n) :
    (v.setIfInBounds k byte).toList.take length = v.toList.take length ↔
      (k < length → v[k]? = some byte) := by
  by_cases behind : length ≤ k
  · rw [Vector.toList_setIfInBounds, List.take_set_of_le behind]
    exact iff_of_true rfl (fun before => absurd before (by omega))
  · have before : k < length := by omega
    simp only [before, true_implies]
    rw [← set_eq_iff v k byte inside]
    constructor
    · intro same
      have there := congrArg (·[k]?) same
      simp only [List.getElem?_take, before, if_true, Vector.getElem?_toList,
        Vector.getElem?_setIfInBounds_self, inside] at there
      exact (set_eq_iff v k byte inside).mpr there.symm
    · intro same
      rw [same]

theorem rs485_follows (p q : Rs485Port) (log : LineLog) (byte : INT8U)
    (follows : Rs485Follows p log) (moved : (rs485Receive p byte).1 = some q) :
    Rs485Follows q (rs485Log p q log byte) := by
  have phased := phased_receive p q byte follows.phased moved
  rcases rs485Receive_cases p byte follows.phased with idle | room | full
  · have notCapturing : ¬ p.uart.readyToRcv = 1 := by
      rw [idle.1]
      decide
    have same : rs485Log p q log byte = log := if_neg notCapturing
    rw [idle.2.2, Option.some.injEq] at moved
    rw [same]
    subst moved
    refine ⟨phased, follows.flag, fun _ => follows.idle idle.1, fun _ => ?_⟩
    rw [follows.idle idle.1]
    simp only [idle.2.1]
    rfl
  · obtain ⟨capturing, inside, stored⟩ := room
    rw [stored, Option.some.injEq] at moved
    by_cases ends : p.Ends byte
    · rw [rs485Capture_ends p byte inside ends] at moved
      have ended : (rs485Log p q log byte).capture = [] := by
        simp only [rs485Log, LineLog.observe, capturing, ← moved]
        rfl
      refine ⟨phased, ?_, fun _ => ended, fun now => ?_⟩
      · rw [← moved]
        simp only
        split
        · exact Or.inr rfl
        · exact Or.inl rfl
      · rw [← moved] at now
        exact absurd now (by decide : ¬ (0 : INT8U) = 1)
    · rw [rs485Capture_inside p byte inside ends] at moved
      have log' : rs485Log p q log byte = { log with capture := log.capture ++ [byte] } := by
        simp only [rs485Log, LineLog.observe, ← moved, capturing]
        rfl
      rw [log']
      subst moved
      refine ⟨phased, follows.flag, fun stopped => ?_, fun _ => ?_⟩
      · rw [capturing] at stopped
        exact absurd stopped (by decide)
      · have next := take_set_succ p.uart.rcv p.uart.rcvIndex.toNat byte inside
        rw [← toList_set_eq _ _ _ inside] at next
        simp only [rcvIndex_succ inside, follows.running capturing, next]
  · rw [full.2.2] at moved
    cases moved

/-- One byte keeps an intact channel defined and intact exactly when it finds room
and does not change the accepted frame under a raised flag. -/
theorem rs485_intact_iff (p : Rs485Port) (log : LineLog) (byte : INT8U)
    (follows : Rs485Follows p log) (intact : Rs485Intact p log) :
    (∃ q, (rs485Receive p byte).1 = some q ∧ Rs485Intact q (rs485Log p q log byte)) ↔
      Rs485Unchanging p log byte := by
  rcases rs485Receive_cases p byte follows.phased with idle | room | full
  · have notCapturing : ¬ p.uart.readyToRcv = 1 := by
      rw [idle.1]
      decide
    refine iff_of_true ⟨_, by rw [idle.2.2], ?_⟩ (fun now => absurd now notCapturing)
    have same : ∀ q, rs485Log p q log byte = log := fun _ => if_neg notCapturing
    rw [same]
    exact intact
  · obtain ⟨capturing, inside, stored⟩ := room
    simp only [stored, Option.some.injEq, exists_eq_left', Rs485Unchanging, capturing, inside,
      true_implies, true_and]
    by_cases ends : p.Ends byte
    · refine iff_of_true (fun up => ?_) (fun _ goesOn => absurd ends goesOn)
      have stopped : (rs485Capture p byte inside).uart.readyToRcv = 0 := by
        rw [rs485Capture_ends p byte inside ends]
      have frame : (rs485Log p (rs485Capture p byte inside) log byte).frame =
          log.capture ++ [byte] := by
        simp only [rs485Log, LineLog.observe, capturing, up, stopped, if_true]
      have length : (log.capture ++ [byte]).length = p.uart.rcvIndex.toNat + 1 := by
        rw [follows.running capturing, List.length_append, List.length_take, Vector.length_toList,
          List.length_singleton]
        omega
      have whole := take_set_succ p.uart.rcv p.uart.rcvIndex.toNat byte inside
      rw [← toList_set_eq _ _ _ inside] at whole
      rw [frame, length, rs485Capture_ends p byte inside ends, follows.running capturing]
      exact whole
    · have frame : (rs485Log p (rs485Capture p byte inside) log byte).frame = log.frame := by
        simp only [rs485Log, LineLog.observe, rs485Capture_inside p byte inside ends, capturing]
        rfl
      unfold Rs485Intact
      rw [frame]
      simp only [rs485Capture_inside p byte inside ends, ends, not_false_eq_true, true_implies]
      refine forall_congr' fun up => ?_
      rw [← take_set_eq_iff p.uart.rcv _ _ byte inside, intact up, toList_set_eq]
  · simp [full.2.2, Rs485Unchanging, full.1, full.2.1]

/-! ### The five receivers together -/

inductive Event where
  | received1 (byte : INT8U)
  | fetch1
  | received (n : RS485UartNum) (byte : INT8U)
  | fetch (n : RS485UartNum) (junk : UserRS485Rcv)

structure Monitored where
  uart1 : Uart1Rx
  log1 : LineLog
  ports : Rs485Ports
  logs : RS485UartNum → LineLog

def Monitored.init (uart1 : Uart1Rx) (ports : Rs485Ports) : Monitored :=
  { uart1 := lpcUartInit uart1
    log1 := ⟨[], []⟩
    ports := fun n => (ports n).init
    logs := fun _ => ⟨[], []⟩ }

def step (m : Monitored) : Event → Option Monitored
  | .received1 byte => some
      { m with uart1 := uart1IRQHandlerReceive m.uart1 byte, log1 := uart1Log m.uart1 m.log1 byte }
  | .fetch1 => some { m with uart1 := (uart1GetStruct m.uart1).2 }
  | .received n byte => (rs485IRQHandlerReceive m.ports n byte).1.map fun ports =>
      { m with
        ports := ports
        logs := Function.update m.logs n (rs485Log (m.ports n) (ports n) (m.logs n) byte) }
  | .fetch n junk => (rs485GetStruct m.ports n junk).1.map fun found => { m with ports := found.2 }

/-- Every buffer whose flag is up holds its last accepted frame. -/
def Intact (m : Monitored) : Prop :=
  Uart1Intact m.uart1 m.log1 ∧ ∀ n, Rs485Intact (m.ports n) (m.logs n)

/-- The structure is the one the accepted frame `frame` encodes. -/
def EncodedBy (found : UserRS485Rcv) (frame : List INT8U) : Prop :=
  frame[0]? = some found.ctrl ∧ frame[1]? = some found.len ∧
    ∀ j < found.len.toNat, ∃ byte, found.data[j]? = some byte ∧ frame[j + 2]? = some byte

/-- A fetch with the flag up returns what the last accepted frame encodes. -/
def ReturnsFrame (m : Monitored) : Event → Prop
  | .received1 _ => True
  | .fetch1 => m.uart1.uart1RcvOK ≠ 0 → ∃ block : Vector INT8U 134,
      block.toList = m.log1.frame ∧ (uart1GetStruct m.uart1).1 = some (decodeBody block)
  | .received _ _ => True
  | .fetch n junk => (m.ports n).rcvOK ≠ 0 → ∃ found,
      (rs485GetStruct m.ports n junk).1 = some found ∧ EncodedBy found.1 (m.logs n).frame

/-- No byte of a following frame changes a buffer whose flag is up, and a fetched
RS485 frame is as long as its length byte says. -/
def Undisturbed (m : Monitored) : Event → Prop
  | .received1 byte => Uart1Unchanging m.uart1 byte
  | .fetch1 => True
  | .received n byte => Rs485Unchanging (m.ports n) (m.logs n) byte
  | .fetch n _ => (m.ports n).rcvOK ≠ 0 →
      (m.ports n).uart.lengthByte.toNat ≤ 10 ∧
        (m.ports n).uart.lengthByte.toNat + 2 ≤ (m.logs n).frame.length

structure Invariant (m : Monitored) : Prop where
  uart1 : Uart1Follows m.uart1 m.log1
  rs485 : ∀ n, Rs485Follows (m.ports n) (m.logs n)

theorem invariant_init (uart1 : Uart1Rx) (ports : Rs485Ports) :
    Invariant (Monitored.init uart1 ports) where
  uart1 :=
    { bounds := inBounds_init uart1
      flag := Or.inl rfl
      idle := fun _ => rfl
      running := fun _ => rfl }
  rs485 n :=
    { phased := phased_init (ports n)
      flag := Or.inl rfl
      idle := fun _ => rfl
      running := fun _ => rfl }

theorem intact_init (uart1 : Uart1Rx) (ports : Rs485Ports) :
    Intact (Monitored.init uart1 ports) :=
  ⟨fun up => absurd up (by decide : ¬ (0 : INT8U) = 1),
    fun _ up => absurd up (by decide : ¬ (0 : INT8U) = 1)⟩

/-- A received byte moves its own channel and no other. -/
theorem step_received (m : Monitored) (n : RS485UartNum) (byte : INT8U) :
    step m (.received n byte) = (rs485Receive (m.ports n) byte).1.map fun q =>
      { m with
        ports := Function.update m.ports n q
        logs := Function.update m.logs n (rs485Log (m.ports n) q (m.logs n) byte) } := by
  simp only [step, rs485IRQHandlerReceive_eq, onPort, Option.map_map, Function.comp_def,
    Function.update_self]

/-- A fetch lowers the flag of its own channel. -/
theorem step_fetch (m t : Monitored) (n : RS485UartNum) (junk : UserRS485Rcv)
    (taken : step m (.fetch n junk) = some t) :
    t = { m with ports := Function.update m.ports n { m.ports n with rcvOK := 0 } } := by
  simp only [step, rs485GetStruct_eq, Option.map_map, Option.map_eq_some_iff] at taken
  obtain ⟨found, returned, same⟩ := taken
  have lowered := rs485Get_port (m.ports n) junk found.1 found.2 returned
  simp only [Function.comp_apply, lowered] at same
  exact same.symm

/-- A fetch lowers the flag of UART1. -/
theorem uart1GetStruct_state (s : Uart1Rx) : (uart1GetStruct s).2 = { s with uart1RcvOK := 0 } := by
  unfold uart1GetStruct
  by_cases down : s.uart1RcvOK = 0
  · rw [if_pos down, ← down]
  · rw [if_neg down]

theorem invariant_step (m : Monitored) (e : Event) (t : Monitored) (holds : Invariant m)
    (taken : step m e = some t) : Invariant t := by
  cases e with
  | received1 byte =>
    obtain rfl := Option.some.inj taken
    exact ⟨uart1_follows m.uart1 m.log1 byte holds.uart1, holds.rs485⟩
  | fetch1 =>
    obtain rfl := Option.some.inj taken
    refine ⟨?_, holds.rs485⟩
    simp only [uart1GetStruct_state]
    exact ⟨holds.uart1.bounds, Or.inl rfl, holds.uart1.idle, holds.uart1.running⟩
  | received n byte =>
    rw [step_received, Option.map_eq_some_iff] at taken
    obtain ⟨q, moved, rfl⟩ := taken
    refine ⟨holds.uart1, fun k => ?_⟩
    by_cases here : k = n
    · subst here
      simp only [Function.update_self]
      exact rs485_follows _ q _ byte (holds.rs485 k) moved
    · simp only [Function.update_of_ne here]
      exact holds.rs485 k
  | fetch n junk =>
    rw [step_fetch m t n junk taken]
    refine ⟨holds.uart1, fun k => ?_⟩
    by_cases here : k = n
    · subst here
      simp only [Function.update_self]
      have follows := holds.rs485 k
      exact ⟨follows.phased, Or.inl rfl, follows.idle, follows.running⟩
    · simp only [Function.update_of_ne here]
      exact holds.rs485 k

/-! ### One event -/

theorem received_undisturbed_iff (m : Monitored) (n : RS485UartNum) (byte : INT8U)
    (holds : Invariant m) (intact : Intact m) :
    (∃ t, step m (.received n byte) = some t ∧ Intact t) ↔
      Undisturbed m (.received n byte) := by
  have one := rs485_intact_iff _ _ byte (holds.rs485 n) (intact.2 n)
  simp only [Undisturbed, ← one, step_received, Option.map_eq_some_iff]
  constructor
  · intro moved
    obtain ⟨t, ⟨q, received, same⟩, kept⟩ := moved
    have mine := kept.2 n
    simp only [← same, Function.update_self] at mine
    exact ⟨q, received, mine⟩
  · intro moved
    obtain ⟨q, received, kept⟩ := moved
    refine ⟨_, ⟨q, received, rfl⟩, intact.1, fun k => ?_⟩
    by_cases here : k = n
    · subst here
      simp only [Function.update_self]
      exact kept
    · simp only [Function.update_of_ne here]
      exact intact.2 k

/-- Lowering a flag disturbs nothing. -/
theorem intact_lowered (m : Monitored) (n : RS485UartNum) (intact : Intact m) :
    Intact { m with ports := Function.update m.ports n { m.ports n with rcvOK := 0 } } := by
  refine ⟨intact.1, fun k => ?_⟩
  by_cases here : k = n
  · subst here
    simp only [Function.update_self]
    exact fun up => absurd up (by decide : ¬ (0 : INT8U) = 1)
  · simp only [Function.update_of_ne here]
    exact intact.2 k

/-- A fetch of an intact channel returns the frame exactly when its length byte
fits the frame and the result. -/
theorem fetch_undisturbed_iff (m : Monitored) (n : RS485UartNum) (junk : UserRS485Rcv)
    (holds : Invariant m) (intact : Intact m) :
    ReturnsFrame m (.fetch n junk) ∧ (∃ t, step m (.fetch n junk) = some t ∧ Intact t) ↔
      Undisturbed m (.fetch n junk) := by
  simp only [ReturnsFrame, Undisturbed]
  by_cases down : (m.ports n).rcvOK = 0
  · refine iff_of_true ⟨fun up => absurd down up, ?_⟩ (fun up => absurd down up)
    have taken : ∃ t, step m (.fetch n junk) = some t := by
      simp only [step, rs485GetStruct_eq, rs485Get_down _ junk down]
      exact ⟨_, rfl⟩
    obtain ⟨t, taken⟩ := taken
    refine ⟨t, taken, ?_⟩
    rw [step_fetch m t n junk taken]
    exact intact_lowered m n intact
  · have frame := intact.2 n ((holds.rs485 n).flag.resolve_left down)
    have cell : ∀ k (inside : k < 15), (m.logs n).frame[k]? =
        if k < (m.logs n).frame.length then some (m.ports n).uart.rcv[k] else none := by
      intro k inside
      rw [← frame, List.getElem?_take, frame, Vector.getElem?_toList,
        Vector.getElem?_eq_getElem inside]
    by_cases room : (m.ports n).uart.lengthByte.toNat ≤ 10
    · obtain ⟨found, returned, ctrl, len, data⟩ := rs485Get_up (m.ports n) junk down room
      have taken : step m (.fetch n junk) =
          some { m with ports := Function.update m.ports n { m.ports n with rcvOK := 0 } } := by
        simp only [step, rs485GetStruct_eq, returned, Option.map_some]
      have exists' : (∃ t, step m (.fetch n junk) = some t ∧ Intact t) :=
        ⟨_, taken, intact_lowered m n intact⟩
      simp only [exists', and_true, ne_eq, down, not_false_eq_true, true_implies, room, true_and,
        rs485GetStruct_eq, returned, Option.map_some, Option.some.injEq, exists_eq_left', EncodedBy,
        ctrl, len, cell 0 (by omega), cell 1 (by omega)]
      constructor
      · intro encoded
        obtain ⟨-, second, bytes⟩ := encoded
        by_contra short
        by_cases empty : (m.ports n).uart.lengthByte.toNat = 0
        · rw [if_neg (by omega)] at second
          cases second
        · obtain ⟨byte, -, there⟩ := bytes ((m.ports n).uart.lengthByte.toNat - 1) (by omega)
          rw [cell _ (by omega), if_neg (by omega)] at there
          cases there
      · intro whole
        refine ⟨if_pos (by omega), if_pos (by omega), fun j within => ?_⟩
        refine ⟨(m.ports n).uart.rcv[j + 2], ?_, ?_⟩
        · rw [Vector.getElem?_eq_getElem (by omega), data j (by omega) within]
        · rw [cell (j + 2) (by omega), if_pos (by omega)]
    · have nothing : (rs485Get (m.ports n) junk).1 = none :=
        rs485Get_overrun _ junk down (by omega)
      simp only [step, rs485GetStruct_eq, nothing, Option.map_none, reduceCtorEq, false_and,
        exists_false, and_false, room, false_iff, Classical.not_imp, not_false_eq_true, and_true]
      exact down

theorem undisturbed_iff (m : Monitored) (e : Event) (holds : Invariant m) (intact : Intact m) :
    Undisturbed m e ↔ ReturnsFrame m e ∧ ∃ t, step m e = some t ∧ Intact t := by
  cases e with
  | received1 byte =>
    have one := uart1_intact_iff m.uart1 m.log1 byte holds.uart1 intact.1
    simp only [Undisturbed, ReturnsFrame, step, Option.some.injEq, exists_eq_left', true_and, ← one]
    exact (and_iff_left intact.2).symm
  | fetch1 =>
    refine iff_of_true trivial ⟨fun up => ?_, _, rfl, ?_, intact.2⟩
    · refine ⟨m.uart1.dataToRcv, intact.1 (holds.uart1.flag.resolve_left up), ?_⟩
      unfold uart1GetStruct
      rw [if_neg up]
    · simp only [uart1GetStruct_state]
      exact fun up => absurd up (by decide : ¬ (0 : INT8U) = 1)
  | received n byte =>
    rw [← received_undisturbed_iff m n byte holds intact]
    exact (and_iff_right trivial).symm
  | fetch n junk => exact (fetch_undisturbed_iff m n junk holds intact).symm

/-! ### Whole runs -/

theorem always_intact_iff (m : Monitored) (holds : Invariant m) (intact : Intact m)
    (events : List Event) :
    Always step Intact m events ∧ EachStep step ReturnsFrame m events ↔
      EachStep step Undisturbed m events :=
  always_and_eachStep_iff invariant_step undisturbed_iff holds intact

/-- In a run from initialization every buffer stays intact while its flag is up,
and every fetch returns an accepted frame, exactly when no byte of a following
frame disturbs a buffer and every length byte fits. -/
theorem intact_iff (uart1 : Uart1Rx) (ports : Rs485Ports) (events : List Event) :
    Always step Intact (Monitored.init uart1 ports) events ∧
        EachStep step ReturnsFrame (Monitored.init uart1 ports) events ↔
      EachStep step Undisturbed (Monitored.init uart1 ports) events :=
  always_intact_iff _ (invariant_init uart1 ports) (intact_init uart1 ports) events

/-- Receivers with empty buffers. -/
def blank : Monitored :=
  Monitored.init ⟨Vector.replicate 134 0, 0, 0, 0, 0⟩ fun _ =>
    ⟨⟨Vector.replicate 10 0, Vector.replicate 15 0, 0, 0, 0, 0, 0⟩, 0⟩

/-- A well-formed frame on one line, then the S and the first byte of the next. -/
def backToBack : List Event :=
  [0x53, 0x01, 0x01, 0x07, 0x98, 0x45, 0x53, 0x02].map (Event.received .uart0)

/-- The first byte of the next frame is stored over the frame not yet fetched. -/
theorem intact_backToBack : ¬ Always step Intact blank backToBack := by
  intro always
  have mixed : (backToBack.foldlM step blank).any (fun t =>
      (t.ports .uart0).rcvOK == 1 && (t.logs .uart0).frame == [0x01, 0x01, 0x07, 0x98, 0x45] &&
        (t.ports .uart0).uart.rcv[0] == 0x02) = true := by
    decide +kernel
  obtain ⟨t, reached, observed⟩ := (Option.any_eq_true _ _).mp mixed
  simp only [Bool.and_eq_true, beq_iff_eq] at observed
  obtain ⟨⟨up, frame⟩, first⟩ := observed
  have intact := (always_last always reached).2 .uart0 up
  rw [frame] at intact
  have head := congrArg (·[0]?) intact
  simp only [List.getElem?_take, Vector.getElem?_toList] at head
  rw [Vector.getElem?_eq_getElem (by omega), first] at head
  exact absurd head (by decide)

end GasSub.Guarantees.BufferIntegrity
