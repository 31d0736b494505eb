import GasSub.Source.Uart1Send
import Mathlib.Tactic.IntervalCases

/-!
# The UART1 command frame

`Uart1_Send_Struct` cuts the 40 bits of a command into groups of at most seven and
leaves bit 0 of each payload byte clear, so that no payload byte looks like the
opening 5B or the closing B5. It puts the first byte on the line itself; each of
the next seven THRE interrupts puts on one more. Until the seventh the driver is
busy and refuses further commands.
-/
namespace GasSub.Guarantees.CommandFrame
open GasSub.Source

/-! ### The encoding -/

/-- The six bytes between the markers. -/
def payload (command : SendStruct) : List INT8U := ((commandBytes command).toList.drop 1).take 6

/-- The command a receiver reads out of six payload bytes. -/
def recover : List INT8U → Option SendStruct
  | [p1, p2, p3, p4, p5, p6] =>
    some
      { clearFreCount := p1.setWidth 16 <<< 8 ||| p2.setWidth 16 <<< 1 ||| p3.setWidth 16 >>> 6
        sel := (p3.setWidth 16 &&& 0x3E) <<< 10 ||| p4.setWidth 16 <<< 3 ||| p5.setWidth 16 >>> 4
        outPut := (p5 &&& 0x0E) <<< 4 ||| p6 >>> 3 }
  | _ => none

/-- Bit 0 of a byte that was shifted left, or right out of bits that were masked off. -/
theorem payload_low (command : SendStruct) (byte : INT8U) (member : byte ∈ payload command) :
    byte.getLsbD 0 = false := by
  obtain ⟨clear, sel, out⟩ := command
  have listed : byte = ((clear &&& 0xFE00) >>> 8).setWidth 8 ∨
      byte = ((clear &&& 0x01FC) >>> 1).setWidth 8 ∨
      byte = ((clear &&& 0x3) <<< 6 ||| (sel &&& 0xF800) >>> 10).setWidth 8 ∨
      byte = ((sel &&& 0x07F0) >>> 3).setWidth 8 ∨
      byte = ((sel &&& 0x0F) <<< 4 ||| (out.setWidth 16 &&& 0xE0) >>> 4).setWidth 8 ∨
      byte = ((out.setWidth 16 &&& 0x1F) <<< 3).setWidth 8 := by
    simpa [payload, commandBytes] using member
  rcases listed with h | h | h | h | h | h <;> subst h <;>
    simp

/-- The three groups `clearFreCount` is cut into. -/
theorem recover_clear (clear sel : INT16U) :
    (((clear &&& 0xFE00) >>> 8).setWidth 8).setWidth 16 <<< 8 |||
        (((clear &&& 0x01FC) >>> 1).setWidth 8).setWidth 16 <<< 1 |||
        ((((clear &&& 0x3) <<< 6 ||| (sel &&& 0xF800) >>> 10).setWidth 8).setWidth 16 : INT16U) >>> 6 =
      clear := by
  apply BitVec.eq_of_getLsbD_eq
  intro i inside
  interval_cases i <;> simp

/-- The three groups `SEL` is cut into. -/
theorem recover_sel (clear sel out : INT16U) :
    ((((((clear &&& 0x3) <<< 6 ||| (sel &&& 0xF800) >>> 10).setWidth 8 : INT8U).setWidth 16 : INT16U)
          &&& 0x3E) <<< 10 |||
        (((sel &&& 0x07F0) >>> 3).setWidth 8).setWidth 16 <<< 3 |||
        ((((sel &&& 0x0F) <<< 4 ||| (out &&& 0xE0) >>> 4).setWidth 8).setWidth 16 : INT16U) >>> 4) =
      sel := by
  apply BitVec.eq_of_getLsbD_eq
  intro i inside
  interval_cases i <;> simp

/-- The two groups `outPut` is cut into. -/
theorem recover_outPut (sel : INT16U) (out : INT8U) :
    ((((sel &&& 0x0F) <<< 4 ||| (out.setWidth 16 &&& 0xE0) >>> 4).setWidth 8 : INT8U) &&& 0x0E) <<< 4 |||
        (((out.setWidth 16 &&& 0x1F) <<< 3).setWidth 8 : INT8U) >>> 3 =
      out := by
  apply BitVec.eq_of_getLsbD_eq
  intro i inside
  interval_cases i <;> simp

theorem recover_payload (command : SendStruct) : recover (payload command) = some command := by
  obtain ⟨clear, sel, out⟩ := command
  have decoded : recover (payload ⟨clear, sel, out⟩) = some ⟨_, _, _⟩ := rfl
  rw [decoded, recover_clear, recover_sel, recover_outPut]

/-- Neither marker has bit 0 clear. -/
theorem payload_ne_marker (command : SendStruct) (byte : INT8U) (member : byte ∈ payload command) :
    byte ≠ 0x5B ∧ byte ≠ 0xB5 := by
  have low := payload_low command byte member
  constructor <;> rintro rfl <;> exact absurd low (by decide)

/-! ### The transmission -/

/-- `count` of the seven interrupts after the call at `start` have been served. -/
structure Sending (start : Uart1Tx) (command : SendStruct) (count : Nat) (s : Uart1Tx) : Prop where
  pending : count < 7
  frame : s.dataToSend = commandBytes command
  busy : s.uart1SendOK = 0
  index : s.uart1SendIndex.toNat = count
  enabled : s.threEnabled = true
  line : s.line = start.line ++ (commandBytes command).toList.take (count + 1)

/-- All eight bytes are out and the driver is ready for the next command. -/
structure Sent (start : Uart1Tx) (command : SendStruct) (s : Uart1Tx) : Prop where
  frame : s.dataToSend = commandBytes command
  ready : s.uart1SendOK = 1
  index : s.uart1SendIndex = 0
  disabled : s.threEnabled = false
  line : s.line = start.line ++ (commandBytes command).toList

theorem sending_call (s : Uart1Tx) (command : SendStruct) (free : s.uart1SendOK ≠ 0)
    (fresh : s.uart1SendIndex = 0) : Sending s command 0 (uart1SendStruct s command) := by
  simp only [uart1SendStruct, free, if_false]
  exact
    { pending := by decide
      frame := rfl
      busy := rfl
      index := by rw [fresh]; rfl
      enabled := rfl
      line := rfl }

/-- The index after one more interrupt, and the byte it selects. -/
theorem sending_next {start s : Uart1Tx} {command : SendStruct} {count : Nat}
    (sending : Sending start command count s) :
    (s.uart1SendIndex + 1).toNat = count + 1 ∧
      s.line ++ [s.dataToSend.toList.getD (s.uart1SendIndex + 1).toNat 0] =
        start.line ++ (commandBytes command).toList.take (count + 2) := by
  have pending := sending.pending
  have index : (s.uart1SendIndex + 1).toNat = count + 1 := by
    have small : count + 1 < 2 ^ 16 := by omega
    rw [BitVec.toNat_add, sending.index]
    exact Nat.mod_eq_of_lt small
  have inside : count + 1 < (commandBytes command).toList.length := by
    rw [Vector.length_toList]
    omega
  refine ⟨index, ?_⟩
  rw [sending.line, sending.frame, index, List.append_assoc,
    List.getD_eq_getElem?_getD, List.getElem?_eq_getElem inside, Option.getD_some,
    List.take_append_getElem inside]

theorem sending_thre {start s : Uart1Tx} {command : SendStruct} {count : Nat}
    (sending : Sending start command count s) (more : count < 6) :
    Sending start command (count + 1) (uart1IRQHandlerSend s) := by
  obtain ⟨index, line⟩ := sending_next sending
  have inside : ¬ 7 ≤ (s.uart1SendIndex + 1).toNat := by omega
  simp only [uart1IRQHandlerSend, inside, if_false]
  exact
    { pending := by omega
      frame := sending.frame
      busy := sending.busy
      index := index
      enabled := sending.enabled
      line := line }

theorem sent_thre {start s : Uart1Tx} {command : SendStruct}
    (sending : Sending start command 6 s) : Sent start command (uart1IRQHandlerSend s) := by
  obtain ⟨index, line⟩ := sending_next sending
  have last : 7 ≤ (s.uart1SendIndex + 1).toNat := by omega
  simp only [uart1IRQHandlerSend, last, if_true]
  exact
    { frame := sending.frame
      ready := rfl
      index := rfl
      disabled := rfl
      line := line }

/-- Whatever else happens in between, the frame advances with the THRE interrupts. -/
theorem sending_run {start : Uart1Tx} {command : SendStruct} (events : List Uart1Event) :
    ∀ {s : Uart1} {count : Nat}, Sending start command count s.tx →
      count + events.countP Uart1Event.isThre < 7 →
      Sending start command (count + events.countP Uart1Event.isThre) (uart1Run s events).tx := by
  induction events with
  | nil => exact fun sending _ => sending
  | cons event rest ih =>
    intro s count sending bound
    cases thre : event.isThre with
    | true =>
      rw [List.countP_cons_of_pos thre] at bound ⊢
      have next := sending_thre sending (by omega)
      rw [← tx_step_thre s event thre] at next
      have tail := ih next (by omega)
      rwa [Nat.add_assoc, Nat.add_comm 1] at tail
    | false =>
      have other : ¬ event.isThre = true := by simp [thre]
      rw [List.countP_cons_of_neg other] at bound ⊢
      rw [← tx_step_other s event thre sending.busy] at sending
      exact ih sending bound

/-- A command given to a free driver goes out as the bytes 5B, six payload bytes, B5.
As long as fewer than seven THRE interrupts have come, whatever else the driver was
asked to do, the bytes on the line are the first of these and a further call changes
nothing; the seventh interrupt completes the frame and frees the driver. -/
theorem command_onLine (s : Uart1) (command : SendStruct) (free : s.tx.uart1SendOK = 1)
    (fresh : s.tx.uart1SendIndex = 0) (between : List Uart1Event)
    (early : between.countP Uart1Event.isThre < 7) :
    let before := uart1Run ((Uart1Event.sendStruct command).step s) between
    (before.tx.dataToSend = commandBytes command ∧
      before.tx.line =
        s.tx.line ++
          (0x5B :: payload command ++ [0xB5]).take (between.countP Uart1Event.isThre + 1) ∧
      ∀ other, uart1SendStruct before.tx other = before.tx) ∧
    (between.countP Uart1Event.isThre = 6 → ∀ seventh : Uart1Event, seventh.isThre = true →
      (seventh.step before).tx.line = s.tx.line ++ (0x5B :: payload command ++ [0xB5]) ∧
      (seventh.step before).tx.uart1SendOK = 1 ∧ (seventh.step before).tx.uart1SendIndex = 0 ∧
      (seventh.step before).tx.threEnabled = false) ∧
    ((payload command).length = 6 ∧
      (∀ byte ∈ payload command, byte.getLsbD 0 = false ∧ byte ≠ 0x5B ∧ byte ≠ 0xB5) ∧
      recover (payload command) = some command) := by
  intro before
  have occupied : s.tx.uart1SendOK ≠ 0 := by rw [free]; decide
  have called := sending_call s.tx command occupied fresh
  have sending : Sending s.tx command (between.countP Uart1Event.isThre) before.tx := by
    have bound : 0 + between.countP Uart1Event.isThre < 7 := by omega
    have run := sending_run between (s := (Uart1Event.sendStruct command).step s) called bound
    rwa [Nat.zero_add] at run
  refine ⟨⟨sending.frame, sending.line, fun other => ?_⟩, fun six seventh thre => ?_, rfl,
    fun byte member => ⟨payload_low command byte member, payload_ne_marker command byte member⟩,
    recover_payload command⟩
  · simp only [uart1SendStruct, sending.busy, if_true]
  · rw [six] at sending
    have sent := sent_thre sending
    rw [tx_step_thre before seventh thre]
    exact ⟨sent.line, sent.ready, sent.index, sent.disabled⟩

/-- A command with all bits set, given to a driver that was just initialized; a second
command comes while the frame is under way. -/
theorem command_onLine_allBits :
    let idle : Uart1 :=
      { rx := lpcUartInit ⟨Vector.replicate 134 0, 0, 0, 0, 0⟩
        tx := lpcUartInitSend ⟨Vector.replicate 8 0, 0, 0, false, []⟩ }
    let thre : Uart1Event := .interrupt 2 0
    let between := [thre, thre, .sendStruct ⟨0, 0, 0⟩, thre, thre, thre, thre]
    (thre.step (uart1Run ((Uart1Event.sendStruct ⟨0xFFFF, 0xFFFF, 0xFF⟩).step idle) between)).tx.line =
      [0x5B, 0xFE, 0xFE, 0xFE, 0xFE, 0xFE, 0xF8, 0xB5] := by
  intro idle thre between
  obtain ⟨-, complete, -⟩ :=
    command_onLine idle ⟨0xFFFF, 0xFFFF, 0xFF⟩ (by decide) (by decide) between (by decide)
  exact (complete (by decide) thre (by decide)).1

end GasSub.Guarantees.CommandFrame
