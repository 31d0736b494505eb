import GasSub.Source.Uart1Send

/-!
# The indices of UART1

Five globals of `com_uart.c` decide where `UART1_IRQHandler` stores and reads: two
phases and an index on the receiving side, an index on the sending side. They are
shared by both branches of the handler and the two task functions.
-/
namespace GasSub.Guarantees.Uart1Bounds
open GasSub.Source

/-- An access of the handler to one of its two buffers. -/
inductive Access where
  | storeToRcv (index : Nat)
  | readToSend (index : Nat)
  deriving DecidableEq, Repr

def Access.Inside : Access → Prop
  | .storeToRcv index => index < 134
  | .readToSend index => index ≤ 7

/-- The accesses of an event that are made through a running index. -/
def accesses (s : Uart1) : Uart1Event → List Access
  | .interrupt intsrc _ =>
    let source := intsrc &&& 0x0f
    if source = uartIirIntidRls then []
    else if source = uartIirIntidRda ∨ source = uartIirIntidCti then
      if s.rx.readyToRcv = 1 then [.storeToRcv s.rx.uart1RcvIndex.toNat] else []
    else if source = uartIirIntidThre then [.readToSend (s.tx.uart1SendIndex + 1).toNat]
    else []
  | .getStruct => []
  | .sendStruct _ => []

/-- `LPC_Uart_Init` for UART1. -/
def uart1Init (s : Uart1) : Uart1 := { rx := lpcUartInit s.rx, tx := lpcUartInitSend s.tx }

/-- The joint invariant of the globals. -/
structure Indexed (s : Uart1) : Prop where
  phase : s.rx.readyToRcv = 0 ∨ s.rx.readyToRcv = 1
  capturing : s.rx.readyToRcv = 1 → s.rx.uart1RcvStart = 0
  idle : s.rx.readyToRcv = 0 → s.rx.uart1RcvIndex = 0
  room : s.rx.readyToRcv = 1 → s.rx.uart1RcvIndex.toNat < 134
  sending : s.tx.uart1SendIndex.toNat ≤ 6

theorem indexed_init (s : Uart1) : Indexed (uart1Init s) where
  phase := Or.inl rfl
  capturing running := absurd running (by decide : (0 : INT8U) ≠ 1)
  idle _ := rfl
  room running := absurd running (by decide : (0 : INT8U) ≠ 1)
  sending := Nat.zero_le 6

/-- A byte that is captured, to the end of the block or not. -/
theorem indexed_capture {s : Uart1} (byte : INT8U) (indexed : Indexed s)
    (running : s.rx.readyToRcv = 1) : Indexed { s with rx := uart1Capture s.rx byte } := by
  have inside := indexed.room running
  by_cases room : s.rx.uart1RcvIndex.toNat < 133
  · rw [uart1Capture_inside s.rx byte room]
    refine ⟨indexed.phase, indexed.capturing, fun idle => ?_, fun _ => ?_, indexed.sending⟩
    · have both : (1 : INT8U) = 0 := running.symm.trans idle
      exact absurd both (by decide)
    · have next := toNat_succ inside
      simp only [next]
      omega
  · rw [uart1Capture_last s.rx byte (by omega)]
    exact ⟨Or.inl rfl, fun running => absurd running (by decide : (0 : INT8U) ≠ 1), fun _ => rfl,
      fun running => absurd running (by decide : (0 : INT8U) ≠ 1), indexed.sending⟩

/-- A byte outside a capture, which starts one or not. -/
theorem indexed_hunt {s : Uart1} (byte : INT8U) (indexed : Indexed s)
    (waiting : s.rx.readyToRcv ≠ 1) : Indexed { s with rx := uart1Hunt s.rx byte } := by
  unfold uart1Hunt
  split_ifs
  · exact ⟨indexed.phase, fun running => absurd running waiting, indexed.idle, indexed.room,
      indexed.sending⟩
  · exact ⟨Or.inr rfl, fun _ => rfl, fun idle => absurd idle (by decide : (1 : INT8U) ≠ 0),
      fun _ => (by decide : (0 : INT16U).toNat < 134), indexed.sending⟩
  · exact indexed
  · exact indexed

theorem indexed_receive {s : Uart1} (byte : INT8U) (indexed : Indexed s) :
    Indexed { s with rx := uart1IRQHandlerReceive s.rx byte } := by
  unfold uart1IRQHandlerReceive
  split
  · case isTrue running => exact indexed_capture byte indexed running
  · case isFalse waiting => exact indexed_hunt byte indexed waiting

/-- The next byte goes out, and behind the last one the index starts again. -/
theorem indexed_send {s : Uart1} (indexed : Indexed s) :
    Indexed { s with tx := uart1IRQHandlerSend s.tx } := by
  refine ⟨indexed.phase, indexed.capturing, indexed.idle, indexed.room, ?_⟩
  simp only [uart1IRQHandlerSend]
  split
  · exact Nat.zero_le 6
  · case isFalse more => exact Nat.le_of_lt_succ (Nat.lt_of_not_le more)

theorem indexed_step {s : Uart1} (event : Uart1Event) (indexed : Indexed s) :
    Indexed (event.step s) := by
  cases event with
  | interrupt intsrc received =>
    simp only [Uart1Event.step, uart1IRQHandler]
    split_ifs
    · exact indexed
    · exact indexed_receive received indexed
    · exact indexed_send indexed
    · exact indexed
  | getStruct =>
    have kept : (uart1GetStruct s.rx).2.readyToRcv = s.rx.readyToRcv ∧
        (uart1GetStruct s.rx).2.uart1RcvStart = s.rx.uart1RcvStart ∧
        (uart1GetStruct s.rx).2.uart1RcvIndex = s.rx.uart1RcvIndex := by
      unfold uart1GetStruct
      split <;> exact ⟨rfl, rfl, rfl⟩
    obtain ⟨ready, start, index⟩ := kept
    refine ⟨?_, ?_, ?_, ?_, indexed.sending⟩
    · simpa [Uart1Event.step, ready] using indexed.phase
    · simpa [Uart1Event.step, ready, start] using indexed.capturing
    · simpa [Uart1Event.step, ready, index] using indexed.idle
    · simpa [Uart1Event.step, ready, index] using indexed.room
  | sendStruct command =>
    refine ⟨indexed.phase, indexed.capturing, indexed.idle, indexed.room, ?_⟩
    have kept : (uart1SendStruct s.tx command).uart1SendIndex = s.tx.uart1SendIndex := by
      unfold uart1SendStruct
      split <;> rfl
    simpa [Uart1Event.step, kept] using indexed.sending

theorem indexed_run (events : List Uart1Event) {s : Uart1} (indexed : Indexed s) :
    Indexed (uart1Run s events) := by
  induction events generalizing s with
  | nil => exact indexed
  | cons event rest ih => exact ih (indexed_step event indexed)

/-- What is accessed under the invariant lies in its buffer. -/
theorem accesses_inside {s : Uart1} (indexed : Indexed s) (event : Uart1Event) :
    ∀ access ∈ accesses s event, access.Inside := by
  cases event with
  | interrupt intsrc received =>
    intro access member
    simp only [accesses] at member
    split_ifs at member with _ _ running
    · cases member
    · obtain rfl := List.mem_singleton.mp member
      exact indexed.room running
    · cases member
    · obtain rfl := List.mem_singleton.mp member
      have last := indexed.sending
      have next : (s.tx.uart1SendIndex + 1).toNat = s.tx.uart1SendIndex.toNat + 1 :=
        toNat_succ (by omega)
      simp only [Access.Inside, next]
      omega
    · cases member
  | getStruct => intro access member; cases member
  | sendStruct => intro access member; cases member

theorem receive_kept (rx : Uart1Rx) (byte : INT8U) (k : Nat) (inside : k < 134)
    (other : rx.readyToRcv = 1 → rx.uart1RcvIndex.toNat ≠ k) :
    (uart1IRQHandlerReceive rx byte).dataToRcv[k] = rx.dataToRcv[k] := by
  unfold uart1IRQHandlerReceive
  split
  · case isTrue running =>
    simp only [uart1Capture]
    split_ifs <;> exact Vector.getElem_setIfInBounds_ne inside (other running)
  · unfold uart1Hunt
    split_ifs <;> rfl

/-- No event changes a byte of `dataToRcv` that is not among its stores. -/
theorem dataToRcv_kept (s : Uart1) (event : Uart1Event) (k : Nat) (inside : k < 134)
    (untouched : Access.storeToRcv k ∉ accesses s event) :
    (event.step s).rx.dataToRcv[k] = s.rx.dataToRcv[k] := by
  cases event with
  | interrupt intsrc received =>
    simp only [accesses] at untouched
    simp only [Uart1Event.step, uart1IRQHandler]
    split at untouched
    · case isTrue line => simp only [if_pos line]
    · case isFalse noLine =>
      simp only [if_neg noLine]
      split at untouched
      · case isTrue data =>
        simp only [if_pos data]
        refine receive_kept s.rx received k inside fun running same => untouched ?_
        rw [if_pos running, same]
        exact List.mem_cons_self
      · case isFalse noData =>
        simp only [if_neg noData]
        split <;> rfl
  | getStruct =>
    simp only [Uart1Event.step, uart1GetStruct]
    split <;> rfl
  | sendStruct => rfl

/-- The byte that goes out is the one at the index of the read. -/
theorem dataToSend_read (s : Uart1) (event : Uart1Event) (k : Nat) (inside : k < 8)
    (read : Access.readToSend k ∈ accesses s event) :
    (event.step s).tx.line = s.tx.line ++ [s.tx.dataToSend[k]] := by
  cases event with
  | interrupt intsrc received =>
    simp only [accesses] at read
    simp only [Uart1Event.step, uart1IRQHandler]
    split_ifs at read with line data running thre
    · cases read
    · cases List.mem_singleton.mp read
    · cases read
    · obtain rfl := Access.readToSend.inj (List.mem_singleton.mp read)
      have byte : s.tx.dataToSend.toList.getD (s.tx.uart1SendIndex + 1).toNat 0 =
          s.tx.dataToSend[(s.tx.uart1SendIndex + 1).toNat] := by
        rw [List.getD, List.getElem?_eq_getElem (by rwa [Vector.length_toList]), Option.getD_some,
          Vector.getElem_toList]
      rw [if_neg line, if_neg data, if_pos thre, uart1IRQHandlerSend, byte]
      dsimp only
      split <;> rfl
    · cases read
  | getStruct => cases read
  | sendStruct => cases read

/-- An interrupt that reads nothing puts nothing on the line. -/
theorem line_kept (s : Uart1) (intsrc : INT32U) (received : INT8U)
    (unread : ∀ k, Access.readToSend k ∉ accesses s (.interrupt intsrc received)) :
    ((Uart1Event.interrupt intsrc received).step s).tx.line = s.tx.line := by
  simp only [Uart1Event.step, uart1IRQHandler]
  split_ifs with line data thre
  · rfl
  · rfl
  · refine absurd ?_ (unread (s.tx.uart1SendIndex + 1).toNat)
    simp only [accesses, if_neg line, if_neg data, if_pos thre]
    exact List.mem_cons_self
  · rfl

/-- From `LPC_Uart_Init` on, whatever happens to the driver, every store and every read
through its indices is inside, a capture has no header begun, and outside a capture
the index is zero. -/
theorem indices_inside (s : Uart1) (events : List Uart1Event) :
    let reached := uart1Run (uart1Init s) events
    (reached.rx.readyToRcv = 1 → reached.rx.uart1RcvStart = 0) ∧
      (reached.rx.readyToRcv = 0 → reached.rx.uart1RcvIndex = 0) ∧
      ∀ event, ∀ access ∈ accesses reached event, access.Inside := by
  have indexed := indexed_run events (indexed_init s)
  exact ⟨indexed.capturing, indexed.idle, accesses_inside indexed⟩

end GasSub.Guarantees.Uart1Bounds
