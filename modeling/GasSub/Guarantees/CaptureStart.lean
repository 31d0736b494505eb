import GasSub.Guarantees.Resynchronisation
import GasSub.Library.Run

/-!
# What starts a UART1 capture

The receiver remembers a 5A until an A5 comes; other bytes in between do not make
it forget. Beside the driver the bytes received since the last capture are kept,
so that a header, 5A and A5 next to each other, can be told from what the
receiver takes for one.
-/
namespace GasSub.Guarantees.CaptureStart
open GasSub.Source
open GasSub.Library.Run
open GasSub.Guarantees.Resynchronisation

/-- The driver, and the bytes received outside a capture since the last one. -/
structure Listening where
  driver : Uart1
  stretch : List INT8U
  deriving DecidableEq, Repr

/-- The byte that an event delivers to the receiver. -/
def receivedByte : Uart1Event → Option INT8U
  | .interrupt intsrc received =>
    let source := intsrc &&& 0x0f
    if source = uartIirIntidRda ∨ source = uartIirIntidCti then some received else none
  | _ => none

def listen (s : Listening) (event : Uart1Event) : Option Listening :=
  some
    { driver := event.step s.driver
      stretch :=
        match receivedByte event with
        | none => s.stretch
        | some byte => if s.driver.rx.readyToRcv = 1 then [] else s.stretch ++ [byte] }

/-- `LPC_Uart_Init`. -/
def listenStart (before : Uart1) : Listening :=
  ⟨⟨lpcUartInit before.rx, lpcUartInitSend before.tx⟩, []⟩

/-- The event makes `readyToRcv` 1. -/
def StartsCapture (s : Listening) (event : Uart1Event) : Prop :=
  s.driver.rx.readyToRcv ≠ 1 ∧ (event.step s.driver).rx.readyToRcv = 1

/-- Outside a capture the event delivers an A5, and the byte before it, also outside a
capture, was a 5A. -/
def CompletesHeader (s : Listening) (event : Uart1Event) : Prop :=
  s.driver.rx.readyToRcv ≠ 1 ∧ receivedByte event = some 0xA5 ∧ s.stretch.getLast? = some 0x5A

/-- An A5 outside a capture comes right behind a 5A, or no 5A came since the last capture. -/
def NoStrayA5 (s : Listening) (event : Uart1Event) : Prop :=
  s.driver.rx.readyToRcv ≠ 1 → receivedByte event = some 0xA5 → 0x5A ∈ s.stretch →
    s.stretch.getLast? = some 0x5A

/-! ### One event -/

theorem step_received {s : Uart1} {event : Uart1Event} {byte : INT8U}
    (received : receivedByte event = some byte) :
    (event.step s).rx = uart1IRQHandlerReceive s.rx byte := by
  cases event with
  | interrupt intsrc delivered =>
    simp only [receivedByte] at received
    split at received
    next source =>
      obtain rfl := Option.some.inj received
      have notLine : ¬ intsrc &&& 0x0f = uartIirIntidRls := by
        intro line
        rw [line] at source
        revert source
        decide
      simp only [Uart1Event.step, uart1IRQHandler]
      rw [if_neg notLine, if_pos source]
    next => cases received
  | getStruct => cases received
  | sendStruct => cases received

theorem phase_step_quiet {s : Uart1} {event : Uart1Event} (quiet : receivedByte event = none) :
    (event.step s).rx.readyToRcv = s.rx.readyToRcv ∧
      (event.step s).rx.uart1RcvStart = s.rx.uart1RcvStart ∧
      (event.step s).rx.uart1RcvIndex = s.rx.uart1RcvIndex := by
  cases event with
  | interrupt intsrc delivered =>
    simp only [receivedByte] at quiet
    split at quiet
    next => cases quiet
    next other =>
      simp only [Uart1Event.step, uart1IRQHandler]
      rw [if_neg other]
      split
      · exact ⟨rfl, rfl, rfl⟩
      · split <;> exact ⟨rfl, rfl, rfl⟩
  | getStruct =>
    simp only [Uart1Event.step, uart1GetStruct]
    split <;> exact ⟨rfl, rfl, rfl⟩
  | sendStruct => exact ⟨rfl, rfl, rfl⟩

/-- Outside a capture the receiver has seen a 5A exactly when one is in the stretch. -/
def Tracks (s : Listening) : Prop :=
  Hunting (s.stretch.contains 0x5A) s.driver.rx ∨ ∃ count, Capturing count s.driver.rx

theorem contains_append_singleton_5A (stretch : List INT8U) (byte : INT8U) :
    (stretch ++ [byte]).contains 0x5A = (stretch.contains 0x5A || byte == 0x5A) := by
  rw [List.contains_append, List.contains_cons, List.contains_nil, Bool.or_false, BEq.comm]

theorem tracks_listen (s : Listening) (event : Uart1Event) (t : Listening) (tracks : Tracks s)
    (taken : listen s event = some t) : Tracks t := by
  obtain rfl := Option.some.inj taken
  cases received : receivedByte event with
  | none =>
    obtain ⟨ready, start, index⟩ := phase_step_quiet (s := s.driver) received
    simp only [Tracks]
    cases tracks with
    | inl hunting =>
      exact Or.inl ⟨ready.trans hunting.ready, index.trans hunting.index, start.trans hunting.start⟩
    | inr running =>
      obtain ⟨count, capturing⟩ := running
      refine Or.inr ⟨count, ready.trans capturing.ready, start.trans capturing.start, ?_,
        capturing.room⟩
      rw [index]
      exact capturing.index
  | some byte =>
    simp only [Tracks, step_received received]
    cases tracks with
    | inl hunting =>
      have outside : ¬ s.driver.rx.readyToRcv = 1 := by rw [hunting.ready]; decide
      have next := hunting_step hunting byte
      rw [if_neg outside, contains_append_singleton_5A]
      split at next
      · exact Or.inr ⟨0, next⟩
      · exact Or.inl next
    | inr running =>
      obtain ⟨count, capturing⟩ := running
      have next := capturing_step capturing byte
      rw [if_pos capturing.ready]
      split at next
      · exact Or.inr ⟨_, next⟩
      · exact Or.inl next

/-- A search ends with this byte exactly when it is an A5 and a 5A came before. -/
theorem ready_of_hunting {started : Bool} {s : Uart1Rx} (hunting : Hunting started s)
    (byte : INT8U) : (uart1IRQHandlerReceive s byte).readyToRcv = 1 ↔ started = true ∧ byte = 0xA5 := by
  have next := hunting_step hunting byte
  split at next
  next ends => exact iff_of_true next.ready ends
  next goesOn => exact iff_of_false (by rw [next.ready]; decide) goesOn

/-- A capture starts with a header and only then, in a step without a stray A5. -/
theorem startsCapture_iff_completesHeader_iff (s : Listening) (event : Uart1Event)
    (tracks : Tracks s) :
    (StartsCapture s event ↔ CompletesHeader s event) ↔ NoStrayA5 s event := by
  cases received : receivedByte event with
  | none =>
    have ready := (phase_step_quiet (s := s.driver) received).1
    have noHeader : ¬ CompletesHeader s event := fun completes => by
      have delivered := completes.2.1
      rw [received] at delivered
      cases delivered
    have noStart : ¬ StartsCapture s event := fun starts => starts.1 (ready.symm.trans starts.2)
    refine iff_of_true (iff_of_false noStart noHeader) fun _ delivered => ?_
    rw [received] at delivered
    cases delivered
  | some byte =>
    cases tracks with
    | inr running =>
      obtain ⟨count, capturing⟩ := running
      have inside := capturing.ready
      exact iff_of_true
        (iff_of_false (fun starts => starts.1 inside) fun completes => completes.1 inside)
        fun outside => absurd inside outside
    | inl hunting =>
      have outside : s.driver.rx.readyToRcv ≠ 1 := by rw [hunting.ready]; decide
      have starts : StartsCapture s event ↔ 0x5A ∈ s.stretch ∧ byte = 0xA5 := by
        rw [StartsCapture, step_received received, ready_of_hunting hunting, List.contains_iff_mem]
        exact and_iff_right outside
      have completes : CompletesHeader s event ↔
          byte = 0xA5 ∧ s.stretch.getLast? = some 0x5A := by
        rw [CompletesHeader, received, Option.some.injEq]
        exact and_iff_right outside
      have earlier : s.stretch.getLast? = some 0x5A → 0x5A ∈ s.stretch := List.mem_of_getLast?
      rw [starts, completes, NoStrayA5, received, Option.some.injEq]
      constructor
      · intro exactly _ isA5 seen
        exact (exactly.mp ⟨seen, isA5⟩).2
      · intro noStray
        constructor
        · rintro ⟨seen, isA5⟩
          exact ⟨isA5, noStray outside isA5 seen⟩
        · rintro ⟨isA5, last⟩
          exact ⟨earlier last, isA5⟩

/-- In a run of the driver from initialization on, captures start exactly with headers if
and only if no stray A5 is received. -/
theorem captures_start_with_headers_iff (before : Uart1) (events : List Uart1Event) :
    EachStep listen (fun s event => StartsCapture s event ↔ CompletesHeader s event)
        (listenStart before) events ↔
      EachStep listen NoStrayA5 (listenStart before) events :=
  eachStep_congr (I := Tracks) tracks_listen startsCapture_iff_completesHeader_iff
    (Or.inl ⟨rfl, rfl, rfl⟩)

/-- The zeroed globals of the driver. -/
def zeroed : Uart1 :=
  ⟨⟨Vector.replicate 134 0, 0, 0, 0, 0⟩, ⟨Vector.replicate 8 0, 0, 0, false, []⟩⟩

/-- 5A, another byte and A5 start a capture. -/
theorem captures_start_without_header :
    ¬ EachStep listen (fun s event => StartsCapture s event ↔ CompletesHeader s event)
      (listenStart zeroed) [.interrupt 4 0x5A, .interrupt 4 0x00, .interrupt 4 0xA5] := by
  intro exactly
  have third := (exactly.2 _ rfl).2 _ rfl
  have started := third.1.mp ⟨by decide, by decide⟩
  exact absurd started.2.2 (by decide)

end GasSub.Guarantees.CaptureStart
