import GasSub.Source.Uart1Send

/-!
# Resynchronisation of the UART1 receiver

A frame is 136 bytes long and a capture takes 134, with no escaping of the payload
and no time-out. A receiver that is outside a capture takes the next frame. One that
starts in the middle of a capture loses the frame it ends in; whether it is in step
again after that frame depends on what the payload offers to its search for a header:
a 5A and, somewhere behind it, an A5.
-/
namespace GasSub.Guarantees.Resynchronisation
open GasSub.Source

/-- The receiver states of a run of the driver from `LPC_Uart_Init` on. -/
def Reachable (s : Uart1Rx) : Prop :=
  ∃ (before : Uart1) (events : List Uart1Event),
    (uart1Run ⟨lpcUartInit before.rx, lpcUartInitSend before.tx⟩ events).rx = s

/-- The bytes of a frame on the line. -/
def frameBytes (block : Vector INT8U 134) : List INT8U := 0x5A :: 0xA5 :: block.toList

/-- The frame that follows the bytes `before` is accepted: its last byte completes a
capture, and the block captured is its own. -/
structure Accepted (s : Uart1Rx) (before : List INT8U) (block : Vector INT8U 134) : Prop where
  underWay : (deliver s (before ++ (frameBytes block).dropLast)).readyToRcv = 1
  completed : (deliver s (before ++ frameBytes block)).readyToRcv = 0
  flag : (deliver s (before ++ frameBytes block)).uart1RcvOK = 1
  content : (deliver s (before ++ frameBytes block)).dataToRcv = block

/-! ### The two phases -/

/-- Outside a capture; `started` tells whether a 5A was seen. -/
structure Hunting (started : Bool) (s : Uart1Rx) : Prop where
  ready : s.readyToRcv = 0
  index : s.uart1RcvIndex = 0
  start : s.uart1RcvStart = if started then 1 else 0

/-- Inside a capture, with `count` bytes of the block stored. -/
structure Capturing (count : Nat) (s : Uart1Rx) : Prop where
  ready : s.readyToRcv = 1
  start : s.uart1RcvStart = 0
  index : s.uart1RcvIndex.toNat = count
  room : count < 134

/-- A search goes on until an A5 comes behind a 5A; the 5A need not stand right before it. -/
theorem hunting_step {started : Bool} {s : Uart1Rx} (hunting : Hunting started s) (byte : INT8U) :
    if started = true ∧ byte = 0xA5 then Capturing 0 (uart1IRQHandlerReceive s byte)
    else Hunting (started || byte == 0x5A) (uart1IRQHandlerReceive s byte) := by
  obtain ⟨ready, index, start⟩ := hunting
  have notCapturing : ¬ s.readyToRcv = 1 := by rw [ready]; decide
  rw [uart1IRQHandlerReceive, if_neg notCapturing, uart1Hunt]
  cases started with
  | false =>
    have zero : s.uart1RcvStart = 0 := start
    have notOne : ¬ s.uart1RcvStart = 1 := by rw [zero]; decide
    rw [if_neg fun both : false = true ∧ byte = 0xA5 => Bool.noConfusion both.1]
    by_cases header : byte = 0x5A
    · rw [if_pos ⟨header, zero⟩, header]
      exact ⟨ready, index, rfl⟩
    · have other : (byte == 0x5A) = false := beq_false_of_ne header
      rw [if_neg fun both => header both.1, if_neg notOne, other]
      exact ⟨ready, index, zero⟩
  | true =>
    have one : s.uart1RcvStart = 1 := start
    have notZero : ¬ (byte = 0x5A ∧ s.uart1RcvStart = 0) := by
      rw [one]
      exact fun both => absurd both.2 (by decide)
    by_cases header : byte = 0xA5
    · rw [if_pos ⟨rfl, header⟩, if_neg notZero, if_pos one, if_pos header]
      exact ⟨rfl, rfl, rfl, by decide⟩
    · rw [if_neg fun both => header both.2, if_neg notZero, if_pos one, if_neg header]
      exact ⟨ready, index, one⟩

/-- The phase after one more byte of a capture. -/
theorem capturing_step {count : Nat} {s : Uart1Rx} (capturing : Capturing count s) (byte : INT8U) :
    if count < 133 then Capturing (count + 1) (uart1IRQHandlerReceive s byte)
    else Hunting false (uart1IRQHandlerReceive s byte) := by
  have index := capturing.index
  have room := capturing.room
  have next := toNat_succ (n := s.uart1RcvIndex) (by omega)
  rw [uart1IRQHandlerReceive, if_pos capturing.ready]
  split
  · rw [uart1Capture_inside s byte (by omega)]
    exact ⟨capturing.ready, capturing.start, by simp only [next, index], by omega⟩
  · rw [uart1Capture_last s byte (by omega)]
    exact ⟨rfl, rfl, capturing.start⟩

theorem deliver_append (s : Uart1Rx) (first second : List INT8U) :
    deliver s (first ++ second) = deliver (deliver s first) second := List.foldl_append

/-- A capture takes what is left of its block. -/
theorem deliver_capturing (bytes : List INT8U) :
    ∀ {s : Uart1Rx} {count : Nat}, Capturing count s →
      (count + bytes.length < 134 → Capturing (count + bytes.length) (deliver s bytes)) ∧
      (count + bytes.length = 134 → Hunting false (deliver s bytes)) := by
  induction bytes with
  | nil =>
    intro s count capturing
    have room := capturing.room
    exact ⟨fun _ => capturing, fun full => by simp only [List.length_nil] at full; omega⟩
  | cons byte rest ih =>
    intro s count capturing
    have step := capturing_step capturing byte
    have room := capturing.room
    rw [List.length_cons, Nat.add_comm rest.length, ← Nat.add_assoc]
    split at step
    · exact ih step
    · refine ⟨fun more => by omega, fun full => ?_⟩
      have last : rest = [] := List.length_eq_zero_iff.mp (by omega)
      subst last
      exact step

/-- The bytes a search takes up to and including the A5 that ends it. -/
def huntLength : Bool → List INT8U → Option Nat
  | _, [] => none
  | started, byte :: rest =>
    if started = true ∧ byte = 0xA5 then some 1
    else (huntLength (started || byte == 0x5A) rest).map (· + 1)

theorem huntLength_bounds {started : Bool} {bytes : List INT8U} {count : Nat}
    (found : huntLength started bytes = some count) :
    count ≤ bytes.length ∧ 0 < count ∧ (started = false → 1 < count) := by
  induction bytes generalizing started count with
  | nil => cases found
  | cons byte rest ih =>
    rw [huntLength] at found
    split at found
    next ends =>
      obtain rfl := Option.some.inj found
      exact ⟨Nat.succ_le_succ (Nat.zero_le _), Nat.one_pos, fun fresh => by simp [fresh] at ends⟩
    next =>
      obtain ⟨later, inside, rfl⟩ := Option.map_eq_some_iff.mp found
      have bounds := ih inside
      rw [List.length_cons]
      exact ⟨by omega, by omega, fun _ => by omega⟩

/-- A header, for the receiver, is a 5A with an A5 anywhere behind it. -/
theorem huntLength_ne_none_iff (bytes : List INT8U) :
    huntLength false bytes ≠ none ↔ [0x5A, 0xA5].Sublist bytes := by
  have started : ∀ bytes, huntLength true bytes ≠ none ↔ 0xA5 ∈ bytes := by
    intro bytes
    induction bytes with
    | nil => simp [huntLength]
    | cons byte rest ih =>
      rw [huntLength]
      by_cases header : byte = 0xA5
      · simp [header]
      · rw [if_neg fun both => header both.2, Bool.true_or, ne_eq, Option.map_eq_none_iff, ← ne_eq, ih,
          List.mem_cons]
        exact ⟨Or.inr, fun found => found.resolve_left (Ne.symm header)⟩
  induction bytes with
  | nil => simp [huntLength]
  | cons byte rest ih =>
    rw [huntLength, if_neg fun both => Bool.noConfusion both.1, Bool.false_or, ne_eq,
      Option.map_eq_none_iff, ← ne_eq]
    by_cases start : byte = 0x5A
    · rw [start, beq_self_eq_true, started, List.cons_sublist_cons, List.singleton_sublist]
    · rw [beq_false_of_ne start, List.sublist_cons_iff]
      refine ih.trans ⟨Or.inl, fun either => ?_⟩
      rcases either with inRest | ⟨tail, same, -⟩
      · exact inRest
      · exact absurd (List.cons.inj same).1.symm start

/-- A search that finds no header goes on. -/
theorem deliver_hunting_none (bytes : List INT8U) :
    ∀ {s : Uart1Rx} {started : Bool}, Hunting started s → huntLength started bytes = none →
      ∃ later, Hunting later (deliver s bytes) := by
  induction bytes with
  | nil => exact fun {_} {started} hunting _ => ⟨started, hunting⟩
  | cons byte rest ih =>
    intro s started hunting none
    have step := hunting_step hunting byte
    rw [huntLength] at none
    split at none
    · cases none
    next goesOn =>
      rw [if_neg goesOn] at step
      exact ih step (Option.map_eq_none_iff.mp none)

/-- A search that finds a header starts a capture there. -/
theorem deliver_hunting_some (bytes : List INT8U) :
    ∀ {s : Uart1Rx} {started : Bool} {count : Nat}, Hunting started s →
      huntLength started bytes = some count → Capturing 0 (deliver s (bytes.take count)) := by
  induction bytes with
  | nil => exact fun _ found => by cases found
  | cons byte rest ih =>
    intro s started count hunting found
    have step := hunting_step hunting byte
    rw [huntLength] at found
    split at found
    next ends =>
      rw [if_pos ends] at step
      obtain rfl := Option.some.inj found
      exact step
    next goesOn =>
      rw [if_neg goesOn] at step
      obtain ⟨later, inside, rfl⟩ := Option.map_eq_some_iff.mp found
      exact ih step inside

/-- A shorter stretch offers no more headers. -/
theorem huntLength_prefix {started : Bool} {first second : List INT8U}
    (silent : huntLength started (first ++ second) = none) : huntLength started first = none := by
  induction first generalizing started with
  | nil => rfl
  | cons byte rest ih =>
    rw [List.cons_append, huntLength] at silent
    rw [huntLength]
    split at silent
    · cases silent
    next goesOn =>
      rw [if_neg goesOn, ih (Option.map_eq_none_iff.mp silent)]
      rfl

/-! ### Reachable states -/

/-- Every state is in one of the two phases. -/
def Phased (s : Uart1Rx) : Prop := (∃ started, Hunting started s) ∨ ∃ count, Capturing count s

theorem phased_init (s : Uart1Rx) : Phased (lpcUartInit s) := Or.inl ⟨false, rfl, rfl, rfl⟩

theorem phased_receive {s : Uart1Rx} (phased : Phased s) (byte : INT8U) :
    Phased (uart1IRQHandlerReceive s byte) := by
  cases phased with
  | inl searching =>
    obtain ⟨started, hunting⟩ := searching
    have step := hunting_step hunting byte
    split at step
    · exact Or.inr ⟨_, step⟩
    · exact Or.inl ⟨_, step⟩
  | inr running =>
    obtain ⟨count, capturing⟩ := running
    have step := capturing_step capturing byte
    split at step
    · exact Or.inr ⟨_, step⟩
    · exact Or.inl ⟨_, step⟩

/-- A fetch only lowers the flag. -/
theorem phased_get {s : Uart1Rx} (phased : Phased s) : Phased (uart1GetStruct s).2 := by
  rw [uart1GetStruct]
  split
  · exact phased
  · cases phased with
    | inl searching =>
      obtain ⟨started, hunting⟩ := searching
      exact Or.inl ⟨started, hunting.ready, hunting.index, hunting.start⟩
    | inr running =>
      obtain ⟨count, capturing⟩ := running
      exact Or.inr ⟨count, capturing.ready, capturing.start, capturing.index, capturing.room⟩

theorem phased_step {s : Uart1} (phased : Phased s.rx) (event : Uart1Event) :
    Phased (event.step s).rx := by
  cases event with
  | interrupt intsrc received =>
    simp only [Uart1Event.step, uart1IRQHandler]
    split
    · exact phased
    · split
      · exact phased_receive phased received
      · split <;> exact phased
  | getStruct => exact phased_get phased
  | sendStruct command => exact phased

theorem phased_of_reachable {s : Uart1Rx} (reachable : Reachable s) : Phased s := by
  obtain ⟨before, events, rfl⟩ := reachable
  have start : Phased (Uart1.mk (lpcUartInit before.rx) (lpcUartInitSend before.tx)).rx :=
    phased_init before.rx
  generalize Uart1.mk (lpcUartInit before.rx) (lpcUartInitSend before.tx) = s at start
  induction events generalizing s with
  | nil => exact start
  | cons event rest ih => exact ih _ (phased_step start event)

/-! ### Frames -/

theorem frameBytes_length (block : Vector INT8U 134) : (frameBytes block).length = 136 := by
  simp [frameBytes]

/-- A receiver that searches when a frame begins accepts it. -/
theorem accepted_of_hunting {s : Uart1Rx} {before : List INT8U} {block : Vector INT8U 134}
    {started : Bool} (hunting : Hunting started (deliver s before)) (wellFormed : WellFormed block) :
    Accepted s before block := by
  have start : (deliver s before).uart1RcvStart = 0 ∨ (deliver s before).uart1RcvStart = 1 := by
    rw [hunting.start]
    cases started
    · exact Or.inl rfl
    · exact Or.inr rfl
  have taken := deliver_frame (deliver s before) block hunting.ready start
  have whole : deliver s (before ++ frameBytes block) =
      { dataToRcv := block
        uart1RcvOK := 1
        uart1RcvStart := 0
        readyToRcv := 0
        uart1RcvIndex := 0 } := by
    rw [deliver_append, frameBytes, taken, if_pos wellFormed]
  refine ⟨?_, by rw [whole], by rw [whole], by rw [whole]⟩
  have nonempty : block.toList ≠ [] :=
    List.ne_nil_of_length_pos (by rw [Vector.length_toList]; decide)
  have front : ([0x5A, 0xA5] ++ block.toList).dropLast = [0x5A, 0xA5] ++ block.toList.dropLast :=
    List.dropLast_append_of_ne_nil nonempty
  have split : frameBytes block = [0x5A, 0xA5] ++ block.toList := rfl
  have header := deliver_header (deliver s before) hunting.ready start
  have capturing : Capturing 0 (deliver (deliver s before) [0x5A, 0xA5]) := by
    rw [header]
    exact ⟨rfl, rfl, rfl, by decide⟩
  have inside := (deliver_capturing block.toList.dropLast capturing).1
    (by simp)
  rw [split, front, deliver_append, deliver_append]
  exact inside.ready

/-- A search that starts inside a frame, at byte `from_`, and finds a header there: the
capture runs into the next frame and leaves a search at a byte of that frame again. -/
theorem capturing_into_next {s : Uart1Rx} {before : List INT8U} {block : Vector INT8U 134}
    {taken count : Nat} (hunting : Hunting false (deliver s (before ++ (frameBytes block).take taken)))
    (found : huntLength false ((frameBytes block).drop taken) = some count) (inside : 0 < taken) :
    Capturing (136 - taken - count) (deliver s (before ++ frameBytes block)) ∧
      ∀ next : Vector INT8U 134, Hunting false
        (deliver s (before ++ frameBytes block ++ (frameBytes next).take (taken + count - 2))) := by
  obtain ⟨bound, -, two⟩ := huntLength_bounds found
  have two := two rfl
  have length := frameBytes_length block
  rw [List.length_drop, length] at bound
  have opened := deliver_hunting_some _ hunting found
  have rest := deliver_capturing (((frameBytes block).drop taken).drop count) opened
  have remaining : (((frameBytes block).drop taken).drop count).length = 136 - taken - count := by
    rw [List.length_drop, List.length_drop, length]
  have whole : deliver s (before ++ frameBytes block) =
      deliver (deliver (deliver s (before ++ (frameBytes block).take taken))
        (((frameBytes block).drop taken).take count)) (((frameBytes block).drop taken).drop count) := by
    rw [← deliver_append, ← deliver_append, List.append_assoc, List.take_append_drop,
      List.take_append_drop]
  have capturing : Capturing (136 - taken - count) (deliver s (before ++ frameBytes block)) := by
    have run := rest.1 (by omega)
    rw [Nat.zero_add, remaining] at run
    rw [whole]
    exact run
  refine ⟨capturing, fun next => ?_⟩
  rw [deliver_append]
  apply (deliver_capturing _ capturing).2
  rw [List.length_take, frameBytes_length]
  omega

/-- What it takes for none of three frames to be accepted: a capture is under way; what
it leaves of the first frame offers a header; and so does what the capture that starts
there leaves of the second. -/
def Misaligned (s : Uart1Rx) (block1 block2 : Vector INT8U 134) : Prop :=
  s.readyToRcv = 1 ∧
    ∃ count, huntLength false ((frameBytes block1).drop (134 - s.uart1RcvIndex.toNat)) = some count ∧
      huntLength false
        ((frameBytes block2).drop (134 - s.uart1RcvIndex.toNat + count - 2)) ≠ none

/-- Of three frames at least one is accepted, from any phase that is not misaligned. -/
theorem accepted_of_aligned {s : Uart1Rx} (phased : Phased s) (block1 block2 block3 : Vector INT8U 134)
    (wellFormed1 : WellFormed block1) (wellFormed2 : WellFormed block2)
    (wellFormed3 : WellFormed block3) (aligned : ¬ Misaligned s block1 block2) :
    Accepted s [] block1 ∨ Accepted s (frameBytes block1) block2 ∨
      Accepted s (frameBytes block1 ++ frameBytes block2) block3 := by
  cases phased with
  | inl searching =>
    obtain ⟨started, hunting⟩ := searching
    exact Or.inl (accepted_of_hunting hunting wellFormed1)
  | inr running =>
    obtain ⟨index, capturing⟩ := running
    right
    have room := capturing.room
    have length := frameBytes_length block1
    -- the capture under way ends inside the first frame
    have ended : Hunting false (deliver s ([] ++ (frameBytes block1).take (134 - index))) := by
      apply (deliver_capturing _ capturing).2
      rw [List.nil_append, List.length_take, length]
      omega
    cases first : huntLength false ((frameBytes block1).drop (134 - index)) with
    | none =>
      obtain ⟨later, hunting⟩ := deliver_hunting_none _ ended first
      rw [← deliver_append, List.nil_append, List.take_append_drop] at hunting
      exact Or.inl (accepted_of_hunting hunting wellFormed2)
    | some count =>
      right
      obtain ⟨-, reached⟩ := capturing_into_next ended first (by omega)
      have again := reached block2
      have second : huntLength false ((frameBytes block2).drop (134 - index + count - 2)) = none := by
        by_contra offered
        apply aligned
        rw [Misaligned, capturing.index]
        exact ⟨capturing.ready, count, first, offered⟩
      obtain ⟨later, hunting⟩ := deliver_hunting_none _ again second
      rw [← deliver_append, List.append_assoc, List.take_append_drop, List.nil_append] at hunting
      exact accepted_of_hunting hunting wellFormed3

theorem ready_of_capturing {count : Nat} {s : Uart1Rx} (capturing : Capturing count s) :
    s.readyToRcv ≠ 0 := by
  rw [capturing.ready]
  decide

/-- The frame in which a search starts at a byte behind its first is not accepted. -/
theorem not_accepted_of_hunting {s : Uart1Rx} {before : List INT8U} {block : Vector INT8U 134}
    {taken : Nat} (hunting : Hunting false (deliver s (before ++ (frameBytes block).take taken)))
    (inside : 0 < taken) (early : taken ≤ 135) : ¬ Accepted s before block := by
  intro accepted
  cases found : huntLength false ((frameBytes block).drop taken) with
  | some count =>
    exact ready_of_capturing (capturing_into_next hunting found inside).1 accepted.completed
  | none =>
    have length := frameBytes_length block
    have nonempty : frameBytes block ≠ [] := List.cons_ne_nil _ _
    have whole := List.dropLast_concat_getLast nonempty
    have front : taken ≤ (frameBytes block).dropLast.length := by
      rw [List.length_dropLast, length]
      exact early
    have start : (frameBytes block).take taken = (frameBytes block).dropLast.take taken := by
      rw [← whole, List.take_append_of_le_length front, List.dropLast_concat]
    have parts : (frameBytes block).dropLast =
        (frameBytes block).take taken ++ (frameBytes block).dropLast.drop taken := by
      rw [start, List.take_append_drop]
    have shorter : huntLength false ((frameBytes block).dropLast.drop taken) = none := by
      rw [← whole, List.drop_append_of_le_length front] at found
      exact huntLength_prefix found
    obtain ⟨later, still⟩ := deliver_hunting_none _ hunting shorter
    have underWay := accepted.underWay
    rw [parts, ← List.append_assoc, deliver_append, still.ready] at underWay
    exact absurd underWay (by decide)

/-- A misaligned receiver accepts none of the three frames. -/
theorem misaligned_loses {s : Uart1Rx} (phased : Phased s) (block1 block2 block3 : Vector INT8U 134)
    (misaligned : Misaligned s block1 block2) :
    ¬ Accepted s [] block1 ∧ ¬ Accepted s (frameBytes block1) block2 ∧
      ¬ Accepted s (frameBytes block1 ++ frameBytes block2) block3 := by
  obtain ⟨running, count, first, offered⟩ := misaligned
  obtain ⟨index, capturing⟩ : ∃ index, Capturing index s := by
    cases phased with
    | inl searching =>
      obtain ⟨started, hunting⟩ := searching
      rw [hunting.ready] at running
      exact absurd running (by decide)
    | inr found => exact found
  have room := capturing.room
  rw [capturing.index] at first offered
  have ended : Hunting false (deliver s ([] ++ (frameBytes block1).take (134 - index))) := by
    apply (deliver_capturing _ capturing).2
    rw [List.nil_append, List.length_take, frameBytes_length]
    omega
  obtain ⟨bound, -, two⟩ := huntLength_bounds first
  rw [List.length_drop, frameBytes_length] at bound
  have second := (capturing_into_next ended first (by omega)).2 block2
  rw [List.nil_append] at second
  have two := two rfl
  obtain ⟨count2, found2⟩ := Option.ne_none_iff_exists'.mp offered
  obtain ⟨bound2, -, two2⟩ := huntLength_bounds found2
  have two2 := two2 rfl
  rw [List.length_drop, frameBytes_length] at bound2
  have third := (capturing_into_next second found2 (by omega)).2 block3
  exact ⟨not_accepted_of_hunting ended (by omega) (by omega),
    not_accepted_of_hunting second (by omega) (by omega),
    not_accepted_of_hunting third (by omega) (by omega)⟩

/-- Of any three frames sent back to back, a receiver in any state accepts at least one,
unless it is misaligned with the first two. -/
theorem resynchronises (s : Uart1Rx) (reachable : Reachable s) (block1 block2 block3 : Vector INT8U 134)
    (wellFormed1 : WellFormed block1) (wellFormed2 : WellFormed block2)
    (wellFormed3 : WellFormed block3) (aligned : ¬ Misaligned s block1 block2) :
    Accepted s [] block1 ∨ Accepted s (frameBytes block1) block2 ∨
      Accepted s (frameBytes block1 ++ frameBytes block2) block3 :=
  accepted_of_aligned (phased_of_reachable reachable) block1 block2 block3 wellFormed1 wellFormed2
    wellFormed3 aligned

/-- A block of zeros but for `SEL`, its last word. -/
def selBlock (low high : INT8U) : Vector INT8U 134 := Vector.ofFn fun i =>
  if i.val = 130 then low else if i.val = 131 then high
  else if i.val = 132 then 0xE5 else if i.val = 133 then 0x5E else 0

/-- A receiver that got a header and two bytes of a block since it was initialized. -/
def twoBytesIn : Uart1Rx :=
  (uart1Run ⟨lpcUartInit ⟨Vector.replicate 134 0, 0, 0, 0, 0⟩,
      lpcUartInitSend ⟨Vector.replicate 8 0, 0, 0, false, []⟩⟩
    [.interrupt 4 0x5A, .interrupt 4 0xA5, .interrupt 4 0, .interrupt 4 0]).rx

theorem twoBytesIn_reachable : Reachable twoBytesIn := ⟨⟨_, _⟩, _, rfl⟩

/-- With a `SEL` that does not look like a header. -/
theorem resynchronises_twoBytesIn :
    Accepted twoBytesIn [] (selBlock 1 2) ∨
      Accepted twoBytesIn (frameBytes (selBlock 1 2)) (selBlock 1 2) ∨
      Accepted twoBytesIn (frameBytes (selBlock 1 2) ++ frameBytes (selBlock 1 2)) (selBlock 1 2) :=
  resynchronises twoBytesIn twoBytesIn_reachable (selBlock 1 2) (selBlock 1 2) (selBlock 1 2)
    (by decide) (by decide) (by decide) (by
      rintro ⟨-, count, found, -⟩
      have silent : huntLength false ((frameBytes (selBlock 1 2)).drop 132) = Option.none := by decide
      have index : 134 - twoBytesIn.uart1RcvIndex.toNat = 132 := by decide
      rw [index, silent] at found
      cases found)

/-- With a `SEL` of A55A in every frame, all three are lost. -/
theorem resynchronises_not_always :
    Reachable twoBytesIn ∧ WellFormed (selBlock 0x5A 0xA5) ∧
      ¬ (Accepted twoBytesIn [] (selBlock 0x5A 0xA5) ∨
        Accepted twoBytesIn (frameBytes (selBlock 0x5A 0xA5)) (selBlock 0x5A 0xA5) ∨
        Accepted twoBytesIn (frameBytes (selBlock 0x5A 0xA5) ++ frameBytes (selBlock 0x5A 0xA5))
          (selBlock 0x5A 0xA5)) := by
  have index : 134 - twoBytesIn.uart1RcvIndex.toNat = 132 := by decide
  have misaligned : Misaligned twoBytesIn (selBlock 0x5A 0xA5) (selBlock 0x5A 0xA5) := by
    rw [Misaligned, index]
    exact ⟨by decide, 2, by decide, by decide⟩
  obtain ⟨first, second, third⟩ := misaligned_loses (phased_of_reachable twoBytesIn_reachable) _ _
    (selBlock 0x5A 0xA5) misaligned
  exact ⟨twoBytesIn_reachable, by decide, fun any => any.elim first fun later => later.elim second third⟩

end GasSub.Guarantees.Resynchronisation
