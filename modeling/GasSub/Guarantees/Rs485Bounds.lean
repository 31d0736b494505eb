import GasSub.Library.Run
import GasSub.Source.Rs485Receive

/-!
# Array accesses of the RS485 receivers

Bytes arrive on the four lines and frames are fetched in any order. Each channel
carries the provenance of its buffer: which capture stored each cell, and which
capture was accepted last. All stores are inside `Rcv` and every fetch reads
bytes of the accepted frame only and stays inside `data` exactly when no line
runs past fifteen bytes without a tail, and every fetch comes before the next
capture and finds a length byte that fits the frame and `data`.
-/
namespace GasSub.Guarantees.Rs485Bounds
open GasSub.Source GasSub.Library.Run

inductive Event where
  | received (n : RS485UartNum) (byte : INT8U)
  | fetch (n : RS485UartNum) (junk : UserRS485Rcv)

/-- Where the content of one `Rcv` array comes from. Captures are numbered from
one on; number zero is what the array held before the first. -/
structure Provenance where
  capture : Nat
  origin : Nat → Nat
  accepted : Nat
  length : Nat

/-- What the step of a channel from `p` to `q` on a received byte tells. -/
def Provenance.observe (g : Provenance) (p q : Rs485Port) : Provenance :=
  if p.uart.readyToRcv = 1 then
    let stored := { g with origin := Function.update g.origin p.uart.rcvIndex.toNat g.capture }
    if q.uart.readyToRcv = 0 ∧ q.rcvOK = 1 then
      { stored with accepted := g.capture, length := p.uart.rcvIndex.toNat + 1 }
    else stored
  else if q.uart.readyToRcv = 1 then { g with capture := g.capture + 1 }
  else g

structure Monitored where
  ports : Rs485Ports
  seen : RS485UartNum → Provenance

/-- The channels after `LPC_Uart_Init`, before any capture. -/
def Monitored.init (ports : Rs485Ports) : Monitored :=
  { ports := fun n => (ports n).init, seen := fun _ => ⟨0, fun _ => 0, 0, 0⟩ }

def step (m : Monitored) : Event → Option Monitored
  | .received n byte => (rs485IRQHandlerReceive m.ports n byte).1.map fun ports =>
      { ports := ports
        seen := Function.update m.seen n ((m.seen n).observe (m.ports n) (ports n)) }
  | .fetch n junk => (rs485GetStruct m.ports n junk).1.map fun found => { m with ports := found.2 }

/-- The accesses an event makes, and the channel it makes them on. -/
def accesses (m : Monitored) : Event → RS485UartNum × List Rs485Access
  | .received n byte => (n, (rs485IRQHandlerReceive m.ports n byte).2)
  | .fetch n junk => (n, (rs485GetStruct m.ports n junk).2)

/-- Stores are inside `Rcv`, reads see the accepted frame, writes are inside `data`. -/
def Provenance.Allows (g : Provenance) : Rs485Access → Prop
  | .storeRcv index => index < 15
  | .readRcv index => g.origin index = g.accepted
  | .writeData index => index < 10

def AccessesAllowed (m : Monitored) (e : Event) : Prop :=
  ∀ access ∈ (accesses m e).2, (m.seen (accesses m e).1).Allows access

/-! ### The condition -/

/-- Discipline of a line, by its bytes alone: after an S that opens a frame, an E
comes among bytes five to fifteen, or the line ends within fifteen bytes. The
first argument is the number of bytes since the S, if a frame is open. -/
def lineFits : Option Nat → List INT8U → Prop
  | _, [] => True
  | none, byte :: rest => lineFits (if byte = 0x53 then some 0 else none) rest
  | some k, byte :: rest =>
      k < 15 ∧ lineFits (if byte = 0x45 ∧ 4 ≤ k then none else some (k + 1)) rest

/-- The bytes of one line. -/
def bytesOn (n : RS485UartNum) : List Event → List INT8U
  | [] => []
  | .received m byte :: rest => if m = n then byte :: bytesOn n rest else bytesOn n rest
  | .fetch _ _ :: rest => bytesOn n rest

/-- A fetch with the flag up comes before the next capture has stored a byte, and
the length byte fits both the accepted frame and `data`. -/
def FetchesFrame (m : Monitored) : Event → Prop
  | .received _ _ => True
  | .fetch n _ => (m.ports n).rcvOK ≠ 0 →
      (m.ports n).uart.rcvIndex = 0 ∧ (m.ports n).uart.lengthByte.toNat ≤ 10 ∧
        (m.ports n).uart.lengthByte.toNat + 2 ≤ (m.seen n).length

/-- A byte that is stored finds room. -/
def HasRoom (m : Monitored) : Event → Prop
  | .received n _ => (m.ports n).uart.readyToRcv = 1 → (m.ports n).uart.rcvIndex.toNat < 15
  | .fetch _ _ => True

/-! ### The invariant -/

/-- What a channel and its provenance have in common in every state of a run. -/
structure Traces (p : Rs485Port) (g : Provenance) : Prop where
  phased : p.Phased
  flag : p.rcvOK = 0 ∨ p.rcvOK = 1
  numbered : ∀ i, g.origin i ≤ g.capture
  past : g.accepted ≤ g.capture
  running : p.uart.readyToRcv = 1 →
    g.accepted < g.capture ∧ ∀ i, g.origin i = g.capture ↔ i < p.uart.rcvIndex.toNat
  ready : p.rcvOK = 1 →
    5 ≤ g.length ∧ ∀ i, g.origin i = g.accepted ↔ p.uart.rcvIndex.toNat ≤ i ∧ i < g.length

theorem traces_init (p : Rs485Port) : Traces p.init ⟨0, fun _ => 0, 0, 0⟩ where
  phased := phased_init p
  flag := Or.inl rfl
  numbered _ := Nat.le_refl 0
  past := Nat.le_refl 0
  running capturing := absurd capturing (by decide : (0 : INT8U) ≠ 1)
  ready up := absurd up (by decide : (0 : INT8U) ≠ 1)

/-- An idle channel opens a capture with the next number, or stays idle. -/
theorem traces_idle (p : Rs485Port) (g : Provenance) (byte : INT8U) (traces : Traces p g)
    (idle : p.uart.readyToRcv = 0) (start : p.uart.rcvIndex = 0) :
    let q := { p with uart := { p.uart with readyToRcv := if byte = 0x53 then 1 else 0 } }
    Traces q (g.observe p q) := by
  intro q
  have notCapturing : ¬ p.uart.readyToRcv = 1 := by
    rw [idle]
    decide
  have zero : p.uart.rcvIndex.toNat = 0 := by
    rw [start]
    rfl
  have past := traces.past
  by_cases opens : byte = 0x53
  · have now : q.uart.readyToRcv = 1 := if_pos opens
    unfold Provenance.observe
    rw [if_neg notCapturing, if_pos now]
    refine ⟨Or.inr ⟨now, ?_⟩, traces.flag, fun i => ?_, ?_, fun _ => ⟨?_, fun i => ?_⟩, traces.ready⟩
    · simp only [q, zero]
      decide
    · exact Nat.le_succ_of_le (traces.numbered i)
    · exact Nat.le_succ_of_le past
    · exact Nat.lt_succ_of_le past
    · have old := traces.numbered i
      simp only [q, zero]
      omega
  · have still : q.uart.readyToRcv = 0 := if_neg opens
    have notNow : ¬ q.uart.readyToRcv = 1 := by
      rw [still]
      decide
    unfold Provenance.observe
    rw [if_neg notCapturing, if_neg notNow]
    exact ⟨Or.inl ⟨still, start⟩, traces.flag, traces.numbered, past,
      fun capturing => absurd capturing notNow, traces.ready⟩

/-- A stored byte belongs to the running capture; the byte that completes an
accepted frame makes that capture the accepted one. -/
theorem traces_capture (p : Rs485Port) (g : Provenance) (byte : INT8U) (traces : Traces p g)
    (capturing : p.uart.readyToRcv = 1) (inside : p.uart.rcvIndex.toNat < 15) :
    Traces (rs485Capture p byte inside) (g.observe p (rs485Capture p byte inside)) := by
  obtain ⟨before, mine⟩ := traces.running capturing
  have next := rcvIndex_succ inside
  have stamped : ∀ i, Function.update g.origin p.uart.rcvIndex.toNat g.capture i = g.capture ↔
      i < p.uart.rcvIndex.toNat + 1 := by
    intro i
    by_cases here : i = p.uart.rcvIndex.toNat
    · simp [here]
    · rw [Function.update_of_ne here, mine i]
      omega
  have numbered : ∀ i, Function.update g.origin p.uart.rcvIndex.toNat g.capture i ≤ g.capture := by
    intro i
    by_cases here : i = p.uart.rcvIndex.toNat
    · simp [here]
    · rw [Function.update_of_ne here]
      exact traces.numbered i
  unfold Provenance.observe
  rw [if_pos capturing]
  by_cases ends : p.Ends byte
  · rw [rs485Capture_ends p byte inside ends]
    have notCapturing : ¬ (0 : INT8U) = 1 := by decide
    by_cases good : p.uart.rcv[p.uart.rcvIndex.toNat - 1] = 0x98
    · simp only [good, if_true, and_self]
      refine ⟨Or.inl ⟨rfl, rfl⟩, Or.inr rfl, numbered, Nat.le_refl _,
        fun now => absurd now notCapturing, fun _ => ⟨?_, fun i => ?_⟩⟩
      · have late := ends.2
        simp only
        omega
      · rw [stamped i]
        simp
    · simp only [good, if_false, notCapturing, and_false]
      exact ⟨Or.inl ⟨rfl, rfl⟩, Or.inl rfl, numbered, Nat.le_of_lt before,
        fun now => absurd now notCapturing, fun up => absurd up notCapturing⟩
  · rw [rs485Capture_inside p byte inside ends]
    have running : ¬ (p.uart.readyToRcv = 0 ∧ p.rcvOK = 1) := by
      rw [capturing]
      intro both
      exact absurd both.1 (by decide)
    rw [if_neg running]
    refine ⟨Or.inr ⟨capturing, ?_⟩, traces.flag, numbered, Nat.le_of_lt before,
      fun _ => ⟨before, fun i => ?_⟩, fun up => ⟨(traces.ready up).1, fun i => ?_⟩⟩
    · simp only [next]
      omega
    · rw [stamped i]
      simp only [next]
    · have old := (traces.ready up).2 i
      simp only [next]
      by_cases here : i = p.uart.rcvIndex.toNat
      · simp only [here, Function.update_self]
        omega
      · rw [Function.update_of_ne here, old]
        omega

theorem traces_fetch (p : Rs485Port) (g : Provenance) (traces : Traces p g) :
    Traces { p with rcvOK := 0 } g where
  phased := traces.phased
  flag := Or.inl rfl
  numbered := traces.numbered
  past := traces.past
  running := traces.running
  ready up := absurd up (by decide : (0 : INT8U) ≠ 1)

def Invariant (m : Monitored) : Prop := ∀ n, Traces (m.ports n) (m.seen n)

theorem invariant_init (ports : Rs485Ports) : Invariant (Monitored.init ports) :=
  fun n => traces_init (ports n)

/-- A received byte moves its own channel and no other. -/
theorem step_received (m : Monitored) (n : RS485UartNum) (byte : INT8U) :
    step m (.received n byte) = (rs485Receive (m.ports n) byte).1.map fun q =>
      { ports := Function.update m.ports n q
        seen := Function.update m.seen n ((m.seen n).observe (m.ports n) q) } := by
  simp only [step, rs485IRQHandlerReceive_eq, onPort, Option.map_map, Function.comp_def,
    Function.update_self]

/-- A fetch moves its own channel and no other. -/
theorem step_fetch (m t : Monitored) (n : RS485UartNum) (junk : UserRS485Rcv)
    (taken : step m (.fetch n junk) = some t) :
    t = { m with ports := Function.update m.ports n { m.ports n with rcvOK := 0 } } := by
  simp only [step, rs485GetStruct_eq, Option.map_map, Option.map_eq_some_iff] at taken
  obtain ⟨found, returned, same⟩ := taken
  have lowered := rs485Get_port (m.ports n) junk found.1 found.2 returned
  simp only [Function.comp_apply, lowered] at same
  exact same.symm

theorem traces_received (p q : Rs485Port) (g : Provenance) (byte : INT8U) (traces : Traces p g)
    (moved : (rs485Receive p byte).1 = some q) : Traces q (g.observe p q) := by
  rcases rs485Receive_cases p byte traces.phased with idle | room | full
  · rw [idle.2.2, Option.some.injEq] at moved
    subst moved
    exact traces_idle p g byte traces idle.1 idle.2.1
  · obtain ⟨capturing, inside, stored⟩ := room
    rw [stored, Option.some.injEq] at moved
    subst moved
    exact traces_capture p g byte traces capturing inside
  · rw [full.2.2] at moved
    cases moved

theorem invariant_step (m : Monitored) (e : Event) (t : Monitored) (holds : Invariant m)
    (taken : step m e = some t) : Invariant t := by
  intro k
  cases e with
  | received n byte =>
    rw [step_received, Option.map_eq_some_iff] at taken
    obtain ⟨q, moved, rfl⟩ := taken
    by_cases same : k = n
    · subst same
      simp only [Function.update_self]
      exact traces_received _ q _ byte (holds k) moved
    · simp only [Function.update_of_ne same]
      exact holds k
  | fetch n junk =>
    rw [step_fetch m t n junk taken]
    by_cases same : k = n
    · subst same
      simp only [Function.update_self]
      exact traces_fetch _ _ (holds k)
    · simp only [Function.update_of_ne same]
      exact holds k

/-! ### One event -/

theorem received_allowed_iff (m : Monitored) (n : RS485UartNum) (byte : INT8U)
    (phased : (m.ports n).Phased) :
    AccessesAllowed m (.received n byte) ↔ HasRoom m (.received n byte) := by
  simp only [AccessesAllowed, accesses, rs485IRQHandlerReceive_eq, onPort, HasRoom]
  rcases rs485Receive_cases (m.ports n) byte phased with idle | room | full
  · have notCapturing : ¬ (m.ports n).uart.readyToRcv = 1 := by
      rw [idle.1]
      decide
    simp only [idle.2.2, List.not_mem_nil, notCapturing]
    simp
  · obtain ⟨capturing, inside, stored⟩ := room
    simp [stored, Provenance.Allows, inside]
  · simp [full.2.2, full.1, Provenance.Allows]

/-- The accesses of a fetch with the flag up are allowed exactly when the frame
is still whole and the length byte fits. -/
theorem fetch_allowed_iff (m : Monitored) (n : RS485UartNum) (junk : UserRS485Rcv)
    (traces : Traces (m.ports n) (m.seen n)) :
    AccessesAllowed m (.fetch n junk) ↔ FetchesFrame m (.fetch n junk) := by
  simp only [AccessesAllowed, accesses, rs485GetStruct, rs485Get, FetchesFrame]
  by_cases down : (m.ports n).rcvOK = 0
  · simp [down]
  · have up : (m.ports n).rcvOK = 1 := traces.flag.resolve_left down
    obtain ⟨long, mine⟩ := traces.ready up
    simp only [if_neg down, List.mem_cons, mem_copyData_iff _ _ _ _ (Nat.zero_le 10)]
    constructor
    · intro allowed _
      have first := (mine 0).mp (allowed (.readRcv 0) (Or.inl rfl))
      have fresh : (m.ports n).uart.rcvIndex = 0 := by
        apply BitVec.eq_of_toNat_eq
        exact Nat.le_zero.mp first.1
      have room : (m.ports n).uart.lengthByte.toNat ≤ 10 := by
        by_contra overrun
        have outside := allowed (.writeData 10)
          (Or.inr (Or.inr ⟨10, by omega, by omega, by omega, Or.inr rfl⟩))
        exact absurd outside (by decide : ¬ 10 < 10)
      refine ⟨fresh, room, ?_⟩
      by_cases empty : (m.ports n).uart.lengthByte.toNat = 0
      · omega
      · have last := (mine _).mp (allowed (.readRcv ((m.ports n).uart.lengthByte.toNat - 1 + 2))
          (Or.inr (Or.inr ⟨(m.ports n).uart.lengthByte.toNat - 1, by omega, by omega, by omega,
            Or.inl rfl⟩)))
        omega
    · intro fits access reached
      obtain ⟨fresh, room, whole⟩ := fits down
      have zero : (m.ports n).uart.rcvIndex.toNat = 0 := by
        rw [fresh]
        rfl
      rcases reached with ctrl | len | ⟨j, -, bound, -, kind⟩
      · subst ctrl
        exact (mine 0).mpr (by omega)
      · subst len
        exact (mine 1).mpr (by omega)
      · cases kind with
        | inl read =>
          subst read
          exact (mine (j + 2)).mpr (by omega)
        | inr write =>
          subst write
          simp only [Provenance.Allows]
          omega

theorem allowed_iff (m : Monitored) (e : Event) (holds : Invariant m) :
    AccessesAllowed m e ↔ HasRoom m e ∧ FetchesFrame m e := by
  cases e with
  | received n byte =>
    rw [received_allowed_iff m n byte (holds n).phased]
    exact (and_iff_left trivial).symm
  | fetch n junk =>
    rw [fetch_allowed_iff m n junk (holds n)]
    exact (and_iff_right trivial).symm

/-! ### Whole runs -/

/-- Where a channel stands on its line. -/
def openFrame (p : Rs485Port) : Option Nat :=
  if p.uart.readyToRcv = 1 then some p.uart.rcvIndex.toNat else none

theorem openFrame_idle {p : Rs485Port} (idle : p.uart.readyToRcv = 0) : openFrame p = none := by
  unfold openFrame
  rw [if_neg]
  rw [idle]
  decide

theorem openFrame_running {p : Rs485Port} (capturing : p.uart.readyToRcv = 1) :
    openFrame p = some p.uart.rcvIndex.toNat := if_pos capturing

/-- The place on the line follows the bytes. -/
theorem lineFits_received (p : Rs485Port) (byte : INT8U) (rest : List INT8U) (phased : p.Phased) :
    lineFits (openFrame p) (byte :: rest) ↔
      ∃ q, (rs485Receive p byte).1 = some q ∧ lineFits (openFrame q) rest := by
  rcases rs485Receive_cases p byte phased with idle | room | full
  · rw [idle.2.2, openFrame_idle idle.1]
    simp only [lineFits, Option.some.injEq, exists_eq_left']
    by_cases opens : byte = 0x53
    · have zero : p.uart.rcvIndex.toNat = 0 := by
        rw [idle.2.1]
        rfl
      rw [if_pos opens, if_pos opens, openFrame_running rfl, zero]
    · rw [if_neg opens, if_neg opens, openFrame_idle rfl]
  · obtain ⟨capturing, inside, stored⟩ := room
    rw [stored, openFrame_running capturing]
    simp only [lineFits, inside, true_and, Option.some.injEq, exists_eq_left']
    by_cases ends : p.Ends byte
    · have final : byte = 0x45 ∧ _ := ends
      rw [rs485Capture_ends p byte inside ends, if_pos final, openFrame_idle rfl]
    · have inner : ¬ (byte = 0x45 ∧ _) := ends
      rw [rs485Capture_inside p byte inside ends, if_neg inner, openFrame, if_pos capturing,
        rcvIndex_succ inside]
  · rw [full.2.2, openFrame_running full.1]
    simp [lineFits, full.2.1]

/-- A fetch that finds its frame returns. -/
theorem fetch_returns (m : Monitored) (n : RS485UartNum) (junk : UserRS485Rcv)
    (fits : FetchesFrame m (.fetch n junk)) : ∃ t, step m (.fetch n junk) = some t := by
  simp only [step, rs485GetStruct_eq]
  by_cases down : (m.ports n).rcvOK = 0
  · rw [rs485Get_down _ junk down]
    exact ⟨_, rfl⟩
  · obtain ⟨-, room, -⟩ := fits down
    obtain ⟨found, returned, -⟩ := rs485Get_up (m.ports n) junk down room
    rw [returned]
    exact ⟨_, rfl⟩

theorem hasRoom_received_iff (m : Monitored) (n : RS485UartNum) (byte : INT8U)
    (phased : (m.ports n).Phased) :
    HasRoom m (.received n byte) ↔ ∃ t, step m (.received n byte) = some t := by
  rw [step_received]
  unfold HasRoom
  rcases rs485Receive_cases (m.ports n) byte phased with idle | room | full
  · simp [idle.1, idle.2.2]
  · obtain ⟨capturing, inside, stored⟩ := room
    simp [stored, inside]
  · simp [full.1, full.2.1, full.2.2]

/-- The lines keep the discipline exactly when the first byte finds room and they
keep it from there on. -/
theorem lines_received (m : Monitored) (n : RS485UartNum) (byte : INT8U) (rest : List Event)
    (phased : (m.ports n).Phased) :
    (∀ k, lineFits (openFrame (m.ports k)) (bytesOn k (.received n byte :: rest))) ↔
      ∃ t, step m (.received n byte) = some t ∧
        ∀ k, lineFits (openFrame (t.ports k)) (bytesOn k rest) := by
  have line := lineFits_received (m.ports n) byte (bytesOn n rest) phased
  simp only [step_received, Option.map_eq_some_iff]
  constructor
  · intro lines
    have mine := lines n
    rw [bytesOn, if_pos rfl, line] at mine
    obtain ⟨q, moved, place⟩ := mine
    refine ⟨_, ⟨q, moved, rfl⟩, fun k => ?_⟩
    by_cases here : k = n
    · subst here
      simp only [Function.update_self]
      exact place
    · have other := lines k
      rw [bytesOn, if_neg (Ne.symm here)] at other
      simp only [Function.update_of_ne here]
      exact other
  · intro after k
    obtain ⟨t, ⟨q, moved, same⟩, lines⟩ := after
    subst same
    have place := lines k
    by_cases here : k = n
    · subst here
      simp only [Function.update_self] at place
      rw [bytesOn, if_pos rfl, line]
      exact ⟨q, moved, place⟩
    · simp only [Function.update_of_ne here] at place
      rw [bytesOn, if_neg (Ne.symm here)]
      exact place

/-- A fetch does not move any place on a line. -/
theorem openFrame_fetch (m t : Monitored) (n k : RS485UartNum) (junk : UserRS485Rcv)
    (taken : step m (.fetch n junk) = some t) : openFrame (t.ports k) = openFrame (m.ports k) := by
  rw [step_fetch m t n junk taken]
  by_cases here : k = n
  · subst here
    simp only [Function.update_self]
    rfl
  · simp only [Function.update_of_ne here]

/-- Every capture finds room exactly when the bytes of every line keep the
discipline. -/
theorem eachStep_hasRoom_iff (events : List Event) (m : Monitored) (holds : Invariant m) :
    EachStep step (fun s e => HasRoom s e ∧ FetchesFrame s e) m events ↔
      (∀ n, lineFits (openFrame (m.ports n)) (bytesOn n events)) ∧
        EachStep step FetchesFrame m events := by
  induction events generalizing m with
  | nil => simp [EachStep, bytesOn, lineFits]
  | cons e rest ih =>
    have later : ∀ t, step m e = some t → (EachStep step (fun s e => HasRoom s e ∧ FetchesFrame s e)
        t rest ↔ (∀ n, lineFits (openFrame (t.ports n)) (bytesOn n rest)) ∧
          EachStep step FetchesFrame t rest) :=
      fun t taken => ih t (invariant_step m e t holds taken)
    cases e with
    | received n byte =>
      rw [lines_received m n byte rest (holds n).phased]
      simp only [EachStep, hasRoom_received_iff m n byte (holds n).phased]
      constructor
      · intro each
        obtain ⟨⟨⟨t, taken⟩, -⟩, tail⟩ := each
        have both := (later t taken).mp (tail t taken)
        refine ⟨⟨t, taken, both.1⟩, trivial, fun u other => ?_⟩
        obtain rfl : t = u := Option.some.inj (taken.symm.trans other)
        exact both.2
      · intro both
        obtain ⟨⟨t, taken, lines⟩, -, tail⟩ := both
        refine ⟨⟨⟨t, taken⟩, trivial⟩, fun u other => ?_⟩
        obtain rfl : t = u := Option.some.inj (taken.symm.trans other)
        exact (later t taken).mpr ⟨lines, tail t taken⟩
    | fetch n junk =>
      simp only [EachStep, bytesOn]
      constructor
      · intro each
        obtain ⟨⟨-, fits⟩, tail⟩ := each
        obtain ⟨t, taken⟩ := fetch_returns m n junk fits
        have both := (later t taken).mp (tail t taken)
        refine ⟨fun k => ?_, fits, fun u other => ?_⟩
        · rw [← openFrame_fetch m t n k junk taken]
          exact both.1 k
        · obtain rfl : t = u := Option.some.inj (taken.symm.trans other)
          exact both.2
      · intro both
        obtain ⟨lines, fits, tail⟩ := both
        refine ⟨⟨trivial, fits⟩, fun t taken => (later t taken).mpr ⟨fun k => ?_, tail t taken⟩⟩
        rw [openFrame_fetch m t n k junk taken]
        exact lines k

theorem eachStep_allowed_iff (m : Monitored) (holds : Invariant m) (events : List Event) :
    EachStep step AccessesAllowed m events ↔
      (∀ n, lineFits (openFrame (m.ports n)) (bytesOn n events)) ∧
        EachStep step FetchesFrame m events := by
  rw [eachStep_congr invariant_step allowed_iff holds, eachStep_hasRoom_iff events m holds]

/-- In a run from initialization, every access to the RS485 arrays is allowed
exactly when the lines keep the discipline and each fetch finds its frame. -/
theorem accessesAllowed_iff (ports : Rs485Ports) (events : List Event) :
    EachStep step AccessesAllowed (Monitored.init ports) events ↔
      (∀ n, lineFits none (bytesOn n events)) ∧
        EachStep step FetchesFrame (Monitored.init ports) events :=
  eachStep_allowed_iff _ (invariant_init ports) events

/-- Channels with empty buffers. -/
def blankPorts : Rs485Ports := fun _ =>
  ⟨⟨Vector.replicate 10 0, Vector.replicate 15 0, 0, 0, 0, 0, 0⟩, 0⟩

/-- An S and sixteen bytes of noise on one line. -/
def noise : List Event := .received .uart0 0x53 :: List.replicate 16 (.received .uart0 0x20)

/-- The sixteenth byte is stored behind the end of `Rcv`. -/
theorem accessesAllowed_noise :
    ¬ EachStep step AccessesAllowed (Monitored.init blankPorts) noise := by
  intro each
  have line := ((eachStep_allowed_iff _ (invariant_init blankPorts) noise).mp each).1 .uart0
  revert line
  simp [noise, bytesOn, lineFits, openFrame, Monitored.init, Rs485Port.init]

end GasSub.Guarantees.Rs485Bounds
