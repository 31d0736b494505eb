import Mathlib.Data.List.Basic

/-!
# Frames told apart by silence

Symbols arrive one by one, and a silence ends what has arrived since the last one. A
receiver collects up to a capacity of symbols, gives up a frame that is longer, and has
missed the beginning of what arrives before the first silence. A machine that keeps
the symbols of a frame anywhere in its state is such a receiver when one symbol and
one silence do to it what they do to the receiver.
-/
namespace GasSub.Library.FrameReceiver

inductive Signal (α : Type) where
  | symbol (x : α)
  | silence
  deriving DecidableEq, Repr

inductive Receiver (α : Type) where
  | starting
  | idle
  | receiving (items : List α)
  | overrun
  deriving DecidableEq, Repr

variable {α : Type} {capacity : Nat}

/-- One symbol more. -/
def Receiver.take (capacity : Nat) (r : Receiver α) (x : α) : Receiver α :=
  match r with
  | .starting => .starting
  | .idle => .receiving [x]
  | .receiving items => if items.length < capacity then .receiving (items ++ [x]) else .overrun
  | .overrun => .overrun

/-- What a silence ends. -/
def Receiver.frame : Receiver α → Option (List α)
  | .receiving items => some items
  | _ => none

/-- The frames of a stream. -/
def frames (capacity : Nat) : Receiver α → List (Signal α) → List (List α)
  | _, [] => []
  | r, .symbol x :: rest => frames capacity (r.take capacity x) rest
  | r, .silence :: rest => r.frame.toList ++ frames capacity .idle rest

/-- A stream of runs, each ended by a silence, and of what has arrived since. -/
def stream (runs : List (List α)) (tail : List α) : List (Signal α) :=
  runs.flatMap (fun run => run.map .symbol ++ [.silence]) ++ tail.map .symbol

/-- A run that is received. -/
def Fits (capacity : Nat) (run : List α) : Prop := run ≠ [] ∧ run.length ≤ capacity

instance (run : List α) : Decidable (Fits capacity run) :=
  inferInstanceAs (Decidable (_ ∧ _))

/-! ### Every stream is one of runs -/

theorem stream_symbol (x : α) (run : List α) (runs : List (List α)) (tail : List α) :
    stream ((x :: run) :: runs) tail = .symbol x :: stream (run :: runs) tail := rfl

theorem exists_stream (signals : List (Signal α)) : ∃ runs tail, signals = stream runs tail := by
  induction signals with
  | nil => exact ⟨[], [], rfl⟩
  | cons signal rest ih =>
    obtain ⟨runs, tail, rfl⟩ := ih
    cases signal with
    | silence => exact ⟨[] :: runs, tail, rfl⟩
    | symbol x =>
      cases runs with
      | nil => exact ⟨[], x :: tail, rfl⟩
      | cons run runs => exact ⟨(x :: run) :: runs, tail, (stream_symbol x run runs tail).symm⟩

/-! ### A run -/

theorem frames_starting (run : List α) (rest : List (Signal α)) :
    frames capacity .starting (run.map .symbol ++ .silence :: rest) = frames capacity .idle rest := by
  induction run with
  | nil => rfl
  | cons x run ih => exact ih

theorem frames_overrun (run : List α) (rest : List (Signal α)) :
    frames capacity .overrun (run.map .symbol ++ .silence :: rest) = frames capacity .idle rest := by
  induction run with
  | nil => rfl
  | cons x run ih => exact ih

theorem frames_receiving (items run : List α) (rest : List (Signal α))
    (within : items.length ≤ capacity) :
    frames capacity (.receiving items) (run.map .symbol ++ .silence :: rest) =
      (if (items ++ run).length ≤ capacity then [items ++ run] else []) ++
        frames capacity .idle rest := by
  induction run generalizing items with
  | nil =>
    rw [List.append_nil, if_pos within]
    rfl
  | cons x run ih =>
    by_cases room : items.length < capacity
    · have step : (Receiver.receiving items).take capacity x = .receiving (items ++ [x]) := if_pos room
      have tail := ih (items ++ [x]) (by rw [List.length_append]; exact room)
      rw [List.append_assoc] at tail
      rw [List.map_cons, List.cons_append, frames, step, tail]
      rfl
    · have step : (Receiver.receiving items).take capacity x = .overrun := if_neg room
      have long : ¬ (items ++ x :: run).length ≤ capacity := by
        rw [List.length_append, List.length_cons]
        omega
      rw [List.map_cons, List.cons_append, frames, step, frames_overrun, if_neg long, List.nil_append]

theorem frames_idle (positive : 0 < capacity) (run : List α) (rest : List (Signal α)) :
    frames capacity .idle (run.map .symbol ++ .silence :: rest) =
      (if Fits capacity run then [run] else []) ++ frames capacity .idle rest := by
  cases run with
  | nil => rfl
  | cons x run =>
    have same : frames capacity (.receiving [x]) (run.map .symbol ++ .silence :: rest) = _ :=
      frames_receiving [x] run rest positive
    have fits : Fits capacity (x :: run) ↔ ([x] ++ run).length ≤ capacity :=
      and_iff_right (List.cons_ne_nil x run)
    rw [if_congr fits rfl rfl]
    exact same

/-! ### What a receiver has of a run -/

theorem takes_overrun (run : List α) : run.foldl (Receiver.take capacity) .overrun = .overrun := by
  induction run with
  | nil => rfl
  | cons x run ih => exact ih

theorem takes_receiving (items run : List α) (within : items.length ≤ capacity) :
    run.foldl (Receiver.take capacity) (.receiving items) =
      if (items ++ run).length ≤ capacity then .receiving (items ++ run) else .overrun := by
  induction run generalizing items with
  | nil => rw [List.append_nil, if_pos within, List.foldl_nil]
  | cons x run ih =>
    by_cases room : items.length < capacity
    · have step : (Receiver.receiving items).take capacity x = .receiving (items ++ [x]) := if_pos room
      have tail := ih (items ++ [x]) (by rw [List.length_append]; exact room)
      rw [List.append_assoc] at tail
      rw [List.foldl_cons, step, tail]
      rfl
    · have step : (Receiver.receiving items).take capacity x = .overrun := if_neg room
      have long : ¬ (items ++ x :: run).length ≤ capacity := by
        rw [List.length_append, List.length_cons]
        omega
      rw [List.foldl_cons, step, takes_overrun, if_neg long]

/-- After a silence a receiver has the run as long as it fits. -/
theorem takes_idle (positive : 0 < capacity) (x : α) (run : List α) :
    (x :: run).foldl (Receiver.take capacity) .idle =
      if (x :: run).length ≤ capacity then .receiving (x :: run) else .overrun :=
  takes_receiving [x] run positive

/-! ### The whole stream -/

theorem frames_tail (r : Receiver α) (tail : List α) :
    frames capacity r (tail.map .symbol) = [] := by
  induction tail generalizing r with
  | nil => rfl
  | cons x tail ih => exact ih (r.take capacity x)

theorem stream_cons (run : List α) (runs : List (List α)) (tail : List α) :
    stream (run :: runs) tail = run.map .symbol ++ .silence :: stream runs tail := by
  rw [stream, List.flatMap_cons, List.append_assoc, List.append_assoc]
  rfl

/-- From a silence on, the frames of a stream are its runs that fit. -/
theorem frames_stream (positive : 0 < capacity) (runs : List (List α)) (tail : List α) :
    frames capacity .idle (stream runs tail) = runs.filter fun run => decide (Fits capacity run) := by
  induction runs with
  | nil => exact frames_tail .idle tail
  | cons run runs ih =>
    rw [stream_cons, frames_idle positive, ih, List.filter_cons]
    by_cases fits : Fits capacity run
    · rw [if_pos fits, if_pos (decide_eq_true fits)]
      rfl
    · rw [if_neg fits, if_neg (by rw [decide_eq_true_eq]; exact fits)]
      rfl

/-- A receiver that starts misses the first run. -/
theorem frames_stream_starting (positive : 0 < capacity) (runs : List (List α)) (tail : List α) :
    frames capacity .starting (stream runs tail) =
      runs.tail.filter fun run => decide (Fits capacity run) := by
  cases runs with
  | nil => exact frames_tail .starting tail
  | cons run runs => rw [stream_cons, frames_starting, frames_stream positive, List.tail_cons]

/-! ### Machines that are receivers -/

variable {β σ : Type}

/-- A machine: what it does with a symbol and with a silence, and what it then reports. -/
structure Machine (α β σ : Type) where
  take : σ → α → σ
  silence : σ → σ
  report : σ → Option β

/-- What a machine reports along a stream. -/
def Machine.reports (m : Machine α β σ) : σ → List (Signal α) → List β
  | _, [] => []
  | s, .symbol x :: rest => m.reports (m.take s x) rest
  | s, .silence :: rest => (m.report s).toList ++ m.reports (m.silence s) rest

/-- The state of a machine seen as a receiver, under an invariant of the machine; of a frame
it reports what `decode` makes of it. -/
structure Machine.Simulates (m : Machine α β σ) (capacity : Nat) (decode : List α → Option β)
    (invariant : σ → Prop) (view : σ → Receiver α) : Prop where
  kept : ∀ s x, invariant s → invariant (m.take s x)
  restored : ∀ s, invariant (m.silence s)
  take : ∀ s x, view (m.take s x) = (view s).take capacity x
  silence : ∀ s, view (m.silence s) = .idle
  report : ∀ s, invariant s → m.report s = (view s).frame.bind decode

variable {m : Machine α β σ} {decode : List α → Option β} {invariant : σ → Prop}
  {view : σ → Receiver α}

theorem Machine.Simulates.reports_eq (simulates : m.Simulates capacity decode invariant view)
    {s : σ} (holds : invariant s) (signals : List (Signal α)) :
    m.reports s signals = (frames capacity (view s) signals).filterMap decode := by
  induction signals generalizing s with
  | nil => rfl
  | cons signal rest ih =>
    cases signal with
    | symbol x => rw [Machine.reports, ih (simulates.kept s x holds), simulates.take, frames]
    | silence =>
      rw [Machine.reports, ih (simulates.restored s), simulates.silence, simulates.report s holds,
        frames, List.filterMap_append]
      cases (view s).frame with
      | none => rfl
      | some run => cases found : decode run <;> simp [found]

theorem Machine.Simulates.view_takes (simulates : m.Simulates capacity decode invariant view) (s : σ)
    (run : List α) : view (run.foldl m.take s) = run.foldl (Receiver.take capacity) (view s) := by
  induction run generalizing s with
  | nil => rfl
  | cons x run ih => rw [List.foldl_cons, List.foldl_cons, ih, simulates.take]

/-- Runs that are decoded only if they fit need not be filtered. -/
theorem filterMap_fits (fitting : ∀ run x, decode run = some x → Fits capacity run)
    (runs : List (List α)) :
    (runs.filter fun run => decide (Fits capacity run)).filterMap decode = runs.filterMap decode := by
  induction runs with
  | nil => rfl
  | cons run runs ih =>
    cases found : decode run with
    | none =>
      rw [List.filter_cons, List.filterMap_cons, found, ← ih]
      split
      · rw [List.filterMap_cons, found]
      · rfl
    | some x =>
      rw [List.filter_cons, if_pos (decide_eq_true (fitting run x found)), List.filterMap_cons,
        List.filterMap_cons, found, ih]

/-- A machine that starts reports what it decodes of the runs after the first. -/
theorem Machine.Simulates.reports_starting (simulates : m.Simulates capacity decode invariant view)
    (positive : 0 < capacity) (fitting : ∀ run x, decode run = some x → Fits capacity run)
    {s : σ} (holds : invariant s) (starts : view s = .starting) (runs : List (List α))
    (tail : List α) : m.reports s (stream runs tail) = runs.tail.filterMap decode := by
  rw [simulates.reports_eq holds, starts, frames_stream_starting positive, filterMap_fits fitting]

end GasSub.Library.FrameReceiver
