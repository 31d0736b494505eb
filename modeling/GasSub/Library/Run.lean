import Mathlib.Algebra.Order.Ring.Int

/-!
# Runs of a partial machine

A machine takes one step per event; a step without a result means that the
program has left its defined behaviour. `Always` speaks about the states of a
run, `EachStep` about its steps. The two rules turn a fact about one step into
one about every run: a property of states that one step keeps exactly under a
condition is kept by a run exactly when each of its steps meets the condition.
-/
namespace GasSub.Library.Run

variable {σ α : Type} (step : σ → α → Option σ)

/-- Every state from `s` on is defined and satisfies `P`. -/
def Always (P : σ → Prop) : σ → List α → Prop
  | s, [] => P s
  | s, a :: rest => P s ∧ ∃ t, step s a = some t ∧ Always P t rest

instance decidableAlways (step : σ → α → Option σ) (P : σ → Prop) [DecidablePred P] :
    (s : σ) → (events : List α) → Decidable (Always step P s events)
  | s, [] => inferInstanceAs (Decidable (P s))
  | s, a :: rest =>
    match taken : step s a with
    | none => isFalse (by rintro ⟨-, t, other, -⟩; rw [taken] at other; cases other)
    | some t =>
      have := decidableAlways step P t rest
      decidable_of_iff (P s ∧ Always step P t rest) (by
        rw [Always, taken]
        simp only [Option.some.injEq, exists_eq_left'])

/-- Every state reached from `s` on satisfies `P`; a step without a result ends the run. -/
def Throughout (P : σ → Prop) : σ → List α → Prop
  | s, [] => P s
  | s, a :: rest => P s ∧ ∀ t, step s a = some t → Throughout P t rest

/-- Every step taken from `s` on satisfies `C`, as long as there is a next state. -/
def EachStep (C : σ → α → Prop) : σ → List α → Prop
  | _, [] => True
  | s, a :: rest => C s a ∧ ∀ t, step s a = some t → EachStep C t rest

instance decidableEachStep (step : σ → α → Option σ) (C : σ → α → Prop)
    [∀ s a, Decidable (C s a)] : (s : σ) → (events : List α) → Decidable (EachStep step C s events)
  | _, [] => inferInstanceAs (Decidable True)
  | s, a :: rest =>
    match taken : step s a with
    | none => decidable_of_iff (C s a) (by
        rw [EachStep, taken]
        simp only [reduceCtorEq, false_implies, implies_true, and_true])
    | some t =>
      have := decidableEachStep step C t rest
      decidable_of_iff (C s a ∧ EachStep step C t rest) (by
        rw [EachStep, taken]
        simp only [Option.some.injEq, forall_eq'])

variable {step} {I P : σ → Prop} {C D : σ → α → Prop}

/-- A run begins in its first state. -/
theorem always_head {s : σ} {events : List α} (always : Always step P s events) : P s := by
  cases events with
  | nil => exact always
  | cons => exact always.1

theorem throughout_head {s : σ} {events : List α} (throughout : Throughout step P s events) :
    P s := by
  cases events with
  | nil => exact throughout
  | cons => exact throughout.1

/-- What holds of every state of a run holds before each of its steps. -/
theorem eachStep_of_always {s : σ} {events : List α} (always : Always step P s events) :
    EachStep step (fun s _ => P s) s events := by
  induction events generalizing s with
  | nil => trivial
  | cons a rest ih =>
    obtain ⟨here, t, taken, tail⟩ := always
    refine ⟨here, fun u other => ?_⟩
    obtain rfl : t = u := Option.some.inj (taken.symm.trans other)
    exact ih tail

/-- Two step conditions agree along every run where they agree under an invariant that
steps meeting them keep. -/
theorem eachStep_congr_of_kept (kept : ∀ s a t, I s → C s a → step s a = some t → I t)
    (agree : ∀ s a, I s → (C s a ↔ D s a)) {s : σ} {events : List α} (holds : I s) :
    EachStep step C s events ↔ EachStep step D s events := by
  induction events generalizing s with
  | nil => exact Iff.rfl
  | cons a rest ih =>
    have later : C s a → ∀ t, step s a = some t →
        (EachStep step C t rest ↔ EachStep step D t rest) :=
      fun first t taken => ih (kept s a t holds first taken)
    constructor
    · intro each
      exact ⟨(agree s a holds).mp each.1, fun t taken => (later each.1 t taken).mp (each.2 t taken)⟩
    · intro each
      have first := (agree s a holds).mpr each.1
      exact ⟨first, fun t taken => (later first t taken).mpr (each.2 t taken)⟩

/-- Two step conditions that agree under an invariant agree along every run. -/
theorem eachStep_congr (kept : ∀ s a t, I s → step s a = some t → I t)
    (agree : ∀ s a, I s → (C s a ↔ D s a)) {s : σ} {events : List α} (holds : I s) :
    EachStep step C s events ↔ EachStep step D s events :=
  eachStep_congr_of_kept (fun s a t invariant _ => kept s a t invariant) agree holds

/-- States stay in `P` and steps stay in `D` throughout a run exactly when each of
its steps meets the condition under which one step does both. -/
theorem always_and_eachStep_iff (kept : ∀ s a t, I s → step s a = some t → I t)
    (one : ∀ s a, I s → P s → (C s a ↔ D s a ∧ ∃ t, step s a = some t ∧ P t))
    {s : σ} {events : List α} (invariant : I s) (holds : P s) :
    Always step P s events ∧ EachStep step D s events ↔ EachStep step C s events := by
  induction events generalizing s with
  | nil => simp only [Always, EachStep, holds, and_self]
  | cons a rest ih =>
    constructor
    · intro both
      obtain ⟨⟨-, t, taken, tail⟩, first, later⟩ := both
      have next := always_head tail
      refine ⟨(one s a invariant holds).mpr ⟨first, t, taken, next⟩, fun u other => ?_⟩
      obtain rfl : t = u := Option.some.inj (taken.symm.trans other)
      exact (ih (kept s a t invariant taken) next).mp ⟨tail, later t taken⟩
    · intro each
      obtain ⟨first, t, taken, next⟩ := (one s a invariant holds).mp each.1
      have tail := (ih (kept s a t invariant taken) next).mpr (each.2 t taken)
      refine ⟨⟨holds, t, taken, tail.1⟩, first, fun u other => ?_⟩
      obtain rfl : t = u := Option.some.inj (taken.symm.trans other)
      exact tail.2

theorem eachStep_true (s : σ) (events : List α) : EachStep step (fun _ _ => True) s events := by
  induction events generalizing s with
  | nil => trivial
  | cons a rest ih => exact ⟨trivial, fun t _ => ih t⟩

/-- States stay in `P` throughout a run exactly when each of its steps meets the
condition under which one step does. -/
theorem always_iff (kept : ∀ s a t, I s → step s a = some t → I t)
    (one : ∀ s a, I s → P s → (C s a ↔ ∃ t, step s a = some t ∧ P t))
    {s : σ} {events : List α} (invariant : I s) (holds : P s) :
    Always step P s events ↔ EachStep step C s events := by
  have one' : ∀ s a, I s → P s → (C s a ↔ True ∧ ∃ t, step s a = some t ∧ P t) := by
    intro s a invariant holds
    rw [one s a invariant holds, true_and]
  rw [← always_and_eachStep_iff kept one' invariant holds]
  exact (and_iff_left (eachStep_true s events)).symm

/-- The rule for runs whose steps are all allowed: where one allowed step keeps `P` exactly
under the condition, a run of allowed steps does. -/
theorem always_iff_of_eachStep {L : σ → α → Prop}
    (kept : ∀ s a t, I s → L s a → step s a = some t → I t)
    (one : ∀ s a, I s → L s a → P s → (C s a ↔ ∃ t, step s a = some t ∧ P t))
    {s : σ} {events : List α} (allowed : EachStep step L s events) (invariant : I s)
    (holds : P s) : Always step P s events ↔ EachStep step C s events := by
  induction events generalizing s with
  | nil => simp only [Always, EachStep, holds]
  | cons a rest ih =>
    have step_iff := one s a invariant allowed.1 holds
    constructor
    · rintro ⟨-, t, taken, always⟩
      have next := always_head always
      refine ⟨step_iff.mpr ⟨t, taken, next⟩, fun u other => ?_⟩
      obtain rfl : t = u := Option.some.inj (taken.symm.trans other)
      exact (ih (allowed.2 t taken) (kept s a t invariant allowed.1 taken) next).mp always
    · rintro ⟨first, each⟩
      obtain ⟨t, taken, next⟩ := step_iff.mp first
      exact ⟨holds, t, taken, (ih (allowed.2 t taken) (kept s a t invariant allowed.1 taken)
        next).mpr (each t taken)⟩

/-- A rule for runs along which `B` is known to hold: states stay in `P` exactly when
each step meets the condition under which one step from a state in `B` does. -/
theorem always_iff_of_always {B : σ → Prop} (kept : ∀ s a t, I s → step s a = some t → I t)
    (one : ∀ s a, I s → B s → P s → (C s a ↔ ∃ t, step s a = some t ∧ P t))
    {s : σ} {events : List α} (bounded : Always step B s events) (invariant : I s) (holds : P s) :
    Always step P s events ↔ EachStep step C s events :=
  always_iff_of_eachStep (fun s a t invariant _ => kept s a t invariant) one
    (eachStep_of_always bounded) invariant holds

/-- Where one step under the condition does what it should and keeps the invariant,
every run whose steps meet the condition does. -/
theorem always_and_eachStep (one : ∀ s a, P s → C s a → D s a ∧ ∃ t, step s a = some t ∧ P t)
    {s : σ} {events : List α} (holds : P s) (each : EachStep step C s events) :
    Always step P s events ∧ EachStep step D s events := by
  induction events generalizing s with
  | nil => exact ⟨holds, trivial⟩
  | cons a rest ih =>
    obtain ⟨first, t, taken, next⟩ := one s a holds each.1
    have tail := ih next (each.2 t taken)
    refine ⟨⟨holds, t, taken, tail.1⟩, first, fun u other => ?_⟩
    obtain rfl : t = u := Option.some.inj (taken.symm.trans other)
    exact tail.2

/-- The states reached in a run stay in `P` exactly when each of its steps meets the
condition under which one step does. -/
theorem throughout_iff (kept : ∀ s a t, I s → step s a = some t → I t)
    (one : ∀ s a, I s → P s → (C s a ↔ ∀ t, step s a = some t → P t))
    {s : σ} {events : List α} (invariant : I s) (holds : P s) :
    Throughout step P s events ↔ EachStep step C s events := by
  induction events generalizing s with
  | nil => simp only [Throughout, EachStep, holds]
  | cons a rest ih =>
    constructor
    · rintro ⟨-, tail⟩
      have next := fun t taken => throughout_head (tail t taken)
      have first := (one s a invariant holds).mpr next
      refine ⟨first, fun t taken => ?_⟩
      exact (ih (kept s a t invariant taken) (next t taken)).mp (tail t taken)
    · rintro ⟨first, each⟩
      have next := (one s a invariant holds).mp first
      refine ⟨holds, fun t taken => ?_⟩
      exact (ih (kept s a t invariant taken) (next t taken)).mpr (each t taken)

/-- What an invariant of the steps implies holds of every state reached. -/
theorem throughout_of_invariant (kept : ∀ s a t, I s → step s a = some t → I t)
    (enough : ∀ s, I s → P s) {s : σ} {events : List α} (invariant : I s) :
    Throughout step P s events := by
  induction events generalizing s with
  | nil => exact enough s invariant
  | cons a rest ih => exact ⟨enough s invariant, fun t taken => ih (kept s a t invariant taken)⟩

/-- What an invariant of the steps implies of a step holds of every step taken. -/
theorem eachStep_of_invariant (kept : ∀ s a t, I s → step s a = some t → I t)
    (enough : ∀ s a, I s → D s a) {s : σ} {events : List α} (invariant : I s) :
    EachStep step D s events := by
  induction events generalizing s with
  | nil => trivial
  | cons a rest ih => exact ⟨enough s a invariant, fun t taken => ih (kept s a t invariant taken)⟩

/-- `Throughout` covers the last state of a run. -/
theorem throughout_last {s t : σ} {events : List α} (throughout : Throughout step P s events)
    (reached : events.foldlM step s = some t) : P t := by
  induction events generalizing s with
  | nil =>
    obtain rfl : s = t := Option.some.inj reached
    exact throughout
  | cons a rest ih =>
    rw [List.foldlM_cons, Option.bind_eq_bind, Option.bind_eq_some_iff] at reached
    obtain ⟨u, taken, tail⟩ := reached
    exact ih (throughout.2 u taken) tail

/-- `Always` reaches the end of the run. -/
theorem always_last {s t : σ} {events : List α} (always : Always step P s events)
    (reached : events.foldlM step s = some t) : P t := by
  induction events generalizing s with
  | nil =>
    obtain rfl : s = t := Option.some.inj reached
    exact always
  | cons a rest ih =>
    obtain ⟨-, u, taken, tail⟩ := always
    rw [List.foldlM_cons, taken] at reached
    exact ih tail reached

/-- `EachStep` covers the last step of a run. -/
theorem eachStep_last {s t : σ} {a : α} {events : List α}
    (each : EachStep step C s (events ++ [a])) (reached : events.foldlM step s = some t) :
    C t a := by
  induction events generalizing s with
  | nil =>
    obtain rfl : s = t := Option.some.inj reached
    exact each.1
  | cons b rest ih =>
    rw [List.foldlM_cons, Option.bind_eq_bind, Option.bind_eq_some_iff] at reached
    obtain ⟨u, taken, tail⟩ := reached
    exact ih (each.2 u taken) tail

end GasSub.Library.Run
