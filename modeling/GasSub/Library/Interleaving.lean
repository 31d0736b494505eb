import GasSub.Library.Run
import Mathlib.Logic.Function.Basic

/-!
# Independent components

A machine answers each event with an output. A family of copies of one machine,
each with a state of its own, takes events that name a copy. Whatever the order
of the events, every copy ends where it ends on its own events alone, with its
own outputs.
-/
namespace GasSub.Library.Interleaving
open GasSub.Library.Run

variable {ι σ τ α α' β : Type}

/-- A step without its output. -/
def next (step : σ → α → Option (σ × β)) (s : σ) (a : α) : Option σ := (step s a).map Prod.fst

/-- The last state and the outputs of a run. -/
def run (step : σ → α → Option (σ × β)) : σ → List α → Option (σ × List β)
  | s, [] => some (s, [])
  | s, a :: rest =>
    match step s a with
    | none => none
    | some first => (run step first.1 rest).map fun tail => (tail.1, first.2 :: tail.2)

theorem run_cons (step : σ → α → Option (σ × β)) {s : σ} {a : α} {first : σ × β}
    (taken : step s a = some first) (rest : List α) :
    run step s (a :: rest) =
      (run step first.1 rest).map fun tail => (tail.1, first.2 :: tail.2) := by
  rw [run, taken]

theorem run_cons_none (step : σ → α → Option (σ × β)) {s : σ} {a : α}
    (stuck : step s a = none) (rest : List α) : run step s (a :: rest) = none := by
  rw [run, stuck]

/-- A machine seen through a view of its states and of its events takes the runs of the
machine that it looks like. -/
theorem run_view {step : σ → α → Option (σ × β)} {step' : τ → α' → Option (τ × β)}
    (view : σ → τ) (label : α → α')
    (one : ∀ s a, (step s a).map (fun r => (view r.1, r.2)) = step' (view s) (label a))
    (s : σ) (events : List α) :
    (run step s events).map (fun r => (view r.1, r.2)) =
      run step' (view s) (events.map label) := by
  induction events generalizing s with
  | nil => rfl
  | cons a rest ih =>
    have here := one s a
    rw [List.map_cons]
    cases taken : step s a with
    | none =>
      rw [taken, Option.map_none] at here
      rw [run_cons_none step taken, run_cons_none step' here.symm, Option.map_none]
    | some first =>
      rw [taken, Option.map_some] at here
      rw [run_cons step taken, run_cons step' here.symm, ← ih first.1, Option.map_map,
        Option.map_map]
      rfl

/-- A machine whose steps are defined under an invariant that they keep has a run. -/
theorem run_defined {step : σ → α → Option (σ × β)} {P : σ → Prop} {C : σ → α → Prop}
    (one : ∀ s a, P s → C s a → ∃ r, step s a = some r ∧ P r.1) {s : σ} {events : List α}
    (holds : P s) (each : EachStep (next step) C s events) :
    ∃ t outs, run step s events = some (t, outs) := by
  induction events generalizing s with
  | nil => exact ⟨s, [], rfl⟩
  | cons a rest ih =>
    obtain ⟨r, taken, kept⟩ := one s a holds each.1
    have later := each.2 r.1 (by rw [next, taken, Option.map_some])
    obtain ⟨t, outs, reached⟩ := ih kept later
    exact ⟨t, r.2 :: outs, by rw [run_cons step taken, reached, Option.map_some]⟩

/-- What a step keeps under a condition holds throughout a run that meets it. -/
theorem throughout_of_eachStep {step : σ → α → Option (σ × β)} {I P : σ → Prop} {C : σ → α → Prop}
    (kept : ∀ s a r, I s → C s a → step s a = some r → I r.1) (enough : ∀ s, I s → P s)
    {s : σ} {events : List α} (holds : I s) (each : EachStep (next step) C s events) :
    Throughout (next step) P s events := by
  induction events generalizing s with
  | nil => exact enough s holds
  | cons a rest ih =>
    refine ⟨enough s holds, fun t taken => ?_⟩
    obtain ⟨r, first, rfl⟩ := Option.map_eq_some_iff.mp taken
    exact ih (kept s a r holds each.1 first) (each.2 r.1 taken)

/-- So does what holds of a step where the invariant and the condition do. -/
theorem eachStep_of_kept {step : σ → α → Option (σ × β)} {I : σ → Prop} {C D : σ → α → Prop}
    (kept : ∀ s a r, I s → C s a → step s a = some r → I r.1) (enough : ∀ s a, I s → C s a → D s a)
    {s : σ} {events : List α} (holds : I s) (each : EachStep (next step) C s events) :
    EachStep (next step) D s events := by
  induction events generalizing s with
  | nil => trivial
  | cons a rest ih =>
    refine ⟨enough s a holds each.1, fun t taken => ?_⟩
    obtain ⟨r, first, rfl⟩ := Option.map_eq_some_iff.mp taken
    exact ih (kept s a r holds each.1 first) (each.2 r.1 taken)

/-! ### A family of copies -/

variable [DecidableEq ι]

/-- The copy that the event names takes its step; the others stay. -/
def family (step : σ → α → Option (σ × β)) (s : ι → σ) (e : ι × α) :
    Option ((ι → σ) × (ι × β)) :=
  (step (s e.1) e.2).map fun r => (Function.update s e.1 r.1, (e.1, r.2))

/-- The items that belong to copy `i`, in their order. -/
def own {γ : Type} (i : ι) : List (ι × γ) → List γ
  | [] => []
  | item :: rest => if item.1 = i then item.2 :: own i rest else own i rest

theorem own_self {γ : Type} {i : ι} {item : ι × γ} (rest : List (ι × γ)) (here : item.1 = i) :
    own i (item :: rest) = item.2 :: own i rest := if_pos here

theorem own_other {γ : Type} {i : ι} {item : ι × γ} (rest : List (ι × γ)) (away : item.1 ≠ i) :
    own i (item :: rest) = own i rest := if_neg away

theorem family_eq_some {step : σ → α → Option (σ × β)} {s t : ι → σ} {e : ι × α} {out : ι × β}
    (taken : family step s e = some (t, out)) :
    ∃ r, step (s e.1) e.2 = some r ∧ t = Function.update s e.1 r.1 ∧ out = (e.1, r.2) := by
  obtain ⟨r, first, result⟩ := Option.map_eq_some_iff.mp taken
  have parts := Prod.mk.inj result
  exact ⟨r, first, parts.1.symm, parts.2.symm⟩

/-- In a run of the family each copy makes the run of its own events. -/
theorem run_own {step : σ → α → Option (σ × β)} {s t : ι → σ} {events : List (ι × α)}
    {outs : List (ι × β)} (reached : run (family step) s events = some (t, outs)) (i : ι) :
    run step (s i) (own i events) = some (t i, own i outs) := by
  induction events generalizing s outs with
  | nil =>
    obtain ⟨rfl, rfl⟩ := Prod.mk.inj (Option.some.inj reached)
    rfl
  | cons e rest ih =>
    cases taken : family step s e with
    | none =>
      rw [run_cons_none _ taken] at reached
      cases reached
    | some first =>
      obtain ⟨u, out⟩ := first
      rw [run_cons _ taken] at reached
      obtain ⟨tail, later, result⟩ := Option.map_eq_some_iff.mp reached
      obtain ⟨rfl, rfl⟩ := Prod.mk.inj result
      obtain ⟨r, one, updated, output⟩ := family_eq_some taken
      have others : run step (u i) (own i rest) = some (tail.1 i, own i tail.2) := ih later
      rw [updated] at others
      rw [output]
      by_cases here : e.1 = i
      · subst here
        rw [Function.update_self] at others
        have outputs : own e.1 ((e.1, r.2) :: tail.2) = r.2 :: own e.1 tail.2 :=
          own_self tail.2 rfl
        rw [own_self rest rfl, outputs, run_cons step one, others]
        rfl
      · rw [Function.update_of_ne (Ne.symm here)] at others
        rw [own_other rest here, own_other tail.2 here, others]

end GasSub.Library.Interleaving
