import GasSub.Guarantees.KernelScheduling
import GasSub.Source.OsStart

/-!
# The kernel from its start

Whatever tasks, semaphores and queues are created before `OSStart`, the kernel starts in a
sound state; from there every run keeps it.
-/
namespace GasSub.Guarantees.KernelRuns
open GasSub.Library GasSub.Library.Run GasSub.Source KernelTasks KernelInvariant KernelScheduling

/-- Before `OSStart` all tasks are ready, and nobody waits. -/
structure Fresh (k : OsKernel) : Prop where
  tcb : ∀ p t, k.osTCBPrioTbl p = some t → p < 64 ∧ t = osTCBInitial
  ready : ∀ p, inReady k p = (k.osTCBPrioTbl p).isSome
  readySound : k.osRdyTbl.Sound
  alone : ∀ e, (k.osEventTbl e).osEventTbl = .empty
  code : k.code = fun _ => .app
  unlocked : k.osLockNesting = 0
  pendSV : k.pendSV = false
  idle : k.osTCBPrioTbl osTaskIdlePrio ≠ none
  list : ListSound k

variable {k : OsKernel}

theorem osTCBInit_tcb {prio : Nat} (small : prio < 64)
    (tcb : ∀ p t, k.osTCBPrioTbl p = some t → p < 64 ∧ t = osTCBInitial) (p : Nat) (t : OsTcb)
    (here : (osTCBInit k prio).osTCBPrioTbl p = some t) : p < 64 ∧ t = osTCBInitial := by
  have entry : (osTCBInit k prio).osTCBPrioTbl =
      Function.update k.osTCBPrioTbl prio (some osTCBInitial) := rfl
  rw [entry] at here
  by_cases same : p = prio
  · subst same
    rw [Function.update_self] at here
    exact ⟨small, (Option.some.inj here).symm⟩
  · rw [Function.update_of_ne same] at here
    exact tcb p t here

theorem osTCBInit_ready {prio : Nat} (ready : ∀ p, inReady k p = (k.osTCBPrioTbl p).isSome) (p : Nat) :
    inReady (osTCBInit k prio) p = ((osTCBInit k prio).osTCBPrioTbl p).isSome := by
  have list : inReady (osTCBInit k prio) p = (decide (p = prio) || inReady k p) :=
    has_listAdd k.osRdyTbl prio p
  have entry : (osTCBInit k prio).osTCBPrioTbl =
      Function.update k.osTCBPrioTbl prio (some osTCBInitial) := rfl
  rw [list, entry, ready]
  by_cases same : p = prio
  · subst same
    rw [Function.update_self, decide_eq_true rfl, Bool.true_or, Option.isSome_some]
  · rw [Function.update_of_ne same, decide_eq_false same, Bool.false_or]

/-- A task that is created stands in front of those that are there. -/
theorem osTCBInit_list {prio : Nat} (busy : prio ≠ osTaskIdlePrio) (list : ListSound k) :
    ListSound (osTCBInit k prio) where
  ticked_iff p := by
    have passed : (osTCBInit k prio).ticked = prio :: k.ticked :=
      List.takeWhile_cons_of_pos (decide_eq_true busy)
    have entry : (osTCBInit k prio).osTCBPrioTbl =
        Function.update k.osTCBPrioTbl prio (some osTCBInitial) := rfl
    rw [passed, entry, List.mem_cons, list.ticked_iff]
    by_cases same : p = prio
    · subst same
      rw [Function.update_self]
      exact iff_of_true (Or.inl rfl) ⟨busy, nofun⟩
    · rw [Function.update_of_ne same, or_iff_right same]
  ends := List.mem_cons_of_mem _ list.ends

theorem osInit_list : ListSound osInit where
  ticked_iff p := by
    have entry : osInit.osTCBPrioTbl =
        Function.update (fun _ => none) osTaskIdlePrio (some osTCBInitial) := rfl
    rw [show osInit.ticked = [] from rfl, entry]
    refine iff_of_false List.not_mem_nil ?_
    rintro ⟨busy, exist⟩
    exact exist (Function.update_of_ne busy ..)
  ends := List.mem_singleton_self _

theorem osInit_fresh : Fresh osInit where
  tcb := osTCBInit_tcb (by decide) (by rintro p t ⟨⟩)
  ready := osTCBInit_ready PrioritySet.has_empty
  readySound := listAdd_sound PrioritySet.sound_empty (by decide)
  alone _ := rfl
  code := rfl
  unlocked := rfl
  pendSV := rfl
  idle := by
    rw [show osInit.osTCBPrioTbl osTaskIdlePrio = some osTCBInitial by rfl]
    nofun
  list := osInit_list

theorem osTaskCreate_fresh (fresh : Fresh k) (prio : Fin 64) : Fresh (osTaskCreate k prio) := by
  rw [osTaskCreate]
  split
  case isTrue missing =>
    have busy : prio.val ≠ osTaskIdlePrio := by
      intro idle
      rw [idle] at missing
      exact fresh.idle missing
    refine ⟨osTCBInit_tcb prio.isLt fresh.tcb, osTCBInit_ready fresh.ready,
      listAdd_sound fresh.readySound prio.isLt, fresh.alone, fresh.code, fresh.unlocked, fresh.pendSV, ?_,
      osTCBInit_list busy fresh.list⟩
    intro none
    have list : (osTCBInit k prio).osTCBPrioTbl osTaskIdlePrio =
        if osTaskIdlePrio = prio then some osTCBInitial else k.osTCBPrioTbl osTaskIdlePrio :=
      Function.update_apply ..
    rw [list] at none
    split at none
    · cases none
    · exact fresh.idle none
  case isFalse => exact fresh

theorem setEvent_fresh (fresh : Fresh k) (e : Nat) {event : OsEvent} (alone : event.osEventTbl = .empty) :
    Fresh (k.setEvent e event) := by
  refine ⟨fresh.tcb, fresh.ready, fresh.readySound, fun e' => ?_, fresh.code, fresh.unlocked,
    fresh.pendSV, fresh.idle, fresh.list.congr rfl fun _ => Iff.rfl⟩
  rw [show (k.setEvent e event).osEventTbl = Function.update k.osEventTbl e event from rfl]
  by_cases here : e' = e
  · subst here
    rw [Function.update_self, alone]
  · rw [Function.update_of_ne here, fresh.alone]

theorem create_fresh (fresh : Fresh k) (create : OsCreate) : Fresh (create.run k) := by
  cases create with
  | task prio => exact osTaskCreate_fresh fresh prio
  | sem pevent cnt =>
    rw [OsCreate.run, osSemCreate]
    split
    case isTrue => exact setEvent_fresh fresh pevent rfl
    case isFalse => exact fresh
  | q pevent start size =>
    rw [OsCreate.run, osQCreateEvent]
    split
    case isTrue => exact setEvent_fresh fresh pevent rfl
    case isFalse => exact fresh

theorem creates_fresh (creates : List OsCreate) (fresh : Fresh k) :
    Fresh (creates.foldl OsCreate.run k) := by
  induction creates generalizing k with
  | nil => exact fresh
  | cons create rest ih => exact ih (create_fresh fresh create)

theorem Fresh.alone_has (fresh : Fresh k) (p e : Nat) : inWait k p e = false := by
  rw [inWait, fresh.alone e]
  exact PrioritySet.has_empty p

/-- A task that has just been created is ready and waits for nothing. -/
theorem osTCBInitial_sound (type : Nat → OsEventType) :
    TcbSound type osTCBInitial .app true (fun _ => false) where
  ready_iff := iff_of_true rfl ⟨rfl, rfl⟩
  waits_iff _ := iff_of_false Bool.false_ne_true (by rintro ⟨⟨⟩, -⟩)
  stat := Or.inl (Or.inl rfl)
  settled some := absurd rfl some
  place := rfl
  kind := nofun
  patient := nofun

theorem Fresh.tasks (fresh : Fresh k) : TasksSound k where
  ready := fresh.readySound
  waiting e := by
    rw [fresh.alone e]
    exact PrioritySet.sound_empty
  task p := by
    have ready := fresh.ready p
    have waits : inWait k p = fun _ => false := funext (fresh.alone_has p)
    rw [TaskSound]
    cases here : k.osTCBPrioTbl p with
    | none =>
      rw [here] at ready
      exact ⟨ready, fresh.alone_has p⟩
    | some t =>
      obtain ⟨small, rfl⟩ := fresh.tcb p t here
      rw [here] at ready
      rw [ready, waits, fresh.code]
      exact ⟨small, osTCBInitial_sound (typeOf k)⟩
  idle := by
    obtain ⟨t, here⟩ := Option.ne_none_iff_exists'.mp fresh.idle
    obtain ⟨-, rfl⟩ := fresh.tcb _ t here
    exact ⟨osTCBInitial, here, rfl, rfl, rfl⟩
  list := fresh.list

theorem osStart_sound (fresh : Fresh k) : KernelSound (osStart k) := by
  have least := fresh.tasks.isLeast_ready
  obtain ⟨t, here⟩ := fresh.tasks.exists_of_ready least.1
  refine ⟨fresh.tasks.congr rfl rfl rfl (fun _ => rfl) rfl rfl, fun e _ p => fresh.alone_has p e, ?_⟩
  refine ⟨?_, fun _ _ _ => least, fun _ due => ?_, fun held => ?_⟩
  · exact Option.ne_none_iff_exists'.mpr ⟨t, here⟩
  · rw [show (osStart k).pendSV = k.pendSV from rfl, fresh.pendSV] at due
    cases due
  · exact absurd fresh.unlocked (Nat.ne_of_gt held)

theorem started_sound (creates : List OsCreate) : KernelSound (started creates) :=
  osStart_sound (creates_fresh creates osInit_fresh)

/-! ### Every run -/

/-- A task that can run. -/
def Ready (t : OsTcb) : Prop := t.osTCBStat = osStatRdy ∧ t.osTCBDly = 0

/-- The task that runs is ready, and no ready task is higher. -/
def HighestRuns (k : OsKernel) : Prop :=
  (∃ t, k.osTCBCur = some t ∧ Ready t) ∧
    ∀ p t, k.osTCBPrioTbl p = some t → Ready t → k.osPrioCur ≤ p

theorem highestRuns_of_sound (sound : KernelSound k) (runs : k.TaskRuns) (unlocked : k.osLockNesting = 0)
    (settled : Settled (k.code k.osPrioCur)) : HighestRuns k := by
  obtain ⟨member, least⟩ := sound.sched.running runs unlocked settled
  obtain ⟨t, here⟩ := Option.ne_none_iff_exists'.mp sound.sched.current
  refine ⟨⟨t, here, (sound.tasks.tcb here).2.ready_iff.mp member⟩, fun p u there ready => ?_⟩
  exact least p ((sound.tasks.tcb there).2.ready_iff.mpr ready)

/-- Nobody pends on an event with a count or a message. -/
def NoneInVain (k : OsKernel) : Prop :=
  ∀ e, (k.osEventTbl e).Available → ∀ p t, k.osTCBPrioTbl p = some t → t.osTCBEventPtr = some e → ¬Pending t

theorem noneInVain_of_sound (sound : KernelSound k) : NoneInVain k := by
  intro e available p t here at_event pending
  have member := ((sound.tasks.tcb here).2.waits_iff e).mpr ⟨at_event, Or.inl pending⟩
  rw [sound.missed e available p] at member
  cases member

theorem kept_sound (k : OsKernel) (a : OsAction) (r : OsKernel × Option OsDone) (sound : KernelSound k)
    (spares : Spares k a) (taken : k.step a = some r) : KernelSound r.1 := step_kept sound spares taken

/-- While a task goes on in an unlocked kernel, it is the highest that is ready, whatever
the tasks and the interrupt routines have called. -/
theorem highest_runs (creates : List OsCreate) (events : List OsAction)
    (spares : EachStep (Interleaving.next OsKernel.step) Spares (started creates) events) :
    Throughout (Interleaving.next OsKernel.step)
      (fun k => k.TaskRuns → k.osLockNesting = 0 → Settled (k.code k.osPrioCur) → HighestRuns k)
      (started creates) events := by
  exact Interleaving.throughout_of_eachStep kept_sound (fun k sound => highestRuns_of_sound sound)
    (started_sound creates) spares

/-- A semaphore handed from the lower to the higher task, which the lower one suspended before. -/
theorem highest_runs_handed :
    Throughout (Interleaving.next OsKernel.step)
      (fun k => k.TaskRuns → k.osLockNesting = 0 → Settled (k.code k.osPrioCur) → HighestRuns k)
      (started [.task 5, .task 7, .sem 0 0])
      [.call (.semPend 0 100), .sched, .pendSV, .call (.taskSuspend (some 5)), .call (.semPost 0), .sched,
        .call (.taskResume 5), .sched, .pendSV, .finish] := by
  refine highest_runs _ _ ?_
  simp [EachStep, Spares, SparesIdle, osTaskIdlePrio, osLowestPrio]

/-- No wakeup is lost. -/
theorem none_in_vain (creates : List OsCreate) (events : List OsAction)
    (spares : EachStep (Interleaving.next OsKernel.step) Spares (started creates) events) :
    Throughout (Interleaving.next OsKernel.step) NoneInVain (started creates) events := by
  exact Interleaving.throughout_of_eachStep kept_sound (fun k sound => noneInVain_of_sound sound)
    (started_sound creates) spares

theorem none_in_vain_posted :
    Throughout (Interleaving.next OsKernel.step) NoneInVain (started [.task 5, .q 0 (fun _ => 0) 8])
      [.call (.qPend 0 100), .sched, .intEnter, .tick 5, .isr (.qPost 0 42), .isr (.qPost 0 43), .intExit,
        .pendSV, .finish, .call (.qPend 0 100)] := by
  refine none_in_vain _ _ ?_
  simp [EachStep, Spares, SparesIdle]

/-! ### The walk of a tick -/

/-- Up to the idle task the walk is its passes. -/
theorem osTimeTickWalk_eq (list : List Nat) (ends : osTaskIdlePrio ∈ list) (k : OsKernel) :
    osTimeTickWalk list k = (list.takeWhile (· ≠ osTaskIdlePrio)).foldlM osTimeTickPass k := by
  induction list generalizing k with
  | nil => cases ends
  | cons prio rest ih =>
    rw [osTimeTickWalk]
    by_cases busy : prio ≠ osTaskIdlePrio
    · have later : osTaskIdlePrio ∈ rest := (List.mem_cons.mp ends).resolve_left busy.symm
      rw [if_pos busy, List.takeWhile_cons, if_pos (decide_eq_true busy), List.foldlM_cons]
      exact congrArg (osTimeTickPass k prio).bind (funext (ih later))
    · rw [if_neg busy, List.takeWhile_cons, if_neg (by simpa using busy)]
      rfl

/-- A pass leaves the list and the nesting alone. -/
theorem osTimeTickPass_keeps {k' : OsKernel} {p : Nat} (ran : osTimeTickPass k p = some k') :
    k'.ticked = k.ticked ∧ k'.osIntNesting = k.osIntNesting := by
  have expired : ∀ t, (delayOver k p t).ticked = k.ticked ∧
      (delayOver k p t).osIntNesting = k.osIntNesting := by
    intro t
    rw [delayOver]
    split <;> exact ⟨rfl, rfl⟩
  rw [osTimeTickPass] at ran
  split at ran
  next => cases ran
  next t here =>
    split at ran
    case isTrue =>
      dsimp only at ran
      split at ran <;> cases ran
      case isTrue => exact expired t
      case isFalse => exact ⟨rfl, rfl⟩
    case isFalse =>
      cases ran
      exact ⟨rfl, rfl⟩

theorem passes_defined {prios : List Nat} (sound : KernelSound k) (nested : 0 < k.osIntNesting)
    (passed : ∀ p ∈ prios, p ∈ k.ticked) :
    ∃ k', prios.foldlM osTimeTickPass k = some k' ∧
      (prios.map OsAction.tick).foldlM (Interleaving.next OsKernel.step) k = some k' := by
  induction prios generalizing k with
  | nil => exact ⟨k, rfl, rfl⟩
  | cons p rest ih =>
    have first := passed p List.mem_cons_self
    obtain ⟨k₂, ran⟩ := osTimeTickPass_defined ((sound.tasks.list.ticked_iff p).mp first).2
    obtain ⟨list, nesting⟩ := osTimeTickPass_keeps ran
    have taken : Interleaving.next OsKernel.step k (.tick p) = some k₂ := by
      rw [Interleaving.next, OsKernel.step, if_pos ⟨nested, first⟩, ran, Option.map_some, Option.map_some]
    obtain ⟨k', walk, run⟩ := ih (tick_sound sound nested first ran) (by rwa [nesting]) fun q later => by
      rw [list]
      exact passed q (List.mem_cons_of_mem _ later)
    refine ⟨k', ?_, ?_⟩
    · rw [List.foldlM_cons, ran]
      exact walk
    · rw [List.map_cons, List.foldlM_cons, taken]
      exact run

/-- A tick that nothing interrupts comes to the idle task at the end of its walk, and is a
run of the steps above. -/
theorem ticks_defined (creates : List OsCreate) (events : List OsAction)
    (spares : EachStep (Interleaving.next OsKernel.step) Spares (started creates) events) :
    Throughout (Interleaving.next OsKernel.step)
      (fun k => 0 < k.osIntNesting → ∃ k', osTimeTick k = some k' ∧
        (k.ticked.map OsAction.tick).foldlM (Interleaving.next OsKernel.step) k = some k')
      (started creates) events := by
  refine Interleaving.throughout_of_eachStep kept_sound (fun k sound nested => ?_)
    (started_sound creates) spares
  obtain ⟨k', walk, run⟩ := passes_defined sound nested fun _ passed => passed
  exact ⟨k', (osTimeTickWalk_eq _ sound.tasks.list.ends k).trans walk, run⟩

/-- Every step that the hardware and the tasks can take next has a result: no control
block is missing, and no loop over a wait list goes on. -/
theorem steps_defined (creates : List OsCreate) (events : List OsAction)
    (spares : EachStep (Interleaving.next OsKernel.step) Spares (started creates) events) :
    EachStep (Interleaving.next OsKernel.step) (fun k a => k.Enabled a ↔ k.step a ≠ none)
      (started creates) events := by
  refine Interleaving.eachStep_of_kept kept_sound (fun k a sound spares => ?_) (started_sound creates) spares
  constructor
  · intro enabled
    obtain ⟨r, taken, -⟩ := step_sound sound spares enabled
    rw [taken]
    nofun
  · intro some
    obtain ⟨r, taken⟩ := Option.ne_none_iff_exists'.mp some
    exact enabled_of_step taken

theorem steps_defined_aborted :
    EachStep (Interleaving.next OsKernel.step) (fun k a => k.Enabled a ↔ k.step a ≠ none)
      (started [.task 5, .task 7, .task 9, .sem 0 0])
      [.call (.semPend 0 0), .sched, .pendSV, .call (.semPend 0 0), .sched, .pendSV,
        .call (.semPendAbort 0 true), .sched, .pendSV, .finish] := by
  refine steps_defined _ _ ?_
  simp [EachStep, Spares, SparesIdle]

end GasSub.Guarantees.KernelRuns
