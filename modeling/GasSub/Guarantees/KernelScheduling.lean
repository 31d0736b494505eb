import GasSub.Guarantees.KernelInvariant
import GasSub.Library.Interleaving

/-!
# The scheduler over every run

Any tasks call the kernel in any order, and interrupts come between any two critical
sections. In every state reached the lists say what the control blocks say, nobody waits
for what is there, and a task that goes on while the scheduler is not locked is the
highest that is ready.
-/
namespace GasSub.Guarantees.KernelScheduling
open GasSub.Library GasSub.Source KernelTasks KernelInvariant

/-- The task that runs has not just left a critical section that calls `OS_Sched`. -/
def Settled (code : CodePoint) : Prop := ∀ pend, code ≠ .sched pend

structure SchedSound (k : OsKernel) : Prop where
  current : k.osTCBPrioTbl k.osPrioCur ≠ none
  running : k.TaskRuns → k.osLockNesting = 0 → Settled (k.code k.osPrioCur) →
    k.osRdyTbl.IsLeast k.osPrioCur
  switching : k.osIntNesting = 0 → k.pendSV = true → k.osRdyTbl.IsLeast k.osPrioHighRdy
  locked : 0 < k.osLockNesting → k.pendSV = false ∧ pendOf (k.code k.osPrioCur) = none

structure KernelSound (k : OsKernel) : Prop where
  tasks : TasksSound k
  missed : NoneMissed k
  sched : SchedSound k

/-- The idle task is never suspended. -/
def SparesIdle (k : OsKernel) : OsCall → Prop
  | .taskSuspend prio => prio.getD k.osPrioCur ≠ osTaskIdlePrio
  | _ => True

variable {k k' : OsKernel} {c : OsCall} {flow : OsFlow} {effect : OsEffect} {p e : Nat} {t : OsTcb}

/-! ### One effect -/

/-- What an effect leaves: sound tasks, nothing missed, and most of the state as it was. -/
structure Good (k k' : OsKernel) : Prop where
  tasks : TasksSound k'
  missed : NoneMissed k'
  kept : Kept k k'

theorem good_updated {ready : Bool} {waits : Nat → Bool} (tasks : TasksSound k) (missed : NoneMissed k)
    (change : Updated k k' p t ready waits) (small : p < 64) (busy : p ≠ osTaskIdlePrio)
    (tcb : TcbSound (typeOf k) t (k.code p) ready waits)
    (out : ∀ e, (k.osEventTbl e).Available → waits e = false) : Good k k' where
  tasks := tasks.updated_same change small busy tcb
  missed := missed.updated change out
  kept := change.kept

theorem good_rdy (tasks : TasksSound k) (missed : NoneMissed k) (pmsg : INT32U) (pendStat : OsStatPend)
    (handed : pendStat ≠ .timeout) (some : (k.osEventTbl e).osEventTbl.group ≠ 0) :
    ∃ k', osEventTaskRdy k e pmsg (pendBit (typeOf k e)) pendStat = Option.some k' ∧ Good k k' ∧
      (k'.osEventTbl e).osEventTbl.size < (k.osEventTbl e).osEventTbl.size := by
  obtain ⟨k', p, t, least, here, readied, change⟩ := osEventTaskRdy_updated tasks pmsg pendStat some
  obtain ⟨small, tcb⟩ := tasks.tcb here
  have member : inWait k p e = true := least.1
  have busy : p ≠ osTaskIdlePrio := by
    rintro rfl
    rw [tasks.idle_not_waiting e] at member
    cases member
  refine ⟨k', readied, good_updated tasks missed change small busy (tcb.rdy member pmsg handed) ?_, ?_⟩
  · intro e' available
    rw [missed e' available p, Bool.and_false]
  · have fewer : (k'.osEventTbl e).osEventTbl.size =
        ((k.osEventTbl e).osEventTbl.erase p).size := by
      refine congrArg Finset.card (Finset.filter_congr fun q _ => ?_)
      have := change.waits q e
      rw [inWait, inWait] at this
      rw [this, PrioritySet.has_erase _ p q (by decide)]
      by_cases same : q = p <;> simp [same, inWait]
    have := PrioritySet.size_erase (tasks.waiting e) least.1
    omega

theorem good_rdyAll (tasks : TasksSound k) (missed : NoneMissed k) (e : Nat) :
    ∃ r, osEventTaskRdyAll e 0 (pendBit (typeOf k e)) .abort osMaxWaiters k = some r ∧ Good k r.2 := by
  have pass : ∀ next, Good k next → (next.osEventTbl e).osEventTbl.group ≠ 0 →
      ∃ last, osEventTaskRdy next e 0 (pendBit (typeOf k e)) .abort = some last ∧ Good k last ∧
        (last.osEventTbl e).osEventTbl.size < (next.osEventTbl e).osEventTbl.size := by
    intro next good waiting
    obtain ⟨last, readied, after, fewer⟩ := good_rdy good.tasks good.missed 0 .abort (by decide) waiting
    rw [good.kept.types] at readied
    exact ⟨last, readied, ⟨after.tasks, after.missed, good.kept.trans after.kept⟩, fewer⟩
  have start : Good k k := ⟨tasks, missed, Kept.refl k⟩
  have enough : (k.osEventTbl e).osEventTbl.size < osMaxWaiters :=
    Nat.lt_of_le_of_lt (PrioritySet.size_le _) (by decide)
  obtain ⟨r, ran⟩ := osEventTaskRdyAll_defined pass osMaxWaiters enough start
  refine ⟨r, ran, osEventTaskRdyAll_induct (P := Good k) (fun next last good waiting readied => ?_) ran start⟩
  obtain ⟨last', readied', after, -⟩ := pass next good waiting
  rw [readied] at readied'
  cases readied'
  exact after

/-- A count or a queue is changed only where nobody waits. -/
theorem good_value {event : OsEvent} (tasks : TasksSound k) (missed : NoneMissed k)
    (change : ValueChange (k.osEventTbl e) event) : Good k (k.setEvent e event) := by
  have same : event.osEventType = (k.osEventTbl e).osEventType ∧
      event.osEventTbl = (k.osEventTbl e).osEventTbl := by
    cases change <;> exact ⟨rfl, rfl⟩
  have alone : ∀ p, inWait k p e = false := by
    have of_group : (k.osEventTbl e).osEventTbl.group = 0 → ∀ p, inWait k p e = false :=
      (PrioritySet.group_eq_zero_iff (tasks.waiting e)).mp
    cases change with
    | count _ _ free => exact free.elim (missed e) of_group
    | extract _ free => exact missed e free
    | insert _ _ free => exact of_group free
    | insertFront _ _ free => exact of_group free
  have lists : ∀ e', ((k.setEvent e event).osEventTbl e').osEventTbl = (k.osEventTbl e').osEventTbl := by
    intro e'
    by_cases here : e' = e
    · subst here
      simpa [OsKernel.setEvent] using same.2
    · simp [OsKernel.setEvent, here]
  have types : typeOf (k.setEvent e event) = typeOf k := by
    funext e'
    by_cases here : e' = e
    · subst here
      simpa [typeOf, OsKernel.setEvent] using same.1
    · simp [typeOf, OsKernel.setEvent, here]
  refine ⟨tasks.congr rfl rfl rfl lists types rfl, ?_, ⟨rfl, rfl, rfl, rfl, rfl, rfl, types, fun _ => id⟩⟩
  intro e' available q
  rw [inWait, lists]
  by_cases here : e' = e
  · subst here
    exact alone q
  · refine missed e' ?_ q
    simpa [OsKernel.setEvent, here] using available

theorem good_expire (tasks : TasksSound k) (missed : NoneMissed k) (here : k.osTCBPrioTbl p = some t)
    (busy : p ≠ osTaskIdlePrio) (runs : t.osTCBDly ≠ 0) : Good k (delayOver k p t) := by
  obtain ⟨small, tcb⟩ := tasks.tcb here
  exact good_updated tasks missed (delayOver_updated tasks here) small busy (tcb.delayOver runs)
    fun e available => missed e available p

theorem good_suspend (tasks : TasksSound k) (missed : NoneMissed k) (here : k.osTCBPrioTbl p = some t)
    (busy : p ≠ osTaskIdlePrio) :
    Good k ((k.makeUnready p).setTcb p { t with osTCBStat := t.osTCBStat ||| osStatSuspend }) := by
  obtain ⟨small, tcb⟩ := tasks.tcb here
  exact good_updated tasks missed (unready_updated tasks here _) small busy tcb.suspend
    fun e available => missed e available p

theorem good_resume (tasks : TasksSound k) (missed : NoneMissed k) (here : k.osTCBPrioTbl p = some t)
    (suspended : t.osTCBStat &&& osStatSuspend ≠ osStatRdy) :
    ∃ k', OsEffect.apply k (.resume p) = some k' ∧ Good k k' := by
  obtain ⟨small, tcb⟩ := tasks.tcb here
  obtain ⟨k', applied, change⟩ := resume_updated tasks p here
  have busy : p ≠ osTaskIdlePrio := by
    rintro rfl
    obtain ⟨t', there, clear, -⟩ := tasks.idle
    obtain rfl : t = t' := Option.some.inj (here.symm.trans there)
    rw [clear] at suspended
    exact suspended rfl
  exact ⟨k', applied, good_updated tasks missed change small busy (tcb.resume suspended)
    fun e available => missed e available p⟩

theorem good_delay (tasks : TasksSound k) (missed : NoneMissed k) (here : k.osTCBCur = some t)
    (app : k.code k.osPrioCur = .app) (busy : k.osPrioCur ≠ osTaskIdlePrio) {ticks : INT32U}
    (some : ticks ≠ 0) :
    Good k ((k.makeUnready k.osPrioCur).setTcb k.osPrioCur { t with osTCBDly := ticks }) := by
  obtain ⟨small, tcb⟩ := tasks.tcb here
  rw [app] at tcb
  refine good_updated tasks missed (unready_updated tasks here _) small busy ?_
    fun e available => missed e available k.osPrioCur
  rw [app]
  exact tcb.delay some

/-- Every effect but a wait and a change of the lock. -/
theorem good_apply (tasks : TasksSound k) (missed : NoneMissed k)
    (current : k.osTCBPrioTbl k.osPrioCur ≠ none)
    (called : k.osIntNesting = 0 → k.code k.osPrioCur = .app ∧ k.osPrioCur ≠ osTaskIdlePrio)
    (spares : SparesIdle k c) (shape : Shape k c flow effect) (returns : flow ≠ .wait)
    (unlocked : ∀ n, effect ≠ .lock n) : ∃ k', effect.apply k = some k' ∧ Good k k' := by
  obtain ⟨t, here⟩ := Option.ne_none_iff_exists'.mp current
  cases shape with
  | keep => exact ⟨k, rfl, tasks, missed, Kept.refl k⟩
  | value _ pevent event _ change => exact ⟨_, rfl, good_value tasks missed change⟩
  | lock _ n => exact absurd rfl (unlocked n)
  | unlock => exact absurd rfl (unlocked 0)
  | rdy _ pevent pmsg pendStat _ handed some =>
    obtain ⟨k', readied, good, -⟩ := good_rdy tasks missed pmsg pendStat handed some
    exact ⟨k', readied, good⟩
  | rdyAll _ pevent =>
    obtain ⟨r, ran, good⟩ := good_rdyAll tasks missed pevent
    exact ⟨r.2, congrArg (Option.map Prod.snd) ran, good⟩
  | wait => exact absurd rfl returns
  | delay _ ticks some task =>
    obtain ⟨app, busy⟩ := called task
    refine ⟨_, ?_, good_delay tasks missed here app busy some⟩
    rw [OsEffect.apply, OsKernel.osTCBCur, here, Option.map_some]
  | expire _ prio ptcb task there runs =>
    exact ⟨_, by rw [OsEffect.apply, there, Option.map_some], good_expire tasks missed there task runs⟩
  | expireSuspended _ prio ptcb task there runs =>
    exact ⟨_, by rw [OsEffect.apply, there, Option.map_some], good_expire tasks missed there task runs⟩
  | suspendSelf _ prio self called =>
    subst called
    rw [SparesIdle, self] at spares
    exact ⟨_, by rw [OsEffect.apply, here, Option.map_some], good_suspend tasks missed here spares⟩
  | suspendOther _ prio ptcb there other called =>
    subst called
    exact ⟨_, by rw [OsEffect.apply, there, Option.map_some], good_suspend tasks missed there spares⟩
  | resume _ prio ptcb there suspended => exact good_resume tasks missed there suspended
  | resumeWaiting _ prio ptcb there suspended => exact good_resume tasks missed there suspended

/-! ### A critical section of a call -/

theorem delayOver_suspended (t : OsTcb) :
    t.delayOver.osTCBStat &&& osStatSuspend = t.osTCBStat &&& osStatSuspend := by
  have mask : ~~~osStatPendAny &&& osStatSuspend = osStatSuspend := by decide
  rw [OsTcb.delayOver]
  split
  · rw [BitVec.and_assoc, mask]
  · rfl

/-- A call that returns at once leaves the running task the highest, if it was. -/
theorem least_of_ret {r : OsRet} (shape : Shape k c (.ret r) effect) (applied : effect.apply k = some k')
    (unlocked : k'.osLockNesting = 0) (least : k.osLockNesting = 0 → k.osRdyTbl.IsLeast k.osPrioCur) :
    k'.osRdyTbl.IsLeast k.osPrioCur := by
  cases shape with
  | keep =>
    cases applied
    exact least unlocked
  | value =>
    cases applied
    exact least unlocked
  | lock _ n task locked =>
    cases applied
    exact absurd unlocked (by simpa using Nat.ne_of_gt locked)
  | expireSuspended _ prio ptcb _ here _ suspended =>
    rw [OsEffect.apply, here, Option.map_some, Option.some.injEq] at applied
    rw [delayOver, if_neg (by rw [delayOver_suspended]; exact suspended)] at applied
    subst applied
    exact least unlocked
  | suspendOther _ prio ptcb here other =>
    rw [OsEffect.apply, here, Option.map_some, Option.some.injEq] at applied
    subst applied
    have erased : (listRemove k.osRdyTbl prio).IsLeast k.osPrioCur := by
      rw [listRemove_eq]
      exact (least unlocked).erase other.symm (by decide)
    exact erased
  | resumeWaiting _ prio ptcb here _ waits =>
    rw [OsEffect.apply, here, Option.map_some, Option.some.injEq] at applied
    dsimp only at applied
    rw [if_neg waits] at applied
    subst applied
    exact least unlocked

/-- What the critical section of a call leaves that does not wait. -/
structure CallSound (k k' : OsKernel) : Prop where
  tasks : TasksSound k'
  missed : NoneMissed k'
  code : k'.code = k.code
  intNesting : k'.osIntNesting = k.osIntNesting
  prioCur : k'.osPrioCur = k.osPrioCur
  prioHighRdy : k'.osPrioHighRdy = k.osPrioHighRdy
  pendSV : k'.pendSV = k.pendSV
  current : k'.osTCBPrioTbl k.osPrioCur ≠ none
  lockNesting : 0 < k.osIntNesting → k'.osLockNesting = k.osLockNesting

theorem callSound_of_good (good : Good k k') (current : k.osTCBPrioTbl k.osPrioCur ≠ none) :
    CallSound k k' where
  tasks := good.tasks
  missed := good.missed
  code := good.kept.code
  intNesting := good.kept.intNesting
  prioCur := good.kept.prioCur
  prioHighRdy := good.kept.prioHighRdy
  pendSV := good.kept.pendSV
  current := good.kept.tasks _ current
  lockNesting _ := good.kept.lockNesting

theorem callSound_lock (tasks : TasksSound k) (missed : NoneMissed k)
    (current : k.osTCBPrioTbl k.osPrioCur ≠ none) (task : k.osIntNesting = 0) (n : Nat) :
    CallSound k { k with osLockNesting := n } where
  tasks := tasks.congr rfl rfl rfl (fun _ => rfl) rfl rfl
  missed := missed
  code := rfl
  intNesting := rfl
  prioCur := rfl
  prioHighRdy := rfl
  pendSV := rfl
  current := current
  lockNesting nested := absurd task (Nat.ne_of_gt nested)

theorem apply_callSound (tasks : TasksSound k) (missed : NoneMissed k)
    (current : k.osTCBPrioTbl k.osPrioCur ≠ none)
    (called : k.osIntNesting = 0 → k.code k.osPrioCur = .app ∧ k.osPrioCur ≠ osTaskIdlePrio)
    (spares : SparesIdle k c) (shape : Shape k c flow effect) (returns : flow ≠ .wait)
    (applied : effect.apply k = some k') : CallSound k k' := by
  have of_good : (∀ n, effect ≠ .lock n) → CallSound k k' := by
    intro unlocked
    obtain ⟨after, same, good⟩ := good_apply tasks missed current called spares shape returns unlocked
    rw [applied] at same
    cases same
    exact callSound_of_good good current
  cases shape with
  | lock _ n task =>
    cases applied
    exact callSound_lock tasks missed current task n
  | unlock _ task =>
    cases applied
    exact callSound_lock tasks missed current task 0
  | wait => exact absurd rfl returns
  | keep => exact of_good nofun
  | value => exact of_good nofun
  | rdy => exact of_good nofun
  | rdyAll => exact of_good nofun
  | delay => exact of_good nofun
  | expire => exact of_good nofun
  | expireSuspended => exact of_good nofun
  | suspendSelf => exact of_good nofun
  | suspendOther => exact of_good nofun
  | resume => exact of_good nofun
  | resumeWaiting => exact of_good nofun

/-- A pend that waits. -/
theorem wait_sound (tasks : TasksSound k) (missed : NoneMissed k) (here : k.osTCBCur = some t)
    (app : k.code k.osPrioCur = .app) (busy : k.osPrioCur ≠ osTaskIdlePrio) {pend : OsPend}
    (kind : typeOf k pend.pevent = pend.kind) (used : pend.kind ≠ .unused)
    (none : ¬(k.osEventTbl pend.pevent).Available) :
    ∃ k', osEventTaskWait k pend.pevent (pendBit pend.kind) pend.timeout = some k' ∧ Kept k k' ∧
      TasksSound (k'.setCode k.osPrioCur (.sched (some pend))) ∧ NoneMissed k' := by
  obtain ⟨k', waited, change⟩ := osEventTaskWait_updated tasks here pend.pevent (pendBit pend.kind) pend.timeout
  obtain ⟨small, tcb⟩ := tasks.tcb here
  rw [app] at tcb
  refine ⟨k', waited, change.kept, tasks.updated _ change small busy (tcb.wait pend kind used), ?_⟩
  refine missed.updated change fun e available => ?_
  have other : e ≠ pend.pevent := by
    rintro rfl
    exact none available
  rw [missed e available, Bool.or_false, decide_eq_false other]

/-! ### Calls are defined -/

theorem pendBit_sem {event : OsEvent} (kind : ¬event.osEventType ≠ .sem) :
    osStatSem = pendBit event.osEventType := by
  rw [not_not.mp kind]
  rfl

theorem pendBit_q {event : OsEvent} (kind : ¬event.osEventType ≠ .q) :
    osStatQ = pendBit event.osEventType := by
  rw [not_not.mp kind]
  rfl

theorem osPendAbort_defined (tasks : TasksSound k) (missed : NoneMissed k) (kind : OsEventType)
    (broadcast : Bool) : ∃ r, osPendAbort kind (pendBit kind) k e broadcast = some r := by
  simp only [osPendAbort]
  split
  · exact ⟨_, rfl⟩
  · next of_kind =>
    obtain rfl : typeOf k e = kind := not_not.mp of_kind
    split
    · next some =>
      split
      · obtain ⟨r, ran, -⟩ := good_rdyAll tasks missed e
        exact ⟨_, by rw [ran, Option.map_some]⟩
      · obtain ⟨next, readied, -⟩ := good_rdy tasks missed 0 .abort (by decide) some
        exact ⟨_, by rw [readied, Option.map_some]⟩
    · exact ⟨_, rfl⟩

theorem osQPostWith_defined (tasks : TasksSound k) (missed : NoneMissed k)
    (insert : OsQ → INT32U → OsQ) (pmsg : INT32U) : ∃ r, osQPostWith insert k e pmsg = some r := by
  simp only [osQPostWith]
  split
  · exact ⟨_, rfl⟩
  · next kind =>
    split
    · next some =>
      obtain ⟨next, readied, -⟩ := good_rdy tasks missed pmsg .ok (by decide) some
      rw [pendBit_q kind]
      rw [typeOf] at readied
      exact ⟨_, by rw [readied, Option.map_some]⟩
    · split <;> exact ⟨_, rfl⟩

/-- No call meets a priority without a task, and every loop of it ends. -/
theorem run_defined (tasks : TasksSound k) (missed : NoneMissed k)
    (current : k.osTCBPrioTbl k.osPrioCur ≠ none) (c : OsCall) : ∃ r, c.run k = some r := by
  obtain ⟨t, here⟩ := Option.ne_none_iff_exists'.mp current
  have here : k.osTCBCur = some t := here
  have waits : ∀ e msk timeout, ∃ r : OsFlow × OsKernel,
      (osEventTaskWait k e msk timeout).map (fun k => (OsFlow.wait, k)) = some r := by
    intro e msk timeout
    obtain ⟨k', waited, -⟩ := osEventTaskWait_updated tasks here e msk timeout
    exact ⟨_, by rw [waited, Option.map_some]⟩
  cases c with
  | semPend pevent timeout =>
    simp only [OsCall.run, osSemPend]
    split
    · exact ⟨_, rfl⟩
    · split
      · exact ⟨_, rfl⟩
      · split
        · exact ⟨_, rfl⟩
        · split
          · exact ⟨_, rfl⟩
          · exact waits _ _ _
  | qPend pevent timeout =>
    simp only [OsCall.run, osQPend]
    split
    · exact ⟨_, rfl⟩
    · split
      · exact ⟨_, rfl⟩
      · split
        · exact ⟨_, rfl⟩
        · split
          · exact ⟨_, rfl⟩
          · exact waits _ _ _
  | semPendAbort pevent broadcast => exact osPendAbort_defined tasks missed .sem broadcast
  | qPendAbort pevent broadcast => exact osPendAbort_defined tasks missed .q broadcast
  | semPost pevent =>
    simp only [OsCall.run, osSemPost]
    split
    · exact ⟨_, rfl⟩
    · next kind =>
      split
      · next some =>
        obtain ⟨next, readied, -⟩ := good_rdy tasks missed 0 .ok (by decide) some
        rw [pendBit_sem kind]
        rw [typeOf] at readied
        exact ⟨_, by rw [readied, Option.map_some]⟩
      · split <;> exact ⟨_, rfl⟩
  | qPost pevent pmsg => exact osQPostWith_defined tasks missed _ pmsg
  | qPostFront pevent pmsg => exact osQPostWith_defined tasks missed _ pmsg
  | timeDly ticks =>
    simp only [OsCall.run, osTimeDly]
    split
    · exact ⟨_, rfl⟩
    · split
      · exact ⟨_, rfl⟩
      · split
        · exact ⟨_, by rw [here]⟩
        · exact ⟨_, rfl⟩
  | semAccept => exact ⟨_, rfl⟩
  | semSet => exact ⟨_, rfl⟩
  | qAccept => exact ⟨_, rfl⟩
  | timeDlyResume => exact ⟨_, rfl⟩
  | taskResume => exact ⟨_, rfl⟩
  | taskSuspend => exact ⟨_, rfl⟩
  | schedLock => exact ⟨_, rfl⟩
  | schedUnlock => exact ⟨_, rfl⟩

/-! ### One step -/

theorem osSwitch_cases (k : OsKernel) :
    (k.osIntNesting = 0 ∧ k.osLockNesting = 0 ∧
      osSwitch k = { k with osPrioHighRdy := listHighest k.osRdyTbl, pendSV := true }) ∨
    (listHighest k.osRdyTbl = k.osPrioCur ∧
      osSwitch k = { k with osPrioHighRdy := listHighest k.osRdyTbl }) ∨
    (¬(k.osIntNesting = 0 ∧ k.osLockNesting = 0) ∧ osSwitch k = k) := by
  rw [osSwitch]
  split
  case isTrue free =>
    by_cases same : listHighest k.osRdyTbl = k.osPrioCur
    · exact Or.inr (Or.inl ⟨same, if_neg (not_not.mpr same)⟩)
    · exact Or.inl ⟨free.1, free.2, if_pos same⟩
  case isFalse busy => exact Or.inr (Or.inr ⟨busy, rfl⟩)

/-- The scheduler leaves the tasks alone. -/
theorem osSwitch_tasks (tasks : TasksSound k) (missed : NoneMissed k) :
    TasksSound (osSwitch k) ∧ NoneMissed (osSwitch k) ∧ (osSwitch k).code = k.code ∧
      (osSwitch k).osPrioCur = k.osPrioCur := by
  rcases osSwitch_cases k with ⟨-, -, same⟩ | ⟨-, same⟩ | ⟨-, same⟩ <;> rw [same]
  · exact ⟨tasks.congr rfl rfl rfl (fun _ => rfl) rfl rfl, missed, rfl, rfl⟩
  · exact ⟨tasks.congr rfl rfl rfl (fun _ => rfl) rfl rfl, missed, rfl, rfl⟩
  · exact ⟨tasks, missed, rfl, rfl⟩

theorem osSwitch_code (k : OsKernel) : ({ osSwitch k with code := k.code } : OsKernel) = osSwitch k := by
  rcases osSwitch_cases k with ⟨-, -, same⟩ | ⟨-, same⟩ | ⟨-, same⟩ <;> rw [same]

/-- After the scheduler a switch to the highest task is due, or the highest task runs. -/
theorem osSwitch_sched (tasks : TasksSound k) (current : k.osTCBPrioTbl k.osPrioCur ≠ none)
    (code : Nat → CodePoint)
    (locked : 0 < k.osLockNesting → k.pendSV = false ∧ pendOf (code k.osPrioCur) = none) :
    SchedSound { osSwitch k with code := code } := by
  have least := tasks.isLeast_ready
  rcases osSwitch_cases k with ⟨-, free, same⟩ | ⟨highest, same⟩ | ⟨busy, same⟩ <;> rw [same]
  · refine ⟨current, fun runs => ?_, fun _ _ => least, fun held => ?_⟩
    · cases runs.2
    · exact absurd free (Nat.ne_of_gt held)
  · rw [highest] at least
    refine ⟨current, fun _ _ _ => least, fun _ _ => ?_, locked⟩
    rw [highest]
    exact least
  · refine ⟨current, fun runs free => absurd ⟨runs.1, free⟩ busy, fun task due => ?_, locked⟩
    have held : 0 < k.osLockNesting := Nat.pos_of_ne_zero fun free => busy ⟨task, free⟩
    rw [show k.pendSV = true from due] at locked
    cases (locked held).1

/-- In an interrupt routine only the lock matters. -/
theorem sched_of_nested (sched : SchedSound k) (nested : 0 < k'.osIntNesting)
    (current : k'.osTCBPrioTbl k'.osPrioCur ≠ none) (code : k'.code = k.code)
    (prioCur : k'.osPrioCur = k.osPrioCur) (pendSV : k'.pendSV = k.pendSV)
    (lock : k'.osLockNesting = k.osLockNesting) : SchedSound k' where
  current := current
  running runs := absurd runs.1 (Nat.ne_of_gt nested)
  switching task := absurd task (Nat.ne_of_gt nested)
  locked := by
    rw [lock, pendSV, code, prioCur]
    exact sched.locked

theorem call_sound (sound : KernelSound k) (runs : k.TaskRuns) (app : k.code k.osPrioCur = .app)
    (busy : k.osPrioCur ≠ osTaskIdlePrio) (spares : SparesIdle k c) (ran : c.run k = some (flow, k'))
    {r : OsKernel × Option OsDone} (after : OsKernel.afterCall k.osPrioCur c (flow, k') = some r) :
    KernelSound r.1 := by
  obtain ⟨tasks, missed, sched⟩ := sound
  have called : k.osIntNesting = 0 → k.code k.osPrioCur = .app ∧ k.osPrioCur ≠ osTaskIdlePrio :=
    fun _ => ⟨app, busy⟩
  obtain ⟨effect, shape, applied⟩ := run_does ran
  have least : k.osLockNesting = 0 → k.osRdyTbl.IsLeast k.osPrioCur := fun free =>
    sched.running runs free (by rw [app]; nofun)
  cases flow with
  | ret r =>
    cases after
    have left := apply_callSound tasks missed sched.current called spares shape nofun applied
    refine ⟨left.tasks, left.missed, ?_, fun _ free _ => ?_, fun _ due => ?_, fun _ => ?_⟩
    · rw [left.prioCur]
      exact left.current
    · rw [left.prioCur]
      exact least_of_ret shape applied free least
    · rw [left.pendSV, runs.2] at due
      cases due
    · rw [left.pendSV, left.code, left.prioCur, app]
      exact ⟨runs.2, rfl⟩
  | sched r =>
    cases after
    have left := apply_callSound tasks missed sched.current called spares shape nofun applied
    have moved : (k'.setCode k.osPrioCur (.sched none)).code k.osPrioCur = .sched none :=
      Function.update_self ..
    refine ⟨left.tasks.goOn _ (by rw [left.code, app]; rfl), left.missed, ?_, fun _ _ settled => ?_,
      fun _ due => ?_, fun _ => ?_⟩
    · rw [show (k'.setCode k.osPrioCur (.sched none)).osPrioCur = k.osPrioCur from left.prioCur]
      exact left.current
    · rw [show (k'.setCode k.osPrioCur (.sched none)).osPrioCur = k.osPrioCur from left.prioCur,
        moved] at settled
      exact absurd rfl (settled none)
    · rw [show (k'.setCode k.osPrioCur (.sched none)).pendSV = k.pendSV from left.pendSV, runs.2] at due
      cases due
    · rw [show (k'.setCode k.osPrioCur (.sched none)).osPrioCur = k.osPrioCur from left.prioCur, moved]
      exact ⟨left.pendSV.trans runs.2, rfl⟩
  | wait =>
    cases after
    cases shape with
    | wait pend about waits kind used task free none =>
      obtain ⟨t, here⟩ := Option.ne_none_iff_exists'.mp sched.current
      obtain ⟨k₂, waited, kept, tasks', missed'⟩ := wait_sound tasks missed here app busy kind used none
      obtain rfl : k₂ = k' := Option.some.inj (waited.symm.trans applied)
      rw [waits]
      have cur : (k₂.setCode k.osPrioCur (.sched (some pend))).osPrioCur = k.osPrioCur := kept.prioCur
      have moved : (k₂.setCode k.osPrioCur (.sched (some pend))).code k.osPrioCur = .sched (some pend) :=
        Function.update_self ..
      refine ⟨tasks', missed', ?_, fun _ _ settled => ?_, fun _ due => ?_, fun held => ?_⟩
      · rw [cur]
        exact kept.tasks _ sched.current
      · rw [cur, moved] at settled
        exact absurd rfl (settled (some pend))
      · rw [show (k₂.setCode k.osPrioCur (.sched (some pend))).pendSV = k.pendSV from kept.pendSV,
          runs.2] at due
        cases due
      · rw [show (k₂.setCode k.osPrioCur (.sched (some pend))).osLockNesting = k.osLockNesting from
          kept.lockNesting, free] at held
        exact absurd held (Nat.lt_irrefl 0)

theorem isr_sound (sound : KernelSound k) (nested : 0 < k.osIntNesting) (spares : SparesIdle k c)
    (ran : c.run k = some (flow, k')) : flow ≠ .wait ∧ KernelSound k' := by
  obtain ⟨tasks, missed, sched⟩ := sound
  have called : k.osIntNesting = 0 → k.code k.osPrioCur = .app ∧ k.osPrioCur ≠ osTaskIdlePrio :=
    fun task => absurd task (Nat.ne_of_gt nested)
  obtain ⟨effect, shape, applied⟩ := run_does ran
  have returns : flow ≠ .wait := by
    rintro rfl
    cases shape with
    | wait _ _ _ _ _ task => exact absurd task (Nat.ne_of_gt nested)
  have left := apply_callSound tasks missed sched.current called spares shape returns applied
  refine ⟨returns, left.tasks, left.missed, ?_⟩
  refine sched_of_nested sched ?_ ?_ left.code left.prioCur left.pendSV (left.lockNesting nested)
  · rw [left.intNesting]
    exact nested
  · rw [left.prioCur]
    exact left.current

theorem sched_sound (sound : KernelSound k) (runs : k.TaskRuns) {pend : Option OsPend}
    (here : k.code k.osPrioCur = .sched pend) : KernelSound (k.afterSched pend) := by
  obtain ⟨tasks, missed, sched⟩ := sound
  obtain ⟨tasks', missed', code, cur⟩ := osSwitch_tasks tasks missed
  have after : ∀ point, pendOf point = pend →
      KernelSound ((osSched k).setCode k.osPrioCur point) := by
    intro point same
    refine ⟨?_, missed', ?_⟩
    · refine tasks'.goOn point ?_
      rw [code, here]
      exact same
    · have found := osSwitch_sched tasks sched.current (Function.update k.code k.osPrioCur point) (by
        intro held
        rw [Function.update_self, same]
        have free := (sched.locked held).2
        rw [here] at free
        exact ⟨runs.2, free⟩)
      rw [← code] at found
      exact found
  cases pend with
  | none => exact after .app rfl
  | some pend => exact after (.finish pend) rfl

/-- The rest of a pend, by the control block of the task that runs it. -/
theorem finish_eq (here : k.osTCBCur = some t) (pend : OsPend) :
    ∃ pmsg cleared, pend.finish k = some (osPendFinish k t pend.pevent pmsg cleared) := by
  rw [OsPend.finish]
  split
  · exact ⟨t.osTCBMsg, 0, by rw [osQPendFinish, here]⟩
  · exact ⟨0, t.osTCBMsg, by rw [osSemPendFinish, here]⟩

theorem osPendFinish_updated (tasks : TasksSound k) (here : k.osTCBCur = some t) (e : Nat)
    (pmsg cleared : INT32U) :
    Updated k (osPendFinish k t e pmsg cleared).2 k.osPrioCur
      { t with
        osTCBStat := osStatRdy, osTCBStatPend := .ok, osTCBEventPtr := none, osTCBMsg := cleared }
      (inReady k k.osPrioCur)
      (fun e' => if t.osTCBStatPend = .timeout then !decide (e' = e) && inWait k k.osPrioCur e'
        else inWait k k.osPrioCur e') := by
  rw [osPendFinish]
  cases stat : t.osTCBStatPend with
  | ok =>
    simp only [reduceCtorEq, if_false]
    exact tasks.setTcb here _
  | abort =>
    simp only [reduceCtorEq, if_false]
    exact tasks.setTcb here _
  | timeout =>
    simp only [if_true]
    exact (tasks.setTcb here _).remove e

/-- A task that finishes a pend has been made ready: nothing is left of its wait. -/
theorem finishing_ready (sound : KernelSound k) (runs : k.TaskRuns) {pend : OsPend}
    (here : k.code k.osPrioCur = .finish pend) : inReady k k.osPrioCur = true := by
  have free : k.osLockNesting = 0 := by
    by_contra held
    have none := (sound.sched.locked (Nat.pos_of_ne_zero held)).2
    rw [here] at none
    cases none
  exact (sound.sched.running runs free (by rw [here]; nofun)).1

theorem finish_sound (sound : KernelSound k) (runs : k.TaskRuns) {pend : OsPend}
    (here : k.code k.osPrioCur = .finish pend) :
    ∃ r, pend.finish k = some r ∧ KernelSound (r.2.setCode k.osPrioCur .app) := by
  have ready := finishing_ready sound runs here
  obtain ⟨tasks, missed, sched⟩ := sound
  obtain ⟨t, there⟩ := Option.ne_none_iff_exists'.mp sched.current
  have there : k.osTCBCur = some t := there
  obtain ⟨small, tcb⟩ := tasks.tcb there
  rw [here, ready] at tcb
  have busy : k.osPrioCur ≠ osTaskIdlePrio := by
    intro idle
    obtain ⟨t', found, -, -, free⟩ := tasks.idle
    rw [← idle] at found
    obtain rfl : t = t' := Option.some.inj (there.symm.trans found)
    rw [← tcb.place] at free
    cases free
  obtain ⟨pmsg, cleared, same⟩ := finish_eq there pend
  have change := osPendFinish_updated tasks there pend.pevent pmsg cleared
  rw [ready] at change
  have after := tasks.updated .app change small busy (tcb.finish cleared)
  have least := sched.running runs (by
    by_contra held
    have none := (sched.locked (Nat.pos_of_ne_zero held)).2
    rw [here] at none
    cases none) (by rw [here]; nofun)
  generalize osPendFinish k t pend.pevent pmsg cleared = r at same change after
  have none_missed : NoneMissed r.2 := by
    refine missed.updated change fun e available => ?_
    rw [missed e available, Bool.and_false, ite_self]
  refine ⟨r, same, after, none_missed, ?_⟩
  · have cur : (r.2.setCode k.osPrioCur .app).osPrioCur = k.osPrioCur := change.prioCur
    have moved : (r.2.setCode k.osPrioCur .app).code k.osPrioCur = .app := Function.update_self ..
    refine ⟨?_, fun _ _ _ => ?_, fun _ due => ?_, fun _ => ?_⟩
    · rw [cur]
      exact change.kept.tasks _ sched.current
    · rw [cur]
      have same_ready : ∀ q, inReady (r.2.setCode k.osPrioCur .app) q = inReady k q := by
        intro q
        refine (change.ready q).trans ?_
        split
        · next at_cur => rw [at_cur, ready]
        · rfl
      exact ⟨(same_ready _).trans least.1, fun q member => least.2 q ((same_ready q).symm.trans member)⟩
    · rw [show (r.2.setCode k.osPrioCur .app).pendSV = k.pendSV from change.pendSV, runs.2] at due
      cases due
    · rw [cur, moved]
      exact ⟨change.pendSV.trans runs.2, rfl⟩

theorem pendSV_sound (sound : KernelSound k) (task : k.osIntNesting = 0) (due : k.pendSV = true) :
    ∃ k', pendSVHandler k = some k' ∧ KernelSound k' := by
  obtain ⟨tasks, missed, sched⟩ := sound
  have least := sched.switching task due
  obtain ⟨t, there⟩ := tasks.exists_of_ready least.1
  refine ⟨{ k with osPrioCur := k.osPrioHighRdy, pendSV := false }, by rw [pendSVHandler, there],
    tasks.congr rfl rfl rfl (fun _ => rfl) rfl rfl, missed, ?_⟩
  refine ⟨?_, fun _ _ _ => least, fun _ again => ?_, fun held => ?_⟩
  · exact there ▸ nofun
  · cases again
  · have := (sched.locked held).1
    rw [due] at this
    cases this

theorem intEnter_sound (sound : KernelSound k) : KernelSound (osIntEnter k) := by
  obtain ⟨tasks, missed, sched⟩ := sound
  rw [osIntEnter]
  split
  case isTrue =>
    refine ⟨tasks.congr rfl rfl rfl (fun _ => rfl) rfl rfl, missed, ?_⟩
    exact sched_of_nested sched (Nat.succ_pos _) sched.current rfl rfl rfl rfl
  case isFalse => exact ⟨tasks, missed, sched⟩

theorem intExit_sound (sound : KernelSound k) : KernelSound (osIntExit k) := by
  obtain ⟨tasks, missed, sched⟩ := sound
  have before : TasksSound { k with osIntNesting := k.osIntNesting - 1 } :=
    tasks.congr rfl rfl rfl (fun _ => rfl) rfl rfl
  obtain ⟨tasks', missed', -, -⟩ := osSwitch_tasks before missed
  refine ⟨tasks', missed', ?_⟩
  have found := osSwitch_sched before sched.current k.code sched.locked
  have same : ({ osSwitch { k with osIntNesting := k.osIntNesting - 1 } with code := k.code } : OsKernel) =
      osIntExit k := osSwitch_code { k with osIntNesting := k.osIntNesting - 1 }
  exact same ▸ found

theorem osTimeTickPass_defined (exist : k.osTCBPrioTbl p ≠ none) : ∃ k', osTimeTickPass k p = some k' := by
  obtain ⟨t, here⟩ := Option.ne_none_iff_exists'.mp exist
  rw [osTimeTickPass, here]
  dsimp only
  split
  · split <;> exact ⟨_, rfl⟩
  · exact ⟨_, rfl⟩

theorem tick_sound (sound : KernelSound k) (nested : 0 < k.osIntNesting) (passed : p ∈ k.ticked)
    (ran : osTimeTickPass k p = some k') : KernelSound k' := by
  obtain ⟨tasks, missed, sched⟩ := sound
  have busy : p ≠ osTaskIdlePrio := ((tasks.list.ticked_iff p).mp passed).1
  rw [osTimeTickPass] at ran
  split at ran
  next => cases ran
  next t here =>
    obtain ⟨small, tcb⟩ := tasks.tcb here
    have of_good : Good k k' → KernelSound k' := by
      intro good
      refine ⟨good.tasks, good.missed, ?_⟩
      refine sched_of_nested sched ?_ ?_ good.kept.code good.kept.prioCur good.kept.pendSV good.kept.lockNesting
      · rw [good.kept.intNesting]
        exact nested
      · rw [good.kept.prioCur]
        exact good.kept.tasks _ sched.current
    split at ran
    case isTrue runs =>
      dsimp only at ran
      split at ran <;> cases ran
      case isTrue => exact of_good (good_expire tasks missed here busy runs)
      case isFalse left =>
        exact of_good (good_updated tasks missed (tasks.setTcb here _) small busy (tcb.count runs left)
          fun e available => missed e available p)
    case isFalse =>
      cases ran
      exact ⟨tasks, missed, sched⟩

/-- No step suspends the idle task. -/
def Spares (k : OsKernel) : OsAction → Prop
  | .call c => SparesIdle k c
  | .isr c => SparesIdle k c
  | _ => True

/-- A step that can be taken has a result, and keeps the invariant. -/
theorem step_sound (sound : KernelSound k) {a : OsAction} (spares : Spares k a) (enabled : k.Enabled a) :
    ∃ r, k.step a = some r ∧ KernelSound r.1 := by
  cases a with
  | call c =>
    obtain ⟨runs, app, busy⟩ := enabled
    obtain ⟨⟨flow, k'⟩, ran⟩ := run_defined sound.tasks sound.missed sound.sched.current c
    have after : ∃ r, OsKernel.afterCall k.osPrioCur c (flow, k') = some r := by
      cases flow <;> exact ⟨_, rfl⟩
    obtain ⟨r, after⟩ := after
    refine ⟨r, ?_, call_sound sound runs app busy spares ran after⟩
    rw [OsKernel.step, if_pos ⟨runs, app, busy⟩, ran, Option.bind_some, after]
  | sched =>
    obtain ⟨runs, pend, here⟩ := enabled
    exact ⟨_, by rw [OsKernel.step, if_pos runs, here], sched_sound sound runs here⟩
  | finish =>
    obtain ⟨runs, pend, here⟩ := enabled
    obtain ⟨r, finished, after⟩ := finish_sound sound runs here
    refine ⟨(r.2.setCode k.osPrioCur .app, some ⟨some k.osPrioCur, pend.call, r.1⟩), ?_, after⟩
    rw [OsKernel.step, if_pos runs, here]
    dsimp only
    rw [finished, Option.map_some]
  | pendSV =>
    obtain ⟨k', switched, after⟩ := pendSV_sound sound enabled.1 enabled.2
    have due : k.osIntNesting = 0 ∧ k.pendSV = true := enabled
    exact ⟨(k', none), by rw [OsKernel.step, if_pos due, switched, Option.map_some], after⟩
  | intEnter => exact ⟨_, rfl, intEnter_sound sound⟩
  | intExit => exact ⟨_, if_pos enabled, intExit_sound sound⟩
  | isr c =>
    obtain ⟨⟨flow, k'⟩, ran⟩ := run_defined sound.tasks sound.missed sound.sched.current c
    obtain ⟨returns, after⟩ := isr_sound sound enabled spares ran
    have nested : 0 < k.osIntNesting := enabled
    rw [OsKernel.step, if_pos nested, ran, Option.bind_some]
    cases flow with
    | ret r => exact ⟨_, rfl, after⟩
    | sched r => exact ⟨_, rfl, after⟩
    | wait => exact absurd rfl returns
  | tick prio =>
    obtain ⟨nested, passed⟩ := enabled
    obtain ⟨k', ran⟩ := osTimeTickPass_defined ((sound.tasks.list.ticked_iff prio).mp passed).2
    refine ⟨(k', none), ?_, tick_sound sound nested passed ran⟩
    rw [OsKernel.step, if_pos ⟨nested, passed⟩, ran, Option.map_some]

/-- Nothing but an enabled action is a step. -/
theorem enabled_of_step {a : OsAction} {r : OsKernel × Option OsDone} (taken : k.step a = some r) :
    k.Enabled a := by
  cases a with
  | call c =>
    rw [OsKernel.step] at taken
    split at taken
    case isTrue enabled => exact enabled
    case isFalse => cases taken
  | sched =>
    rw [OsKernel.step] at taken
    split at taken
    case isTrue runs =>
      split at taken
      next pend here => exact ⟨runs, pend, here⟩
      next => cases taken
    case isFalse => cases taken
  | finish =>
    rw [OsKernel.step] at taken
    split at taken
    case isTrue runs =>
      split at taken
      next pend here => exact ⟨runs, pend, here⟩
      next => cases taken
    case isFalse => cases taken
  | pendSV =>
    rw [OsKernel.step] at taken
    split at taken
    case isTrue enabled => exact enabled
    case isFalse => cases taken
  | intEnter => trivial
  | intExit =>
    rw [OsKernel.step] at taken
    split at taken
    case isTrue enabled => exact enabled
    case isFalse => cases taken
  | isr c =>
    rw [OsKernel.step] at taken
    split at taken
    case isTrue enabled => exact enabled
    case isFalse => cases taken
  | tick prio =>
    rw [OsKernel.step] at taken
    split at taken
    case isTrue enabled => exact enabled
    case isFalse => cases taken

theorem step_kept (sound : KernelSound k) {a : OsAction} (spares : Spares k a)
    {r : OsKernel × Option OsDone} (taken : k.step a = some r) : KernelSound r.1 := by
  obtain ⟨r', taken', after⟩ := step_sound sound spares (enabled_of_step taken)
  rw [taken] at taken'
  cases taken'
  exact after

end GasSub.Guarantees.KernelScheduling
