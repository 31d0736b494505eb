import GasSub.Guarantees.KernelTasks

/-!
# The kernel's invariant

`TasksSound` says of every task what `TcbSound` says of one. Whatever a call does to the
tasks, it does to one of them at a time: `Updated` describes such a change once, and every
effect of a call is one.
-/
namespace GasSub.Guarantees.KernelInvariant
open GasSub.Library GasSub.Source KernelTasks

def typeOf (k : OsKernel) (e : Nat) : OsEventType := (k.osEventTbl e).osEventType

def inReady (k : OsKernel) (p : Nat) : Bool := k.osRdyTbl.has p

def inWait (k : OsKernel) (p e : Nat) : Bool := (k.osEventTbl e).osEventTbl.has p

/-- A priority without a task is in no list. -/
def TaskSound (k : OsKernel) (p : Nat) : Prop :=
  match k.osTCBPrioTbl p with
  | none => inReady k p = false ∧ ∀ e, inWait k p e = false
  | some t => p < 64 ∧ TcbSound (typeOf k) t (k.code p) (inReady k p) (inWait k p)

/-- A tick passes every task but the idle one, where it ends. -/
structure ListSound (k : OsKernel) : Prop where
  ticked_iff : ∀ p, p ∈ k.ticked ↔ p ≠ osTaskIdlePrio ∧ k.osTCBPrioTbl p ≠ none
  ends : osTaskIdlePrio ∈ k.osTCBList

structure TasksSound (k : OsKernel) : Prop where
  ready : k.osRdyTbl.Sound
  waiting : ∀ e, (k.osEventTbl e).osEventTbl.Sound
  task : ∀ p, TaskSound k p
  idle : ∃ t, k.osTCBPrioTbl osTaskIdlePrio = some t ∧ t.osTCBStat = osStatRdy ∧ t.osTCBDly = 0 ∧
    t.osTCBEventPtr = none
  list : ListSound k

/-- One task is changed, and nothing else but its places in the lists. -/
structure Updated (k k' : OsKernel) (p : Nat) (t : OsTcb) (ready : Bool) (waits : Nat → Bool) :
    Prop where
  exist : k.osTCBPrioTbl p ≠ none
  tcb : k'.osTCBPrioTbl = Function.update k.osTCBPrioTbl p (some t)
  ready : ∀ q, inReady k' q = if q = p then ready else inReady k q
  waits : ∀ q e, inWait k' q e = if q = p then waits e else inWait k q e
  readySound : k'.osRdyTbl.Sound
  waitSound : ∀ e, (k'.osEventTbl e).osEventTbl.Sound
  types : typeOf k' = typeOf k
  counts : ∀ e, (k'.osEventTbl e).osEventCnt = (k.osEventTbl e).osEventCnt
  queues : ∀ e, (k'.osEventTbl e).osEventPtr = (k.osEventTbl e).osEventPtr
  code : k'.code = k.code
  intNesting : k'.osIntNesting = k.osIntNesting
  lockNesting : k'.osLockNesting = k.osLockNesting
  prioCur : k'.osPrioCur = k.osPrioCur
  prioHighRdy : k'.osPrioHighRdy = k.osPrioHighRdy
  pendSV : k'.pendSV = k.pendSV
  list : k'.osTCBList = k.osTCBList

variable {k k' : OsKernel} {p e : Nat} {t u : OsTcb} {ready : Bool} {waits : Nat → Bool}

theorem TasksSound.tcb (sound : TasksSound k) (here : k.osTCBPrioTbl p = some t) :
    p < 64 ∧ TcbSound (typeOf k) t (k.code p) (inReady k p) (inWait k p) := by
  have task := sound.task p
  rw [TaskSound, here] at task
  exact task

/-- Only tasks are in the lists. -/
theorem TasksSound.exists_of_ready (sound : TasksSound k) (member : inReady k p = true) :
    ∃ t, k.osTCBPrioTbl p = some t := by
  have task := sound.task p
  cases here : k.osTCBPrioTbl p with
  | some t => exact ⟨t, rfl⟩
  | none =>
    rw [TaskSound, here] at task
    rw [task.1] at member
    cases member

theorem TasksSound.exists_of_wait (sound : TasksSound k) (member : inWait k p e = true) :
    ∃ t, k.osTCBPrioTbl p = some t := by
  have task := sound.task p
  cases here : k.osTCBPrioTbl p with
  | some t => exact ⟨t, rfl⟩
  | none =>
    rw [TaskSound, here] at task
    rw [task.2 e] at member
    cases member

/-- The task that runs idle is always ready. -/
theorem TasksSound.idle_ready (sound : TasksSound k) : inReady k osTaskIdlePrio = true := by
  obtain ⟨t, here, clear, none, -⟩ := sound.idle
  exact (sound.tcb here).2.ready_iff.mpr ⟨clear, none⟩

theorem TasksSound.idle_not_waiting (sound : TasksSound k) (e : Nat) :
    inWait k osTaskIdlePrio e = false := by
  obtain ⟨t, here, -, -, free⟩ := sound.idle
  exact (sound.tcb here).2.not_waiting free e

/-- The scheduler finds the highest task that is ready. -/
theorem TasksSound.isLeast_ready (sound : TasksSound k) :
    k.osRdyTbl.IsLeast (listHighest k.osRdyTbl) := by
  refine isLeast_listHighest sound.ready fun none => ?_
  have out := (PrioritySet.group_eq_zero_iff sound.ready).mp none osTaskIdlePrio
  rw [show k.osRdyTbl.has osTaskIdlePrio = true from sound.idle_ready] at out
  cases out

/-- A post finds the highest task that waits. -/
theorem TasksSound.isLeast_waiting (sound : TasksSound k) (some : (k.osEventTbl e).osEventTbl.group ≠ 0) :
    (k.osEventTbl e).osEventTbl.IsLeast (listHighest (k.osEventTbl e).osEventTbl) :=
  isLeast_listHighest (sound.waiting e) some

/-- What keeps the list and makes no task keeps this. -/
theorem ListSound.congr (sound : ListSound k) (list : k'.osTCBList = k.osTCBList)
    (tasks : ∀ p, k'.osTCBPrioTbl p = none ↔ k.osTCBPrioTbl p = none) : ListSound k' where
  ticked_iff p := by
    rw [OsKernel.ticked, list]
    exact (sound.ticked_iff p).trans (and_congr_right' (not_congr (tasks p).symm))
  ends := list ▸ sound.ends

/-! ### A change of one task -/

theorem Updated.tasks (change : Updated k k' p t ready waits) (q : Nat) :
    k'.osTCBPrioTbl q = none ↔ k.osTCBPrioTbl q = none := by
  rw [change.tcb]
  by_cases here : q = p
  · subst here
    rw [Function.update_self]
    exact iff_of_false nofun change.exist
  · rw [Function.update_of_ne here]

theorem TaskSound.congr {q : Nat} (types : typeOf k' = typeOf k)
    (tcb : k'.osTCBPrioTbl q = k.osTCBPrioTbl q) (code : k'.code q = k.code q)
    (ready : inReady k' q = inReady k q) (waits : ∀ e, inWait k' q e = inWait k q e)
    (sound : TaskSound k q) : TaskSound k' q := by
  have waits : inWait k' q = inWait k q := funext waits
  rw [TaskSound, tcb, code, ready, waits, types]
  exact sound

/-- A change of one task that keeps `TcbSound`, where its code goes on from `code`. -/
theorem TasksSound.updated (sound : TasksSound k) (code : CodePoint) (change : Updated k k' p t ready waits)
    (small : p < 64) (busy : p ≠ osTaskIdlePrio) (kept : TcbSound (typeOf k) t code ready waits) :
    TasksSound (k'.setCode p code) where
  ready := change.readySound
  waiting := change.waitSound
  task q := by
    by_cases here : q = p
    · subst here
      have tcb : (k'.setCode q code).osTCBPrioTbl q = some t := by
        rw [OsKernel.setCode, change.tcb, Function.update_self]
      have ready' : inReady (k'.setCode q code) q = ready := (change.ready q).trans (if_pos rfl)
      have waits' : inWait (k'.setCode q code) q = waits :=
        funext fun e => (change.waits q e).trans (if_pos rfl)
      have code' : (k'.setCode q code).code q = code := Function.update_self ..
      rw [TaskSound, tcb, ready', waits', code', show typeOf (k'.setCode q code) = typeOf k from change.types]
      exact ⟨small, kept⟩
    · refine TaskSound.congr change.types ?_ ?_ ?_ ?_ (sound.task q)
      · rw [OsKernel.setCode, change.tcb, Function.update_of_ne here]
      · exact (Function.update_of_ne here code k'.code).trans (by rw [change.code])
      · exact (change.ready q).trans (if_neg here)
      · exact fun e => (change.waits q e).trans (if_neg here)
  idle := by
    obtain ⟨t, here, facts⟩ := sound.idle
    refine ⟨t, ?_, facts⟩
    rw [OsKernel.setCode, change.tcb, Function.update_of_ne busy.symm, here]
  list := sound.list.congr change.list change.tasks

theorem setCode_self (k : OsKernel) (p : Nat) : k.setCode p (k.code p) = k := by
  rw [OsKernel.setCode, Function.update_eq_self]

/-- The same with the code of the task where it was. -/
theorem TasksSound.updated_same (sound : TasksSound k) (change : Updated k k' p t ready waits)
    (small : p < 64) (busy : p ≠ osTaskIdlePrio)
    (kept : TcbSound (typeOf k) t (k.code p) ready waits) : TasksSound k' := by
  have := sound.updated (k.code p) change small busy kept
  rwa [← change.code, setCode_self] at this

/-- The code of a task moves on in the same pend. -/
theorem TasksSound.goOn (sound : TasksSound k) (code : CodePoint)
    (same : pendOf code = pendOf (k.code p)) : TasksSound (k.setCode p code) where
  ready := sound.ready
  waiting := sound.waiting
  task q := by
    have task := sound.task q
    by_cases here : q = p
    · subst here
      have code' : (k.setCode q code).code q = code := Function.update_self ..
      rw [TaskSound, show (k.setCode q code).osTCBPrioTbl q = k.osTCBPrioTbl q from rfl, code']
      rw [TaskSound] at task
      split at task
      next => exact task
      next => exact ⟨task.1, task.2.goOn same⟩
    · have moved : (k.setCode p code).code q = k.code q := by
        rw [OsKernel.setCode]
        exact Function.update_of_ne here code k.code
      exact TaskSound.congr (k := k) rfl rfl moved rfl (fun _ => rfl) task
  idle := sound.idle
  list := sound.list.congr rfl fun _ => Iff.rfl

/-- Counts, queues and the globals of the scheduler do not matter to the tasks. -/
theorem TasksSound.congr (sound : TasksSound k) (tcbs : k'.osTCBPrioTbl = k.osTCBPrioTbl)
    (codes : k'.code = k.code) (ready : k'.osRdyTbl = k.osRdyTbl)
    (waiting : ∀ e, (k'.osEventTbl e).osEventTbl = (k.osEventTbl e).osEventTbl)
    (types : typeOf k' = typeOf k) (list : k'.osTCBList = k.osTCBList) : TasksSound k' where
  ready := ready ▸ sound.ready
  waiting e := waiting e ▸ sound.waiting e
  task q := by
    refine TaskSound.congr types (by rw [tcbs]) (by rw [codes]) ?_ (fun e => ?_) (sound.task q)
    · rw [inReady, ready, inReady]
    · rw [inWait, waiting, inWait]
  idle := by rw [tcbs]; exact sound.idle
  list := sound.list.congr list fun p => by rw [tcbs]

/-! ### The changes that calls make -/

theorem inReady_makeReady (k : OsKernel) (p q : Nat) :
    inReady (k.makeReady p) q = if q = p then true else inReady k q := by
  by_cases same : q = p <;> simp [inReady, OsKernel.makeReady, same]

theorem inReady_makeUnready (k : OsKernel) (p q : Nat) :
    inReady (k.makeUnready p) q = if q = p then false else inReady k q := by
  by_cases same : q = p <;> simp [inReady, OsKernel.makeUnready, same]

theorem inWait_addWaiter (k : OsKernel) (p e q e' : Nat) :
    inWait (k.addWaiter p e) q e' =
      if q = p then decide (e' = e) || inWait k p e' else inWait k q e' := by
  by_cases event : e' = e
  · subst event
    by_cases same : q = p <;> simp [inWait, OsKernel.addWaiter, OsKernel.setEvent, same]
  · by_cases same : q = p <;>
      simp [inWait, OsKernel.addWaiter, OsKernel.setEvent, same, event]

theorem inWait_osEventTaskRemove (k : OsKernel) (p e q e' : Nat) :
    inWait (osEventTaskRemove k p e) q e' =
      if q = p then !decide (e' = e) && inWait k p e' else inWait k q e' := by
  by_cases event : e' = e
  · subst event
    by_cases same : q = p <;> simp [inWait, osEventTaskRemove, OsKernel.setEvent, same]
  · by_cases same : q = p <;>
      simp [inWait, osEventTaskRemove, OsKernel.setEvent, same, event]

/-- The start of every change: the control block. -/
theorem TasksSound.setTcb (sound : TasksSound k) (here : k.osTCBPrioTbl p = some u) (t : OsTcb) :
    Updated k (k.setTcb p t) p t (inReady k p) (inWait k p) where
  exist := here ▸ nofun
  tcb := rfl
  ready q := by split <;> simp_all [inReady, OsKernel.setTcb]
  waits q e := by split <;> simp_all [inWait, OsKernel.setTcb]
  readySound := sound.ready
  waitSound := sound.waiting
  types := rfl
  counts _ := rfl
  queues _ := rfl
  code := rfl
  intNesting := rfl
  lockNesting := rfl
  prioCur := rfl
  prioHighRdy := rfl
  pendSV := rfl
  list := rfl

theorem Updated.makeReady (change : Updated k k' p t ready waits) (small : p < 64) :
    Updated k (k'.makeReady p) p t true waits :=
  { change with
    ready := fun q => by
      rw [inReady_makeReady, change.ready]
      split <;> rfl
    readySound := listAdd_sound change.readySound small }

theorem Updated.makeUnready (change : Updated k k' p t ready waits) :
    Updated k (k'.makeUnready p) p t false waits :=
  { change with
    ready := fun q => by
      rw [inReady_makeUnready, change.ready]
      split <;> rfl
    readySound := listRemove_sound change.readySound p }

/-- A wait list is changed at the place of the task. -/
theorem Updated.setList {list : PrioritySet 8} {waits' : Nat → Bool}
    (change : Updated k k' p t ready waits) (e : Nat) (listed : list.Sound)
    (after : ∀ q e', inWait (k'.setEvent e { k'.osEventTbl e with osEventTbl := list }) q e' =
      if q = p then waits' e' else inWait k' q e') :
    Updated k (k'.setEvent e { k'.osEventTbl e with osEventTbl := list }) p t ready waits' where
  exist := change.exist
  tcb := change.tcb
  ready := change.ready
  waits q e' := by
    rw [after, change.waits]
    split <;> rfl
  readySound := change.readySound
  waitSound e' := by
    by_cases event : e' = e
    · subst event
      simpa [OsKernel.setEvent] using listed
    · simpa [OsKernel.setEvent, Function.update_of_ne event] using change.waitSound e'
  types := by
    refine Eq.trans (funext fun e' => ?_) change.types
    by_cases event : e' = e
    · subst event
      simp [typeOf, OsKernel.setEvent]
    · simp [typeOf, OsKernel.setEvent, Function.update_of_ne event]
  counts e' := by
    refine Eq.trans ?_ (change.counts e')
    by_cases event : e' = e
    · subst event
      simp [OsKernel.setEvent]
    · simp [OsKernel.setEvent, Function.update_of_ne event]
  queues e' := by
    refine Eq.trans ?_ (change.queues e')
    by_cases event : e' = e
    · subst event
      simp [OsKernel.setEvent]
    · simp [OsKernel.setEvent, Function.update_of_ne event]
  code := change.code
  intNesting := change.intNesting
  lockNesting := change.lockNesting
  prioCur := change.prioCur
  prioHighRdy := change.prioHighRdy
  pendSV := change.pendSV
  list := change.list

theorem Updated.addWaiter (change : Updated k k' p t ready waits) (e : Nat) (small : p < 64) :
    Updated k (k'.addWaiter p e) p t ready (fun e' => decide (e' = e) || waits e') := by
  refine change.setList e (listAdd_sound (change.waitSound e) small) fun q e' => ?_
  refine (inWait_addWaiter k' p e q e').trans ?_
  rw [change.waits p, if_pos rfl]

theorem Updated.remove (change : Updated k k' p t ready waits) (e : Nat) :
    Updated k (osEventTaskRemove k' p e) p t ready (fun e' => !decide (e' = e) && waits e') := by
  refine change.setList e (listRemove_sound (change.waitSound e) p) fun q e' => ?_
  refine (inWait_osEventTaskRemove k' p e q e').trans ?_
  rw [change.waits p, if_pos rfl]

/-- `OS_EventTaskRdy` changes the highest task that waits. -/
theorem osEventTaskRdy_updated (sound : TasksSound k) (pmsg : INT32U) (pendStat : OsStatPend)
    (some : (k.osEventTbl e).osEventTbl.group ≠ 0) :
    ∃ k' p t, (k.osEventTbl e).osEventTbl.IsLeast p ∧ k.osTCBPrioTbl p = Option.some t ∧
      osEventTaskRdy k e pmsg (pendBit (typeOf k e)) pendStat = Option.some k' ∧
      Updated k k' p
        { t with
          osTCBDly := 0
          osTCBMsg := pmsg
          osTCBStat := t.osTCBStat &&& ~~~pendBit (typeOf k e)
          osTCBStatPend := pendStat }
        (if t.osTCBStat &&& ~~~pendBit (typeOf k e) &&& osStatSuspend = osStatRdy then true
          else inReady k p)
        (fun e' => !decide (e' = e) && inWait k p e') := by
  have least := sound.isLeast_waiting some
  obtain ⟨t, here⟩ := sound.exists_of_wait (e := e) least.1
  obtain ⟨small, -⟩ := sound.tcb here
  refine ⟨_, _, t, least, here, by rw [osEventTaskRdy, here], ?_⟩
  split
  case isTrue ready => exact ((sound.setTcb here _).makeReady small).remove e
  case isFalse suspended => exact (sound.setTcb here _).remove e

theorem osEventTaskWait_updated (sound : TasksSound k) (here : k.osTCBCur = some t) (e : Nat)
    (msk : INT8U) (timeout : INT32U) :
    ∃ k', osEventTaskWait k e msk timeout = some k' ∧
      Updated k k' k.osPrioCur
        { t with
          osTCBStat := t.osTCBStat ||| msk
          osTCBStatPend := .ok
          osTCBDly := timeout
          osTCBEventPtr := some e }
        false (fun e' => decide (e' = e) || inWait k k.osPrioCur e') := by
  obtain ⟨small, -⟩ := sound.tcb here
  refine ⟨_, by rw [osEventTaskWait, here], ?_⟩
  exact ((sound.setTcb here _).addWaiter e small).makeUnready

theorem delayOver_updated (sound : TasksSound k) (here : k.osTCBPrioTbl p = some t) :
    Updated k (delayOver k p t) p t.delayOver
      (if t.delayOver.osTCBStat &&& osStatSuspend = osStatRdy then true else inReady k p)
      (inWait k p) := by
  obtain ⟨small, -⟩ := sound.tcb here
  rw [delayOver]
  split
  case isTrue ready => exact (sound.setTcb here _).makeReady small
  case isFalse suspended => exact sound.setTcb here _

/-- The control block is stored after the task has left the ready list. -/
theorem unready_updated (sound : TasksSound k) (here : k.osTCBPrioTbl p = some u) (t : OsTcb) :
    Updated k ((k.makeUnready p).setTcb p t) p t false (inWait k p) :=
  (sound.setTcb here t).makeUnready

theorem resume_updated (sound : TasksSound k) (p : Nat) (here : k.osTCBPrioTbl p = some t) :
    ∃ k', OsEffect.apply k (.resume p) = some k' ∧
      Updated k k' p { t with osTCBStat := t.osTCBStat &&& ~~~osStatSuspend }
        (if t.osTCBStat &&& ~~~osStatSuspend = osStatRdy ∧ t.osTCBDly = 0 then true else inReady k p)
        (inWait k p) := by
  obtain ⟨small, -⟩ := sound.tcb here
  refine ⟨_, by rw [OsEffect.apply, here, Option.map_some], ?_⟩
  dsimp only
  split
  case isTrue ready => exact (sound.setTcb here _).makeReady small
  case isFalse waits => exact sound.setTcb here _

/-! ### What every call leaves alone -/

/-- What the critical section of a call does not touch. -/
structure Kept (k k' : OsKernel) : Prop where
  code : k'.code = k.code
  intNesting : k'.osIntNesting = k.osIntNesting
  lockNesting : k'.osLockNesting = k.osLockNesting
  prioCur : k'.osPrioCur = k.osPrioCur
  prioHighRdy : k'.osPrioHighRdy = k.osPrioHighRdy
  pendSV : k'.pendSV = k.pendSV
  types : typeOf k' = typeOf k
  tasks : ∀ p, k.osTCBPrioTbl p ≠ none → k'.osTCBPrioTbl p ≠ none

theorem Kept.refl (k : OsKernel) : Kept k k := ⟨rfl, rfl, rfl, rfl, rfl, rfl, rfl, fun _ => id⟩

theorem Kept.trans {k₁ k₂ k₃ : OsKernel} (first : Kept k₁ k₂) (second : Kept k₂ k₃) : Kept k₁ k₃ where
  code := second.code.trans first.code
  intNesting := second.intNesting.trans first.intNesting
  lockNesting := second.lockNesting.trans first.lockNesting
  prioCur := second.prioCur.trans first.prioCur
  prioHighRdy := second.prioHighRdy.trans first.prioHighRdy
  pendSV := second.pendSV.trans first.pendSV
  types := second.types.trans first.types
  tasks p here := second.tasks p (first.tasks p here)

theorem Updated.kept (change : Updated k k' p t ready waits) : Kept k k' where
  code := change.code
  intNesting := change.intNesting
  lockNesting := change.lockNesting
  prioCur := change.prioCur
  prioHighRdy := change.prioHighRdy
  pendSV := change.pendSV
  types := change.types
  tasks q here := by
    rw [change.tcb]
    by_cases same : q = p
    · rw [same, Function.update_self]
      nofun
    · rwa [Function.update_of_ne same]

/-- Nobody waits for what is there to be taken. -/
def NoneMissed (k : OsKernel) : Prop :=
  ∀ e, (k.osEventTbl e).Available → ∀ p, inWait k p e = false

theorem available_congr {event event' : OsEvent} (kind : event'.osEventType = event.osEventType)
    (cnt : event'.osEventCnt = event.osEventCnt) (ptr : event'.osEventPtr = event.osEventPtr) :
    event'.Available ↔ event.Available := by
  rw [OsEvent.Available, OsEvent.Available, kind, cnt, ptr]

theorem Updated.available (change : Updated k k' p t ready waits) (e : Nat) :
    (k'.osEventTbl e).Available ↔ (k.osEventTbl e).Available :=
  available_congr (congrFun change.types e) (change.counts e) (change.queues e)

/-- A change that puts the task in no wait list of something available. -/
theorem NoneMissed.updated (none : NoneMissed k) (change : Updated k k' p t ready waits)
    (out : ∀ e, (k.osEventTbl e).Available → waits e = false) : NoneMissed k' := by
  intro e available q
  have before := (change.available e).mp available
  rw [change.waits]
  split
  · exact out e before
  · exact none e before q

/-- What holds before a loop over a wait list and is kept by each pass holds after it. -/
theorem osEventTaskRdyAll_induct {P : OsKernel → Prop} {pmsg : INT32U} {msk : INT8U}
    {pendStat : OsStatPend}
    (pass : ∀ k k', P k → (k.osEventTbl e).osEventTbl.group ≠ 0 →
      osEventTaskRdy k e pmsg msk pendStat = some k' → P k') {fuel : Nat} {r : Nat × OsKernel}
    (ran : osEventTaskRdyAll e pmsg msk pendStat fuel k = some r) (holds : P k) : P r.2 := by
  induction fuel generalizing k r with
  | zero => cases ran
  | succ fuel ih =>
    rw [osEventTaskRdyAll] at ran
    split at ran
    case isTrue some =>
      obtain ⟨next, readied, rest⟩ := Option.bind_eq_some_iff.mp ran
      obtain ⟨last, tail, rfl⟩ := Option.map_eq_some_iff.mp rest
      exact ih (r := last) tail (pass k next holds some readied)
    case isFalse =>
      cases ran
      exact holds

/-- A loop over a wait list comes to its end. -/
theorem osEventTaskRdyAll_defined {pmsg : INT32U} {msk : INT8U} {pendStat : OsStatPend}
    {P : OsKernel → Prop}
    (pass : ∀ k, P k → (k.osEventTbl e).osEventTbl.group ≠ 0 →
      ∃ k', osEventTaskRdy k e pmsg msk pendStat = some k' ∧ P k' ∧
        (k'.osEventTbl e).osEventTbl.size < (k.osEventTbl e).osEventTbl.size)
    (fuel : Nat) (enough : (k.osEventTbl e).osEventTbl.size < fuel) (holds : P k) :
    ∃ r, osEventTaskRdyAll e pmsg msk pendStat fuel k = some r := by
  induction fuel generalizing k with
  | zero => exact absurd enough (Nat.not_lt_zero _)
  | succ fuel ih =>
    rw [osEventTaskRdyAll]
    split
    case isTrue some =>
      obtain ⟨next, readied, kept, fewer⟩ := pass k holds some
      obtain ⟨r, rest⟩ := ih (by omega) kept
      exact ⟨_, by rw [readied, Option.bind_some, rest, Option.map_some]⟩
    case isFalse => exact ⟨_, rfl⟩

end GasSub.Guarantees.KernelInvariant
