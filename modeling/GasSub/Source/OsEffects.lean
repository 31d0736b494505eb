import GasSub.Source.OsKernel

/-!
# What a call can do

The calls of the kernel do one of a few things to its state. `OsEffect` names them, and
`Shape` says which of them a call does, under which guard, and how it goes on.
-/
namespace GasSub.Source

/-- The status bit of a task that pends on an event of this kind. -/
def pendBit : OsEventType → INT8U
  | .sem => osStatSem
  | .q => osStatQ
  | .unused => osStatRdy

inductive OsEffect where
  | keep
  | value (pevent : Nat) (event : OsEvent)
  | lock (nesting : Nat)
  | rdy (pevent : Nat) (pmsg : INT32U) (pendStat : OsStatPend)
  | rdyAll (pevent : Nat)
  | wait (pend : OsPend)
  | delay (ticks : INT32U)
  | expire (prio : Nat)
  | suspend (prio : Nat)
  | resume (prio : Nat)

namespace OsEffect

def apply (k : OsKernel) : OsEffect → Option OsKernel
  | keep => some k
  | value pevent event => some (k.setEvent pevent event)
  | lock nesting => some { k with osLockNesting := nesting }
  | rdy pevent pmsg pendStat =>
    osEventTaskRdy k pevent pmsg (pendBit (k.osEventTbl pevent).osEventType) pendStat
  | rdyAll pevent =>
    (osEventTaskRdyAll pevent 0 (pendBit (k.osEventTbl pevent).osEventType) .abort osMaxWaiters k).map
      Prod.snd
  | wait pend => osEventTaskWait k pend.pevent (pendBit pend.kind) pend.timeout
  | delay ticks => k.osTCBCur.map fun ptcb =>
      (k.makeUnready k.osPrioCur).setTcb k.osPrioCur { ptcb with osTCBDly := ticks }
  | expire prio => (k.osTCBPrioTbl prio).map (delayOver k prio)
  | suspend prio => (k.osTCBPrioTbl prio).map fun ptcb =>
      (k.makeUnready prio).setTcb prio { ptcb with osTCBStat := ptcb.osTCBStat ||| osStatSuspend }
  | resume prio => (k.osTCBPrioTbl prio).map fun ptcb =>
      let ptcb := { ptcb with osTCBStat := ptcb.osTCBStat &&& ~~~osStatSuspend }
      if ptcb.osTCBStat = osStatRdy ∧ ptcb.osTCBDly = 0 then (k.setTcb prio ptcb).makeReady prio
      else k.setTcb prio ptcb

end OsEffect

/-- The semaphore has a count, the queue a message. -/
def OsEvent.Available (event : OsEvent) : Prop :=
  match event.osEventType with
  | .sem => 0 < event.osEventCnt
  | .q => 0 < event.osEventPtr.osQEntries
  | .unused => False

/-- A count or a queue that is changed is there to be taken, or nobody waits for it. -/
inductive ValueChange (event : OsEvent) : OsEvent → Prop
  | count (cnt : INT16U) (kind : event.osEventType = .sem)
      (free : event.Available ∨ event.osEventTbl.group = 0) :
      ValueChange event { event with osEventCnt := cnt }
  | extract (kind : event.osEventType = .q) (free : event.Available) :
      ValueChange event { event with osEventPtr := event.osEventPtr.extract.2 }
  | insert (pmsg : INT32U) (kind : event.osEventType = .q) (free : event.osEventTbl.group = 0)
      (room : event.osEventPtr.osQEntries < event.osEventPtr.osQSize) :
      ValueChange event { event with osEventPtr := event.osEventPtr.insert pmsg }
  | insertFront (pmsg : INT32U) (kind : event.osEventType = .q) (free : event.osEventTbl.group = 0)
      (room : event.osEventPtr.osQEntries < event.osEventPtr.osQSize) :
      ValueChange event { event with osEventPtr := event.osEventPtr.insertFront pmsg }

/-- The event that a call is about. -/
def OsCall.event : OsCall → Option Nat
  | .semAccept pevent | .semPend pevent _ | .semPendAbort pevent _ | .semPost pevent
  | .semSet pevent _ | .qAccept pevent | .qPend pevent _ | .qPendAbort pevent _ | .qPost pevent _
  | .qPostFront pevent _ => some pevent
  | _ => none

inductive Shape (k : OsKernel) (c : OsCall) : OsFlow → OsEffect → Prop
  | keep (r : OsRet) : Shape k c (.ret r) .keep
  | value (r : OsRet) (pevent : Nat) (event : OsEvent) (about : c.event = some pevent)
      (change : ValueChange (k.osEventTbl pevent) event) : Shape k c (.ret r) (.value pevent event)
  | lock (r : OsRet) (nesting : Nat) (task : k.osIntNesting = 0) (locked : 0 < nesting) :
      Shape k c (.ret r) (.lock nesting)
  | unlock (r : OsRet) (task : k.osIntNesting = 0) : Shape k c (.sched r) (.lock 0)
  | rdy (r : OsRet) (pevent : Nat) (pmsg : INT32U) (pendStat : OsStatPend)
      (about : c.event = some pevent) (handed : pendStat ≠ .timeout)
      (some : (k.osEventTbl pevent).osEventTbl.group ≠ 0) :
      Shape k c (.sched r) (.rdy pevent pmsg pendStat)
  | rdyAll (r : OsRet) (pevent : Nat) (about : c.event = some pevent) :
      Shape k c (.sched r) (.rdyAll pevent)
  | wait (pend : OsPend) (about : c.event = some pend.pevent) (waits : c.pend = some pend)
      (kind : (k.osEventTbl pend.pevent).osEventType = pend.kind) (used : pend.kind ≠ .unused)
      (task : k.osIntNesting = 0) (unlocked : k.osLockNesting = 0)
      (none : ¬(k.osEventTbl pend.pevent).Available) : Shape k c .wait (.wait pend)
  | delay (r : OsRet) (ticks : INT32U) (some : ticks ≠ 0) (task : k.osIntNesting = 0) :
      Shape k c (.sched r) (.delay ticks)
  | expire (r : OsRet) (prio : Nat) (ptcb : OsTcb) (task : prio ≠ osTaskIdlePrio)
      (here : k.osTCBPrioTbl prio = some ptcb) (runs : ptcb.osTCBDly ≠ 0) :
      Shape k c (.sched r) (.expire prio)
  | expireSuspended (r : OsRet) (prio : Nat) (ptcb : OsTcb) (task : prio ≠ osTaskIdlePrio)
      (here : k.osTCBPrioTbl prio = some ptcb) (runs : ptcb.osTCBDly ≠ 0)
      (suspended : ptcb.osTCBStat &&& osStatSuspend ≠ osStatRdy) : Shape k c (.ret r) (.expire prio)
  | suspendSelf (r : OsRet) (prio : Option Nat) (self : prio.getD k.osPrioCur = k.osPrioCur)
      (called : c = .taskSuspend prio) : Shape k c (.sched r) (.suspend k.osPrioCur)
  | suspendOther (r : OsRet) (prio : Nat) (ptcb : OsTcb) (here : k.osTCBPrioTbl prio = some ptcb)
      (other : prio ≠ k.osPrioCur) (called : c = .taskSuspend (some prio)) : Shape k c (.ret r) (.suspend prio)
  | resume (r : OsRet) (prio : Nat) (ptcb : OsTcb) (here : k.osTCBPrioTbl prio = some ptcb)
      (suspended : ptcb.osTCBStat &&& osStatSuspend ≠ osStatRdy) : Shape k c (.sched r) (.resume prio)
  | resumeWaiting (r : OsRet) (prio : Nat) (ptcb : OsTcb) (here : k.osTCBPrioTbl prio = some ptcb)
      (suspended : ptcb.osTCBStat &&& osStatSuspend ≠ osStatRdy)
      (waits : ¬(ptcb.osTCBStat &&& ~~~osStatSuspend = osStatRdy ∧ ptcb.osTCBDly = 0)) :
      Shape k c (.ret r) (.resume prio)

/-- A critical section of a call, and what it does. -/
def Does (k : OsKernel) (c : OsCall) (flow : OsFlow) (k' : OsKernel) : Prop :=
  ∃ effect : OsEffect, Shape k c flow effect ∧ effect.apply k = some k'

/-! ### Each call in turn -/

variable {k k' : OsKernel} {flow : OsFlow} {c : OsCall}

theorem does_keep (r : OsRet) : Does k c (.ret r) k := ⟨.keep, .keep r, rfl⟩

theorem does_value (r : OsRet) {pevent : Nat} {event : OsEvent} (about : c.event = some pevent)
    (change : ValueChange (k.osEventTbl pevent) event) : Does k c (.ret r) (k.setEvent pevent event) :=
  ⟨.value pevent event, .value r pevent event about change, rfl⟩

theorem available_sem {event : OsEvent} (kind : ¬event.osEventType ≠ .sem) (positive : 0 < event.osEventCnt) :
    event.Available := by
  rw [OsEvent.Available, not_not.mp kind]
  exact positive

theorem available_q {event : OsEvent} (kind : ¬event.osEventType ≠ .q)
    (positive : 0 < event.osEventPtr.osQEntries) : event.Available := by
  rw [OsEvent.Available, not_not.mp kind]
  exact positive

theorem osSemAccept_does {pevent : Nat} (about : c.event = some pevent)
    (ran : osSemAccept k pevent = (flow, k')) : Does k c flow k' := by
  simp only [osSemAccept] at ran
  split at ran
  case isTrue => cases ran; exact does_keep _
  case isFalse kind =>
    split at ran <;> cases ran
    case isTrue positive =>
      exact does_value _ about (.count _ (not_not.mp kind) (Or.inl (available_sem kind positive)))
    case isFalse => exact does_keep _

/-- A pend and an accept that find what they want, and a pend that waits. -/
theorem does_wait (pend : OsPend) (about : c.event = some pend.pevent) (waits : c.pend = some pend)
    (kind : (k.osEventTbl pend.pevent).osEventType = pend.kind) (used : pend.kind ≠ .unused)
    (task : ¬0 < k.osIntNesting) (unlocked : ¬0 < k.osLockNesting)
    (none : ¬(k.osEventTbl pend.pevent).Available)
    (ran : (osEventTaskWait k pend.pevent (pendBit pend.kind) pend.timeout).map
      (fun k => (OsFlow.wait, k)) = some (flow, k')) : Does k c flow k' := by
  obtain ⟨after, waited, same⟩ := Option.map_eq_some_iff.mp ran
  cases same
  exact ⟨.wait pend, .wait pend about waits kind used (by omega) (by omega) none, waited⟩

theorem osSemPend_does {pevent : Nat} {timeout : INT32U}
    (ran : osSemPend k pevent timeout = some (flow, k')) : Does k (.semPend pevent timeout) flow k' := by
  simp only [osSemPend] at ran
  split at ran
  case isTrue => cases ran; exact does_keep _
  case isFalse kind =>
    split at ran
    case isTrue => cases ran; exact does_keep _
    case isFalse task =>
      split at ran
      case isTrue => cases ran; exact does_keep _
      case isFalse unlocked =>
        split at ran
        case isTrue positive =>
          cases ran
          exact does_value _ rfl (.count _ (not_not.mp kind) (Or.inl (available_sem kind positive)))
        case isFalse zero =>
          refine does_wait ⟨.sem, pevent, timeout⟩ rfl rfl (not_not.mp kind) nofun task unlocked ?_ ran
          rw [OsEvent.Available, not_not.mp kind]
          exact zero

theorem osQPend_does {pevent : Nat} {timeout : INT32U}
    (ran : osQPend k pevent timeout = some (flow, k')) : Does k (.qPend pevent timeout) flow k' := by
  simp only [osQPend] at ran
  split at ran
  case isTrue => cases ran; exact does_keep _
  case isFalse kind =>
    split at ran
    case isTrue => cases ran; exact does_keep _
    case isFalse task =>
      split at ran
      case isTrue => cases ran; exact does_keep _
      case isFalse unlocked =>
        split at ran
        case isTrue positive =>
          cases ran
          exact does_value _ rfl (.extract (not_not.mp kind) (available_q kind positive))
        case isFalse zero =>
          refine does_wait ⟨.q, pevent, timeout⟩ rfl rfl (not_not.mp kind) nofun task unlocked ?_ ran
          rw [OsEvent.Available, not_not.mp kind]
          exact zero

theorem osQAccept_does {pevent : Nat} (ran : osQAccept k pevent = (flow, k')) :
    Does k (.qAccept pevent) flow k' := by
  simp only [osQAccept] at ran
  split at ran
  case isTrue => cases ran; exact does_keep _
  case isFalse kind =>
    split at ran <;> cases ran
    case isTrue positive =>
      exact does_value _ rfl (.extract (not_not.mp kind) (available_q kind positive))
    case isFalse => exact does_keep _

theorem does_rdy (r : OsRet) (kind : OsEventType) (pendStat : OsStatPend) {pevent : Nat} {pmsg : INT32U}
    (about : c.event = some pevent) (handed : pendStat ≠ .timeout)
    (some : (k.osEventTbl pevent).osEventTbl.group ≠ 0)
    (of_kind : (k.osEventTbl pevent).osEventType = kind)
    (ran : (osEventTaskRdy k pevent pmsg (pendBit kind) pendStat).map (fun k => (OsFlow.sched r, k)) =
      Option.some (flow, k')) : Does k c flow k' := by
  obtain ⟨after, readied, same⟩ := Option.map_eq_some_iff.mp ran
  cases same
  refine ⟨.rdy pevent pmsg pendStat, .rdy r pevent pmsg pendStat about handed some, ?_⟩
  rw [OsEffect.apply, of_kind]
  exact readied

theorem osPendAbort_does (kind : OsEventType) {pevent : Nat} {broadcast : Bool}
    (about : c.event = some pevent)
    (ran : osPendAbort kind (pendBit kind) k pevent broadcast = some (flow, k')) : Does k c flow k' := by
  simp only [osPendAbort] at ran
  split at ran
  case isTrue => cases ran; exact does_keep _
  case isFalse of_kind =>
    split at ran
    case isTrue some =>
      split at ran
      case isTrue =>
        obtain ⟨after, readied, same⟩ := Option.map_eq_some_iff.mp ran
        cases same
        refine ⟨.rdyAll pevent, .rdyAll _ pevent about, ?_⟩
        rw [OsEffect.apply, not_not.mp of_kind, readied, Option.map_some]
      case isFalse => exact does_rdy _ kind .abort about nofun some (not_not.mp of_kind) ran
    case isFalse => cases ran; exact does_keep _

theorem osSemPost_does {pevent : Nat} (ran : osSemPost k pevent = some (flow, k')) :
    Does k (.semPost pevent) flow k' := by
  simp only [osSemPost] at ran
  split at ran
  case isTrue => cases ran; exact does_keep _
  case isFalse kind =>
    split at ran
    case isTrue some => exact does_rdy _ .sem .ok rfl nofun some (not_not.mp kind) ran
    case isFalse none =>
      split at ran <;> cases ran
      case isTrue => exact does_value _ rfl (.count _ (not_not.mp kind) (Or.inr (not_not.mp none)))
      case isFalse => exact does_keep _

theorem osSemSet_does {pevent : Nat} {cnt : INT16U} (ran : osSemSet k pevent cnt = (flow, k')) :
    Does k (.semSet pevent cnt) flow k' := by
  simp only [osSemSet] at ran
  split at ran
  case isTrue => cases ran; exact does_keep _
  case isFalse kind =>
    split at ran
    case isTrue positive =>
      cases ran
      exact does_value _ rfl (.count _ (not_not.mp kind) (Or.inl (available_sem kind positive)))
    case isFalse =>
      split at ran <;> cases ran
      case isTrue none => exact does_value _ rfl (.count _ (not_not.mp kind) (Or.inr none))
      case isFalse => exact does_keep _

theorem osQPostWith_does {insert : OsQ → INT32U → OsQ} {pevent : Nat} {pmsg : INT32U}
    (about : c.event = some pevent)
    (change : ∀ event : OsEvent, event.osEventType = .q → event.osEventTbl.group = 0 →
      event.osEventPtr.osQEntries < event.osEventPtr.osQSize →
      ValueChange event { event with osEventPtr := insert event.osEventPtr pmsg })
    (ran : osQPostWith insert k pevent pmsg = some (flow, k')) : Does k c flow k' := by
  simp only [osQPostWith] at ran
  split at ran
  case isTrue => cases ran; exact does_keep _
  case isFalse kind =>
    split at ran
    case isTrue some => exact does_rdy _ .q .ok about nofun some (not_not.mp kind) ran
    case isFalse none =>
      split at ran <;> cases ran
      case isTrue => exact does_keep _
      case isFalse room =>
        exact does_value _ about (change _ (not_not.mp kind) (not_not.mp none) (by omega))

theorem osTimeDly_does {ticks : INT32U} (ran : osTimeDly k ticks = some (flow, k')) :
    Does k c flow k' := by
  simp only [osTimeDly] at ran
  split at ran
  case isTrue => cases ran; exact does_keep _
  case isFalse task =>
    split at ran
    case isTrue => cases ran; exact does_keep _
    case isFalse unlocked =>
      split at ran
      case isTrue positive =>
        split at ran <;> cases ran
        next ptcb here =>
          have some : ticks ≠ 0 := by
            rintro rfl
            exact absurd positive (by decide)
          refine ⟨.delay ticks, .delay _ ticks some (by omega), ?_⟩
          rw [OsEffect.apply, here, Option.map_some]
      case isFalse => cases ran; exact does_keep _

theorem osTimeDlyResume_does {prio : Nat} (ran : osTimeDlyResume k prio = (flow, k')) :
    Does k c flow k' := by
  simp only [osTimeDlyResume] at ran
  split at ran
  case isTrue => cases ran; exact does_keep _
  case isFalse valid =>
    have task : prio ≠ osTaskIdlePrio := by
      rintro rfl
      exact valid (Nat.le_refl _)
    split at ran
    next => cases ran; exact does_keep _
    next ptcb here =>
      have applied : OsEffect.apply k (.expire prio) = some (delayOver k prio ptcb) := by
        rw [OsEffect.apply, here, Option.map_some]
      split at ran
      case isTrue => cases ran; exact does_keep _
      case isFalse runs =>
        split at ran <;> cases ran
        case isTrue => exact ⟨_, .expire _ prio ptcb task here runs, applied⟩
        case isFalse suspended => exact ⟨_, .expireSuspended _ prio ptcb task here runs suspended, applied⟩

theorem osTaskResume_does {prio : Nat} (ran : osTaskResume k prio = (flow, k')) :
    Does k c flow k' := by
  simp only [osTaskResume] at ran
  split at ran
  next => cases ran; exact does_keep _
  next ptcb here =>
    split at ran
    case isTrue suspended =>
      split at ran <;> cases ran
      case isTrue ready =>
        refine ⟨_, .resume _ prio ptcb here suspended, ?_⟩
        simp only [OsEffect.apply, here, Option.map_some, if_pos ready]
      case isFalse waits =>
        refine ⟨_, .resumeWaiting _ prio ptcb here suspended waits, ?_⟩
        simp only [OsEffect.apply, here, Option.map_some, if_neg waits]
    case isFalse => cases ran; exact does_keep _

theorem osTaskSuspend_does {prio : Option Nat} (ran : osTaskSuspend k prio = (flow, k')) :
    Does k (.taskSuspend prio) flow k' := by
  simp only [osTaskSuspend] at ran
  split at ran
  next => cases ran; exact does_keep _
  next ptcb here =>
    split at ran <;> cases ran
    case isTrue self =>
      have self : prio.getD k.osPrioCur = k.osPrioCur := self
      refine ⟨_, .suspendSelf _ prio self rfl, ?_⟩
      rw [self] at here
      rw [OsEffect.apply, here, Option.map_some, self]
    case isFalse other =>
      cases prio with
      | none => exact absurd rfl other
      | some prio =>
        have here : k.osTCBPrioTbl prio = some ptcb := here
        refine ⟨_, .suspendOther _ prio ptcb here other rfl, ?_⟩
        rw [OsEffect.apply, here, Option.map_some]
        rfl

theorem osSchedLock_does (ran : osSchedLock k = (flow, k')) : Does k c flow k' := by
  simp only [osSchedLock] at ran
  split at ran <;> cases ran
  case isTrue task => exact ⟨_, .lock _ (k.osLockNesting + 1) task.1 (by omega), rfl⟩
  case isFalse => exact does_keep _

theorem osSchedUnlock_does (ran : osSchedUnlock k = (flow, k')) : Does k c flow k' := by
  simp only [osSchedUnlock] at ran
  split at ran
  case isTrue task =>
    split at ran <;> cases ran
    case isTrue last =>
      refine ⟨_, .unlock _ task.1, ?_⟩
      rw [OsEffect.apply, last]
    case isFalse more => exact ⟨_, .lock _ (k.osLockNesting - 1) task.1 (by omega), rfl⟩
  case isFalse => cases ran; exact does_keep _

/-- What any call does. -/
theorem run_does (ran : c.run k = some (flow, k')) : Does k c flow k' := by
  cases c with
  | semAccept => exact osSemAccept_does rfl (Option.some.inj ran)
  | semPend => exact osSemPend_does ran
  | semPendAbort => exact osPendAbort_does .sem rfl ran
  | semPost => exact osSemPost_does ran
  | semSet => exact osSemSet_does (Option.some.inj ran)
  | qAccept => exact osQAccept_does (Option.some.inj ran)
  | qPend => exact osQPend_does ran
  | qPendAbort => exact osPendAbort_does .q rfl ran
  | qPost pevent pmsg => exact osQPostWith_does rfl (fun event => .insert pmsg) ran
  | qPostFront pevent pmsg => exact osQPostWith_does rfl (fun event => .insertFront pmsg) ran
  | timeDly => exact osTimeDly_does ran
  | timeDlyResume => exact osTimeDlyResume_does (Option.some.inj ran)
  | taskResume => exact osTaskResume_does (Option.some.inj ran)
  | taskSuspend => exact osTaskSuspend_does (Option.some.inj ran)
  | schedLock => exact osSchedLock_does (Option.some.inj ran)
  | schedUnlock => exact osSchedUnlock_does (Option.some.inj ran)

end GasSub.Source
