import GasSub.Guarantees.KernelRuns
import GasSub.Library.TokenCount

/-!
# Semaphores lose no count

A post raises the count or gives it to a task that waits; until that task has run, only
its control block tells. Whatever timeouts, aborts and suspensions come between, what has
been taken, what is on its way and what is left add up to the first count and the posts
that succeeded.
-/
namespace GasSub.Guarantees.KernelSemaphores
open GasSub.Library GasSub.Library.Run GasSub.Library.TokenCount GasSub.Source
open KernelTasks KernelInvariant KernelScheduling KernelRuns

/-- The task has been given the event and has not finished its pend. -/
def Handed (e : Nat) (t : OsTcb) : Prop :=
  t.osTCBEventPtr = some e ∧ ¬Pending t ∧ t.osTCBStatPend = .ok

instance (e : Nat) (t : OsTcb) : Decidable (Handed e t) :=
  inferInstanceAs (Decidable (t.osTCBEventPtr = some e ∧ ¬Pending t ∧ t.osTCBStatPend = .ok))

def handedTo (k : OsKernel) (e p : Nat) : Bool :=
  (k.osTCBPrioTbl p).any fun t => decide (Handed e t)

def handedOver (k : OsKernel) (e : Nat) : Nat := ∑ p ∈ Finset.range 64, (handedTo k e p).toNat

/-- The task has been given the event with a message that is wanted. -/
def wanted (k : OsKernel) (e : Nat) (want : INT32U → Bool) (p : Nat) : Bool :=
  (k.osTCBPrioTbl p).any fun t => decide (Handed e t) && want t.osTCBMsg

def handedWith (k : OsKernel) (e : Nat) (want : INT32U → Bool) : Nat :=
  ∑ p ∈ Finset.range 64, (wanted k e want p).toNat

theorem handedOver_eq (k : OsKernel) (e : Nat) : handedOver k e = handedWith k e fun _ => true := by
  simp only [handedOver, handedWith, handedTo, wanted, Bool.and_true]

/-- What there is to be taken, and what is on its way. -/
def tokens (k : OsKernel) (e : Nat) : Nat := (k.osEventTbl e).osEventCnt.toNat + handedOver k e

variable {k k' : OsKernel} {c : OsCall} {flow : OsFlow} {effect : OsEffect} {p e : Nat} {t u : OsTcb}
  {type : Nat → OsEventType} {code : CodePoint} {ready : Bool} {waits : Nat → Bool}

/-! ### One task -/

theorem not_handed_of_free (free : t.osTCBEventPtr = none) (e : Nat) : ¬Handed e t := by
  rintro ⟨at_event, -⟩
  rw [free] at at_event
  cases at_event

theorem not_handed_of_waits (sound : TcbSound type t code ready waits) {e' : Nat}
    (member : waits e' = true) (e : Nat) : ¬Handed e t := by
  rintro ⟨-, idle, ok⟩
  rcases ((sound.waits_iff e').mp member).2 with pending | late
  · exact idle pending
  · rw [ok] at late
    cases late

theorem handed_rdy (sound : TcbSound type t code ready waits) (member : waits e = true) (pmsg : INT32U) :
    Handed e { t with
      osTCBDly := 0
      osTCBMsg := pmsg
      osTCBStat := t.osTCBStat &&& ~~~pendBit (type e)
      osTCBStatPend := .ok } := by
  have at_event := ((sound.waits_iff e).mp member).1
  have handed : OsStatPend.ok ≠ .timeout := by decide
  have after := sound.rdy member pmsg handed
  refine ⟨at_event, fun pending => ?_, rfl⟩
  have waits := (after.waits_iff e).mpr ⟨at_event, Or.inl pending⟩
  simp at waits

/-- A delay that ends has not been handed anything before, nor is it then. -/
theorem handed_delayOver (sound : TcbSound type t code ready waits) (runs : t.osTCBDly ≠ 0) :
    Handed e t.delayOver ↔ Handed e t := by
  by_cases pending : Pending t
  · rw [show t.delayOver = _ from if_pos pending]
    refine iff_of_false ?_ fun handed => handed.2.1 pending
    rintro ⟨-, -, ⟨⟩⟩
  · have free : t.osTCBEventPtr = none := by
      by_contra bound
      exact runs (sound.settled bound pending)
    rw [show t.delayOver = _ from if_neg pending]
    exact iff_of_false (not_handed_of_free (t := { t with osTCBDly := 0, osTCBStatPend := .ok }) free e)
      (not_handed_of_free free e)

theorem delayOver_msg (t : OsTcb) : t.delayOver.osTCBMsg = t.osTCBMsg := by
  rw [OsTcb.delayOver]
  split <;> rfl

theorem handed_suspend (sound : TcbSound type t code ready waits) :
    Handed e { t with osTCBStat := t.osTCBStat ||| osStatSuspend } ↔ Handed e t := by
  have all : ∀ s ∈ ([0x00, 0x08, 0x01, 0x09, 0x04, 0x0C] : List INT8U),
      (s ||| osStatSuspend) &&& osStatPendAny = s &&& osStatPendAny := by decide
  simp only [Handed, Pending, all _ sound.stat_mem]

theorem handed_resume (sound : TcbSound type t code ready waits) :
    Handed e { t with osTCBStat := t.osTCBStat &&& ~~~osStatSuspend } ↔ Handed e t := by
  have all : ∀ s ∈ ([0x00, 0x08, 0x01, 0x09, 0x04, 0x0C] : List INT8U),
      (s &&& ~~~osStatSuspend) &&& osStatPendAny = s &&& osStatPendAny := by decide
  simp only [Handed, Pending, all _ sound.stat_mem]

/-! ### One effect -/

theorem handedWith_update (tcbs : k'.osTCBPrioTbl = Function.update k.osTCBPrioTbl p (some u))
    (small : p < 64) (here : k.osTCBPrioTbl p = some t) (e : Nat) (want : INT32U → Bool) :
    handedWith k' e want + (decide (Handed e t) && want t.osTCBMsg).toNat =
      handedWith k e want + (decide (Handed e u) && want u.osTCBMsg).toNat := by
  have others : ∀ q, q ≠ p → (wanted k' e want q).toNat = (wanted k e want q).toNat := by
    intro q other
    rw [wanted, tcbs, Function.update_of_ne other, wanted]
  have before : wanted k e want p = (decide (Handed e t) && want t.osTCBMsg) := by
    rw [wanted, here, Option.any_some]
  have after : wanted k' e want p = (decide (Handed e u) && want u.osTCBMsg) := by
    rw [wanted, tcbs, Function.update_self, Option.any_some]
  have moved := sum_change_one (Finset.mem_range.mpr small) others
  rw [before, after] at moved
  exact moved

theorem handedOver_update (tcbs : k'.osTCBPrioTbl = Function.update k.osTCBPrioTbl p (some u))
    (small : p < 64) (here : k.osTCBPrioTbl p = some t) (e : Nat) :
    handedOver k' e + (decide (Handed e t)).toNat = handedOver k e + (decide (Handed e u)).toNat := by
  have moved := handedWith_update tcbs small here e fun _ => true
  rwa [Bool.and_true, Bool.and_true, ← handedOver_eq, ← handedOver_eq] at moved

/-- The event and what its tasks have been given stay. -/
structure Conserves (k k' : OsKernel) (e : Nat) : Prop where
  types : typeOf k' = typeOf k
  count : (k'.osEventTbl e).osEventCnt = (k.osEventTbl e).osEventCnt
  queue : (k'.osEventTbl e).osEventPtr = (k.osEventTbl e).osEventPtr
  handed : ∀ want, handedWith k' e want = handedWith k e want

theorem tokens_of_conserves (conserves : Conserves k k' e) : tokens k' e = tokens k e := by
  rw [tokens, tokens, conserves.count, handedOver_eq, handedOver_eq, conserves.handed]

theorem conserves_refl (k : OsKernel) (e : Nat) : Conserves k k e := ⟨rfl, rfl, rfl, fun _ => rfl⟩

theorem Conserves.trans {k₂ : OsKernel} (first : Conserves k k₂ e) (second : Conserves k₂ k' e) :
    Conserves k k' e where
  types := second.types.trans first.types
  count := second.count.trans first.count
  queue := second.queue.trans first.queue
  handed want := (second.handed want).trans (first.handed want)

theorem conserves_updated (change : Updated k k' p u ready waits) (small : p < 64)
    (here : k.osTCBPrioTbl p = some t) (same : Handed e u ↔ Handed e t)
    (message : Handed e t → u.osTCBMsg = t.osTCBMsg) : Conserves k k' e := by
  refine ⟨change.types, change.counts e, change.queues e, fun want => ?_⟩
  have moved := handedWith_update change.tcb small here e want
  have still : (decide (Handed e u) && want u.osTCBMsg) = (decide (Handed e t) && want t.osTCBMsg) := by
    by_cases handed : Handed e t
    · rw [decide_eq_true handed, decide_eq_true (same.mpr handed), message handed]
    · rw [decide_eq_false handed, decide_eq_false fun now => handed (same.mp now)]
      rfl
  rw [still] at moved
  omega

theorem rdy_conserves (tasks : TasksSound k) {e' : Nat} {pmsg : INT32U} {pendStat : OsStatPend}
    (some : (k.osEventTbl e').osEventTbl.group ≠ 0) (away : e' ≠ e ∨ pendStat ≠ .ok)
    (readied : osEventTaskRdy k e' pmsg (pendBit (typeOf k e')) pendStat = Option.some k') :
    Conserves k k' e := by
  obtain ⟨k₂, p, t, least, here, same, change⟩ := osEventTaskRdy_updated tasks pmsg pendStat some
  rw [readied] at same
  cases same
  obtain ⟨small, tcb⟩ := tasks.tcb here
  have member : inWait k p e' = true := least.1
  have before := not_handed_of_waits tcb member e
  refine conserves_updated change small here (iff_of_false ?_ before) fun handed => absurd handed before
  rintro ⟨at_event, -, ok⟩
  rcases away with other | aborted
  · exact other (Option.some.inj (((tcb.waits_iff e').mp member).1.symm.trans at_event))
  · exact aborted ok

/-- A post to a task that waits. -/
structure HandsOn (k k' : OsKernel) (e : Nat) (pmsg : INT32U) : Prop where
  types : typeOf k' = typeOf k
  count : (k'.osEventTbl e).osEventCnt = (k.osEventTbl e).osEventCnt
  queue : (k'.osEventTbl e).osEventPtr = (k.osEventTbl e).osEventPtr
  handed : ∀ want, handedWith k' e want = handedWith k e want + (want pmsg).toNat

theorem rdy_hands (tasks : TasksSound k) {pmsg : INT32U}
    (some : (k.osEventTbl e).osEventTbl.group ≠ 0)
    (readied : osEventTaskRdy k e pmsg (pendBit (typeOf k e)) .ok = Option.some k') :
    HandsOn k k' e pmsg := by
  obtain ⟨k₂, p, t, least, here, same, change⟩ := osEventTaskRdy_updated tasks pmsg .ok some
  rw [readied] at same
  cases same
  obtain ⟨small, tcb⟩ := tasks.tcb here
  have member : inWait k p e = true := least.1
  refine ⟨change.types, change.counts e, change.queues e, fun want => ?_⟩
  have moved := handedWith_update change.tcb small here e want
  rw [decide_eq_true (handed_rdy tcb member pmsg), Bool.true_and,
    decide_eq_false (not_handed_of_waits tcb member e), Bool.false_and, Bool.toNat_false,
    Nat.add_zero] at moved
  exact moved

theorem tokens_of_handsOn {pmsg : INT32U} (hands : HandsOn k k' e pmsg) : tokens k' e = tokens k e + 1 := by
  have more := hands.handed fun _ => true
  rw [Bool.toNat_true, ← handedOver_eq, ← handedOver_eq] at more
  rw [tokens, tokens, hands.count, more]
  omega

theorem rdyAll_conserves (tasks : TasksSound k) (missed : NoneMissed k) {e' : Nat} {r : Nat × OsKernel}
    (ran : osEventTaskRdyAll e' 0 (pendBit (typeOf k e')) .abort osMaxWaiters k = some r) :
    Conserves k r.2 e := by
  have start : Good k k := ⟨tasks, missed, Kept.refl k⟩
  refine (osEventTaskRdyAll_induct (P := fun next => Good k next ∧ Conserves k next e)
    (fun next last holds waiting readied => ?_) ran ⟨start, conserves_refl k e⟩).2
  obtain ⟨good, before⟩ := holds
  rw [← good.kept.types] at readied
  obtain ⟨last', readied', after, -⟩ := good_rdy good.tasks good.missed 0 .abort (by decide) waiting
  rw [readied] at readied'
  cases readied'
  have one : Conserves next last e := rdy_conserves good.tasks waiting (Or.inr (by decide)) readied
  exact ⟨⟨after.tasks, after.missed, good.kept.trans after.kept⟩, before.trans one⟩

/-- The effect is not about the counts of the event. -/
def Leaves (e : Nat) : OsEffect → Prop
  | .value pevent _ => pevent ≠ e
  | .rdy pevent _ _ => pevent ≠ e
  | _ => True

theorem setEvent_conserves {e' : Nat} {event : OsEvent} (other : e' ≠ e)
    (kind : event.osEventType = typeOf k e') : Conserves k (k.setEvent e' event) e := by
  have same : (k.setEvent e' event).osEventTbl e = k.osEventTbl e := Function.update_of_ne other.symm ..
  refine ⟨funext fun q => ?_, by rw [same], by rw [same], fun _ => rfl⟩
  by_cases here : q = e'
  · subst here
    simpa [typeOf, OsKernel.setEvent] using kind
  · simp [typeOf, OsKernel.setEvent, here]

theorem delayOver_conserves (tasks : TasksSound k) (here : k.osTCBPrioTbl p = some t)
    (runs : t.osTCBDly ≠ 0) : Conserves k (delayOver k p t) e := by
  obtain ⟨small, tcb⟩ := tasks.tcb here
  have same : Handed e t.delayOver ↔ Handed e t := handed_delayOver tcb runs
  exact conserves_updated (delayOver_updated tasks here) small here same fun _ => delayOver_msg t

theorem expire_conserves (tasks : TasksSound k) (here : k.osTCBPrioTbl p = some t) (runs : t.osTCBDly ≠ 0)
    (applied : OsEffect.apply k (.expire p) = some k') : Conserves k k' e := by
  rw [OsEffect.apply, here, Option.map_some, Option.some.injEq] at applied
  subst applied
  exact delayOver_conserves tasks here runs

theorem suspend_conserves (tasks : TasksSound k) (here : k.osTCBPrioTbl p = some t)
    (applied : OsEffect.apply k (.suspend p) = some k') : Conserves k k' e := by
  obtain ⟨small, tcb⟩ := tasks.tcb here
  rw [OsEffect.apply, here, Option.map_some, Option.some.injEq] at applied
  subst applied
  exact conserves_updated (unready_updated tasks here _) small here (handed_suspend tcb) fun _ => rfl

theorem resume_conserves (tasks : TasksSound k) (here : k.osTCBPrioTbl p = some t)
    (applied : OsEffect.apply k (.resume p) = some k') : Conserves k k' e := by
  obtain ⟨small, tcb⟩ := tasks.tcb here
  obtain ⟨k₂, same, change⟩ := resume_updated tasks p here
  obtain rfl : k' = k₂ := Option.some.inj (applied.symm.trans same)
  exact conserves_updated change small here (handed_resume tcb) fun _ => rfl

theorem apply_conserves (tasks : TasksSound k) (missed : NoneMissed k)
    (current : k.osTCBPrioTbl k.osPrioCur ≠ none)
    (called : k.osIntNesting = 0 → k.code k.osPrioCur = .app ∧ k.osPrioCur ≠ osTaskIdlePrio)
    (shape : Shape k c flow effect) (applied : effect.apply k = some k') (leaves : Leaves e effect) :
    Conserves k k' e := by
  obtain ⟨t, here⟩ := Option.ne_none_iff_exists'.mp current
  have cur : k.osTCBCur = some t := here
  obtain ⟨small, tcb⟩ := tasks.tcb here
  cases shape with
  | keep => cases applied; exact conserves_refl k e
  | value _ pevent event _ change =>
    cases applied
    refine setEvent_conserves leaves ?_
    cases change <;> rfl
  | lock => cases applied; exact ⟨rfl, rfl, rfl, fun _ => rfl⟩
  | unlock => cases applied; exact ⟨rfl, rfl, rfl, fun _ => rfl⟩
  | rdy _ pevent pmsg pendStat _ _ some => exact rdy_conserves tasks some (Or.inl leaves) applied
  | rdyAll _ pevent =>
    obtain ⟨r, ran, rfl⟩ := Option.map_eq_some_iff.mp applied
    exact rdyAll_conserves tasks missed ran
  | wait pend _ _ kind used task =>
    obtain ⟨k₂, waited, change⟩ :=
      osEventTaskWait_updated tasks cur pend.pevent (pendBit pend.kind) pend.timeout
    obtain rfl : k' = k₂ := Option.some.inj (applied.symm.trans waited)
    rw [(called task).1] at tcb
    have member : (decide (pend.pevent = pend.pevent) || inWait k k.osPrioCur pend.pevent) = true := by simp
    have pends := not_handed_of_waits (tcb.wait pend kind used) member e
    have before := not_handed_of_free tcb.place.symm e
    exact conserves_updated change small here (iff_of_false pends before) fun handed => absurd handed before
  | delay _ ticks =>
    rw [OsEffect.apply, cur, Option.map_some, Option.some.injEq] at applied
    subst applied
    exact conserves_updated (unready_updated tasks here _) small here Iff.rfl fun _ => rfl
  | expire _ prio ptcb _ there runs => exact expire_conserves tasks there runs applied
  | expireSuspended _ prio ptcb _ there runs => exact expire_conserves tasks there runs applied
  | suspendSelf => exact suspend_conserves tasks here applied
  | suspendOther _ prio ptcb there => exact suspend_conserves tasks there applied
  | resume _ prio ptcb there => exact resume_conserves tasks there applied
  | resumeWaiting _ prio ptcb there => exact resume_conserves tasks there applied

/-! ### One call -/

/-- The call has taken a count of the semaphore. -/
def takes (e : Nat) : OsCall → OsRet → Bool
  | .semAccept pevent, r => decide (pevent = e ∧ r.value ≠ 0)
  | .semPend pevent _, r => decide (pevent = e ∧ r.err = .none)
  | _, _ => false

/-- The call has given one. -/
def gives (e : Nat) : OsCall → OsRet → Bool
  | .semPost pevent, r => decide (pevent = e ∧ r.err = .none)
  | _, _ => false

def result : OsFlow → Option OsRet
  | .ret r => some r
  | .sched r => some r
  | .wait => none

/-- Counts that are taken and given with one step. -/
structure Balance (k k' : OsKernel) (e : Nat) (took gave : Bool) : Prop where
  types : typeOf k' = typeOf k
  tokens : tokens k' e + took.toNat = tokens k e + gave.toNat

theorem Conserves.balance (conserves : Conserves k k' e) {took gave : Bool} (same : took = gave) :
    Balance k k' e took gave := 
  ⟨conserves.types, by rw [tokens_of_conserves conserves, same]⟩

theorem takes_other (about : c.event ≠ some e) (r : OsRet) : takes e c r = false := by
  cases c <;> simp_all [takes, OsCall.event]

theorem gives_other (about : c.event ≠ some e) (r : OsRet) : gives e c r = false := by
  cases c <;> simp_all [gives, OsCall.event]

theorem leaves_of_shape (about : c.event ≠ some e) (shape : Shape k c flow effect) : Leaves e effect := by
  have other : ∀ {pevent}, c.event = some pevent → pevent ≠ e := by
    rintro pevent same rfl
    exact about same
  cases shape with
  | value _ _ _ at_event => exact other at_event
  | rdy _ _ _ _ at_event => exact other at_event
  | _ => trivial

theorem setCnt_tokens (k : OsKernel) (e : Nat) (cnt : INT16U) :
    typeOf (k.setEvent e { k.osEventTbl e with osEventCnt := cnt }) = typeOf k ∧
      tokens (k.setEvent e { k.osEventTbl e with osEventCnt := cnt }) e = cnt.toNat + handedOver k e := by
  constructor
  · funext q
    by_cases here : q = e
    · subst here
      simp [typeOf, OsKernel.setEvent]
    · simp [typeOf, OsKernel.setEvent, here]
  · have count :
        ((k.setEvent e { k.osEventTbl e with osEventCnt := cnt }).osEventTbl e).osEventCnt = cnt := by
      simp [OsKernel.setEvent]
    rw [tokens, count]
    rfl

theorem take_balance (positive : 0 < (k.osEventTbl e).osEventCnt) :
    Balance k (k.setEvent e { k.osEventTbl e with osEventCnt := (k.osEventTbl e).osEventCnt - 1 }) e
      true false := by
  obtain ⟨types, moved⟩ := setCnt_tokens k e ((k.osEventTbl e).osEventCnt - 1)
  refine ⟨types, ?_⟩
  rw [moved, tokens, Bool.toNat_true, Bool.toNat_false]
  have less : ((k.osEventTbl e).osEventCnt - 1).toNat + 1 = (k.osEventTbl e).osEventCnt.toNat := by
    bv_omega
  omega

theorem osSemAccept_balance (sem : typeOf k e = .sem) (ran : osSemAccept k e = (flow, k')) :
    Balance k k' e ((result flow).any (takes e (.semAccept e))) false := by
  simp only [osSemAccept] at ran
  rw [if_neg (not_not.mpr (show (k.osEventTbl e).osEventType = .sem from sem))] at ran
  split at ran
  case isTrue positive =>
    cases ran
    have some : (k.osEventTbl e).osEventCnt.setWidth 32 ≠ 0 := by bv_omega
    rw [show (result (.ret ⟨.none, (k.osEventTbl e).osEventCnt.setWidth 32⟩)).any
      (takes e (.semAccept e)) = true by simpa [result, takes] using some]
    exact take_balance positive
  case isFalse zero =>
    cases ran
    have none : (k.osEventTbl e).osEventCnt.setWidth 32 = 0 := by bv_omega
    refine (conserves_refl k e).balance ?_
    simp [result, takes, none]

theorem osSemPend_balance (tasks : TasksSound k) (missed : NoneMissed k)
    (current : k.osTCBPrioTbl k.osPrioCur ≠ none)
    (called : k.osIntNesting = 0 → k.code k.osPrioCur = .app ∧ k.osPrioCur ≠ osTaskIdlePrio)
    {timeout : INT32U} (sem : typeOf k e = .sem) (ran : osSemPend k e timeout = some (flow, k')) :
    Balance k k' e ((result flow).any (takes e (.semPend e timeout))) false := by
  obtain ⟨effect, shape, applied⟩ := run_does (c := .semPend e timeout) ran
  simp only [osSemPend] at ran
  rw [if_neg (not_not.mpr (show (k.osEventTbl e).osEventType = .sem from sem))] at ran
  split at ran
  case isTrue => cases ran; exact (conserves_refl k e).balance (by simp [result, takes])
  case isFalse =>
    split at ran
    case isTrue => cases ran; exact (conserves_refl k e).balance (by simp [result, takes])
    case isFalse =>
      split at ran
      case isTrue positive =>
        cases ran
        rw [show (result (.ret ⟨.none, 0⟩)).any (takes e (.semPend e timeout)) = true by
          simp [result, takes]]
        exact take_balance positive
      case isFalse =>
        obtain ⟨k₂, waited, same⟩ := Option.map_eq_some_iff.mp ran
        cases same
        have leaves : Leaves e effect := by
          cases shape with
          | wait => trivial
        exact (apply_conserves tasks missed current called shape applied leaves).balance rfl

theorem osPendAbort_conserves (tasks : TasksSound k) (missed : NoneMissed k) {broadcast : Bool}
    {kind : OsEventType} (of_kind : typeOf k e = kind)
    (ran : osPendAbort kind (pendBit kind) k e broadcast = some (flow, k')) : Conserves k k' e := by
  subst of_kind
  simp only [osPendAbort] at ran
  rw [if_neg (not_not.mpr (show (k.osEventTbl e).osEventType = typeOf k e from rfl))] at ran
  split at ran
  case isTrue waiting =>
    split at ran
    case isTrue =>
      obtain ⟨r, all, same⟩ := Option.map_eq_some_iff.mp ran
      cases same
      exact rdyAll_conserves tasks missed all
    case isFalse =>
      obtain ⟨k₂, one, same⟩ := Option.map_eq_some_iff.mp ran
      cases same
      exact rdy_conserves tasks waiting (Or.inr (by decide)) one
  case isFalse => cases ran; exact conserves_refl k e

theorem osSemPost_balance (tasks : TasksSound k) (sem : typeOf k e = .sem)
    (ran : osSemPost k e = some (flow, k')) :
    Balance k k' e false ((result flow).any (gives e (.semPost e))) := by
  have bit : osStatSem = pendBit (typeOf k e) := by rw [sem]; rfl
  have given : ∀ flow, result flow = some ⟨.none, 0⟩ → (result flow).any (gives e (.semPost e)) = true := by
    intro flow fine
    rw [fine, Option.any_some, gives, decide_eq_true ⟨rfl, rfl⟩]
  simp only [osSemPost] at ran
  rw [if_neg (not_not.mpr (show (k.osEventTbl e).osEventType = .sem from sem)), bit] at ran
  split at ran
  case isTrue waiting =>
    obtain ⟨k₂, one, same⟩ := Option.map_eq_some_iff.mp ran
    cases same
    have hands := rdy_hands tasks waiting one
    refine ⟨hands.types, ?_⟩
    rw [tokens_of_handsOn hands, given _ rfl, Bool.toNat_true, Bool.toNat_false, Nat.add_zero]
  case isFalse =>
    split at ran
    case isTrue room =>
      cases ran
      obtain ⟨types, moved⟩ := setCnt_tokens k e ((k.osEventTbl e).osEventCnt + 1)
      refine ⟨types, ?_⟩
      have more : ((k.osEventTbl e).osEventCnt + 1).toNat = (k.osEventTbl e).osEventCnt.toNat + 1 := by
        bv_omega
      rw [moved, more, tokens, given _ rfl, Bool.toNat_true, Bool.toNat_false]
      omega
    case isFalse => cases ran; exact (conserves_refl k e).balance (by simp [result, gives])

/-- A call for a queue gives an error where the event is a semaphore. -/
theorem q_refused (sem : typeOf k e = .sem) (about : c.event = some e)
    (queue : (∀ pevent, c ≠ .semAccept pevent) ∧ (∀ pevent timeout, c ≠ .semPend pevent timeout) ∧
      (∀ pevent broadcast, c ≠ .semPendAbort pevent broadcast) ∧ (∀ pevent, c ≠ .semPost pevent) ∧
      ∀ pevent cnt, c ≠ .semSet pevent cnt) (ran : c.run k = some (flow, k')) : k' = k := by
  have kind : ¬(k.osEventTbl e).osEventType = .q := by
    rw [show (k.osEventTbl e).osEventType = .sem from sem]
    nofun
  cases c <;> simp_all [OsCall.event, OsCall.run, osQAccept, osQPend, osQPendAbort, osPendAbort, osQPost,
    osQPostFront, osQPostWith]

/-- A critical section of a call, OSSemSet on this semaphore excepted. -/
theorem run_balance (tasks : TasksSound k) (missed : NoneMissed k)
    (current : k.osTCBPrioTbl k.osPrioCur ≠ none)
    (called : k.osIntNesting = 0 → k.code k.osPrioCur = .app ∧ k.osPrioCur ≠ osTaskIdlePrio)
    (sem : typeOf k e = .sem) (unset : ∀ cnt, c ≠ .semSet e cnt) (ran : c.run k = some (flow, k')) :
    Balance k k' e ((result flow).any (takes e c)) ((result flow).any (gives e c)) := by
  have queue : (∀ r, takes e c r = false) → (∀ r, gives e c r = false) → k' = k →
      Balance k k' e ((result flow).any (takes e c)) ((result flow).any (gives e c)) := by
    rintro untaken ungiven rfl
    refine (conserves_refl k' e).balance ?_
    cases result flow <;> simp [untaken, ungiven]
  by_cases about : c.event = some e
  case neg =>
    obtain ⟨effect, shape, applied⟩ := run_does ran
    have leaves := leaves_of_shape about shape
    refine (apply_conserves tasks missed current called shape applied leaves).balance ?_
    cases result flow <;> simp [takes_other about, gives_other about]
  cases c with
  | semAccept pevent =>
    obtain rfl : pevent = e := Option.some.inj about
    have none : (result flow).any (gives pevent (.semAccept pevent)) = false := by
      cases result flow <;> rfl
    rw [none]
    exact osSemAccept_balance sem (Option.some.inj ran)
  | semPend pevent timeout =>
    obtain rfl : pevent = e := Option.some.inj about
    have none : (result flow).any (gives pevent (.semPend pevent timeout)) = false := by
      cases result flow <;> rfl
    rw [none]
    exact osSemPend_balance tasks missed current called sem ran
  | semPendAbort pevent broadcast =>
    obtain rfl : pevent = e := Option.some.inj about
    refine (osPendAbort_conserves tasks missed sem ran).balance ?_
    cases result flow <;> rfl
  | semPost pevent =>
    obtain rfl : pevent = e := Option.some.inj about
    have none : (result flow).any (takes pevent (.semPost pevent)) = false := by
      cases result flow <;> rfl
    rw [none]
    exact osSemPost_balance tasks sem ran
  | semSet pevent cnt =>
    obtain rfl : pevent = e := Option.some.inj about
    exact absurd rfl (unset cnt)
  | qAccept => exact queue (fun _ => rfl) (fun _ => rfl) (q_refused sem about (by simp) ran)
  | qPend => exact queue (fun _ => rfl) (fun _ => rfl) (q_refused sem about (by simp) ran)
  | qPendAbort => exact queue (fun _ => rfl) (fun _ => rfl) (q_refused sem about (by simp) ran)
  | qPost => exact queue (fun _ => rfl) (fun _ => rfl) (q_refused sem about (by simp) ran)
  | qPostFront => exact queue (fun _ => rfl) (fun _ => rfl) (q_refused sem about (by simp) ran)
  | _ => cases about

/-! ### One step -/

def took (e : Nat) (d : OsDone) : Bool := takes e d.call d.ret

def gave (e : Nat) (d : OsDone) : Bool := gives e d.call d.ret

/-- No step sets the count of the semaphore by hand. -/
def Unset (e : Nat) : OsAction → Prop
  | .call (.semSet pevent _) => pevent ≠ e
  | .isr (.semSet pevent _) => pevent ≠ e
  | _ => True

theorem osSwitch_conserves (k : OsKernel) (e : Nat) : Conserves k (osSwitch k) e := by
  rcases osSwitch_cases k with ⟨-, -, same⟩ | ⟨-, same⟩ | ⟨-, same⟩ <;> rw [same] <;>
    exact ⟨rfl, rfl, rfl, fun _ => rfl⟩

theorem tick_conserves (tasks : TasksSound k) (ran : osTimeTickPass k p = some k') : Conserves k k' e := by
  rw [osTimeTickPass] at ran
  split at ran
  next => cases ran
  next t here =>
    obtain ⟨small, -⟩ := tasks.tcb here
    split at ran
    case isTrue runs =>
      dsimp only at ran
      split at ran <;> cases ran
      case isTrue =>
        exact delayOver_conserves tasks here runs
      case isFalse => exact conserves_updated (tasks.setTcb here _) small here Iff.rfl fun _ => rfl
    case isFalse => cases ran; exact conserves_refl k e

/-- A pend succeeds exactly where the task has been handed the semaphore. -/
theorem finish_took {code : CodePoint} {ready : Bool} {pend : OsPend} (sem : typeOf k e = .sem)
    (tcb : TcbSound (typeOf k) t code ready waits) (at_pend : pendOf code = some pend) (idle : ¬Pending t)
    (pmsg cleared : INT32U) :
    takes e pend.call (osPendFinish k t pend.pevent pmsg cleared).1 = decide (Handed e t) := by
  have at_event : t.osTCBEventPtr = some pend.pevent := by rw [← tcb.place, at_pend, Option.map_some]
  by_cases mine : pend.pevent = e
  · have kind := tcb.kind pend at_pend
    rw [mine, sem] at kind
    have call : pend.call = .semPend e pend.timeout := by rw [OsPend.call, ← kind, ← mine]
    rw [call, takes, decide_eq_decide, Handed, at_event, mine, osPendFinish]
    cases t.osTCBStatPend <;> simp [idle]
  · have other : ¬Handed e t := by
      rintro ⟨at_other, -⟩
      exact mine (Option.some.inj (at_event.symm.trans at_other))
    rw [decide_eq_false other, OsPend.call]
    split
    · rfl
    · simp [takes, mine]

theorem finish_balance (sound : KernelSound k) (runs : k.TaskRuns) {pend : OsPend}
    (here : k.code k.osPrioCur = .finish pend) (sem : typeOf k e = .sem) {r : OsRet × OsKernel}
    (ran : pend.finish k = some r) :
    Balance k r.2 e (takes e pend.call r.1) (gives e pend.call r.1) := by
  have ready := finishing_ready sound runs here
  obtain ⟨tasks, -, sched⟩ := sound
  obtain ⟨t, there⟩ := Option.ne_none_iff_exists'.mp sched.current
  obtain ⟨small, tcb⟩ := tasks.tcb there
  rw [here, ready] at tcb
  obtain ⟨pmsg, cleared, same⟩ := finish_eq there pend
  rw [ran] at same
  cases same
  have change := osPendFinish_updated tasks there pend.pevent pmsg cleared
  have moved := handedOver_update change.tcb small there e
  have finished : ¬Handed e { t with
      osTCBStat := osStatRdy, osTCBStatPend := .ok, osTCBEventPtr := none, osTCBMsg := cleared } := by
    rintro ⟨⟨⟩, -⟩
  rw [decide_eq_false finished, Bool.toNat_false] at moved
  have idle : ¬Pending t := not_pending_of_plain (Or.inl (tcb.ready_iff.mp rfl).1)
  have ungiven : ∀ r, gives e pend.call r = false := by
    intro r
    rw [OsPend.call]
    split <;> rfl
  refine ⟨change.types, ?_⟩
  rw [finish_took sem tcb rfl idle, ungiven, tokens, tokens, change.counts, Bool.toNat_false]
  omega

/-- What one step is about: nothing that is counted, a call, or the rest of a pend. -/
inductive StepShape (k : OsKernel) (e : Nat) : OsAction → OsKernel × Option OsDone → Prop
  | silent (a : OsAction) (k' : OsKernel) (conserves : Conserves k k' e) : StepShape k e a (k', none)
  | call (a : OsAction) (c : OsCall) (flow : OsFlow) (k' k₂ : OsKernel) (who : Option Nat)
      (calls : a = .call c ∨ a = .isr c) (ran : c.run k = some (flow, k'))
      (called : k.osIntNesting = 0 → k.code k.osPrioCur = .app ∧ k.osPrioCur ≠ osTaskIdlePrio)
      (conserves : Conserves k' k₂ e) : StepShape k e a (k₂, (result flow).map fun r => ⟨who, c, r⟩)
  | finish (a : OsAction) (pend : OsPend) (r : OsRet × OsKernel) (k₂ : OsKernel) (runs : k.TaskRuns)
      (here : k.code k.osPrioCur = .finish pend) (ran : pend.finish k = some r)
      (conserves : Conserves r.2 k₂ e) : StepShape k e a (k₂, some ⟨some k.osPrioCur, pend.call, r.1⟩)

theorem setCode_conserves (k : OsKernel) (p : Nat) (code : CodePoint) (e : Nat) :
    Conserves k (k.setCode p code) e := ⟨rfl, rfl, rfl, fun _ => rfl⟩

theorem step_shape (tasks : TasksSound k) {a : OsAction} {r : OsKernel × Option OsDone}
    (taken : k.step a = some r) (e : Nat) : StepShape k e a r := by
  have enabled := enabled_of_step taken
  cases a with
  | call c =>
    have now : k.TaskRuns ∧ k.code k.osPrioCur = .app ∧ k.osPrioCur ≠ osTaskIdlePrio := enabled
    rw [OsKernel.step, if_pos now] at taken
    obtain ⟨⟨flow, k'⟩, ran, after⟩ := Option.bind_eq_some_iff.mp taken
    have shape := fun k₂ => StepShape.call (e := e) (.call c) c flow k' k₂ (some k.osPrioCur) (Or.inl rfl)
      ran fun _ => now.2
    cases flow <;> cases after
    · exact shape _ (conserves_refl _ e)
    · exact shape _ (setCode_conserves ..)
    · exact shape _ (setCode_conserves ..)
  | isr c =>
    have nested : 0 < k.osIntNesting := enabled
    rw [OsKernel.step, if_pos nested] at taken
    obtain ⟨⟨flow, k'⟩, ran, after⟩ := Option.bind_eq_some_iff.mp taken
    have shape := fun k₂ => StepShape.call (e := e) (.isr c) c flow k' k₂ none (Or.inr rfl) ran
      fun task => absurd task (Nat.ne_of_gt nested)
    cases flow <;> cases after <;> exact shape _ (conserves_refl _ e)
  | sched =>
    obtain ⟨runs, pend, here⟩ := enabled
    rw [OsKernel.step, if_pos runs, here] at taken
    cases taken
    refine .silent _ _ ((osSwitch_conserves k e).trans ?_)
    cases pend <;> exact setCode_conserves ..
  | finish =>
    obtain ⟨runs, pend, here⟩ := enabled
    rw [OsKernel.step, if_pos runs, here] at taken
    obtain ⟨r, ran, same⟩ := Option.map_eq_some_iff.mp taken
    cases same
    exact .finish _ pend r _ runs here ran (setCode_conserves ..)
  | pendSV =>
    have due : k.osIntNesting = 0 ∧ k.pendSV = true := enabled
    rw [OsKernel.step, if_pos due] at taken
    obtain ⟨k', switched, same⟩ := Option.map_eq_some_iff.mp taken
    cases same
    rw [pendSVHandler] at switched
    split at switched <;> cases switched
    exact .silent _ _ ⟨rfl, rfl, rfl, fun _ => rfl⟩
  | intEnter =>
    cases taken
    rw [osIntEnter]
    split
    · exact .silent _ _ ⟨rfl, rfl, rfl, fun _ => rfl⟩
    · exact .silent _ _ (conserves_refl k e)
  | intExit =>
    have nested : 0 < k.osIntNesting := enabled
    rw [OsKernel.step, if_pos nested] at taken
    cases taken
    have less : Conserves k { k with osIntNesting := k.osIntNesting - 1 } e := ⟨rfl, rfl, rfl, fun _ => rfl⟩
    exact .silent _ _ (less.trans (osSwitch_conserves _ e))
  | tick prio =>
    rw [OsKernel.step, if_pos ⟨enabled.1, enabled.2⟩] at taken
    obtain ⟨k', ran, same⟩ := Option.map_eq_some_iff.mp taken
    cases same
    exact .silent _ _ (tick_conserves tasks ran)

theorem step_balance (sound : KernelSound k) (sem : typeOf k e = .sem) {a : OsAction} (unset : Unset e a)
    {r : OsKernel × Option OsDone} (taken : k.step a = some r) :
    Balance k r.1 e (r.2.any (took e)) (r.2.any (gave e)) := by
  cases step_shape sound.tasks taken e with
  | silent k' conserves => exact conserves.balance rfl
  | call c flow k' k₂ who calls ran called conserves =>
    have unset : ∀ cnt, c ≠ .semSet e cnt := by
      rintro cnt rfl
      rcases calls with rfl | rfl <;> exact unset rfl
    have balance := run_balance sound.tasks sound.missed sound.sched.current called sem unset ran
    refine ⟨conserves.types.trans balance.types, ?_⟩
    rw [tokens_of_conserves conserves, Option.any_map, Option.any_map]
    exact balance.tokens
  | finish pend r k₂ runs here ran conserves =>
    have balance := finish_balance sound runs here sem ran
    refine ⟨conserves.types.trans balance.types, ?_⟩
    rw [tokens_of_conserves conserves]
    exact balance.tokens

/-! ### Every run -/

/-- How often the semaphore has been taken, and given. -/
def takenCount (e : Nat) (outs : List (Option OsDone)) : Nat := outs.reduceOption.countP (took e)

def givenCount (e : Nat) (outs : List (Option OsDone)) : Nat := outs.reduceOption.countP (gave e)

theorem tokens_of_run {events : List OsAction} {last : OsKernel} {outs : List (Option OsDone)}
    (sound : KernelSound k) (sem : typeOf k e = .sem)
    (each : EachStep (Interleaving.next OsKernel.step) (fun k a => Spares k a ∧ Unset e a) k events)
    (ran : Interleaving.run OsKernel.step k events = some (last, outs)) :
    tokens last e + takenCount e outs = tokens k e + givenCount e outs := by
  induction events generalizing k outs with
  | nil => cases ran; rfl
  | cons a rest ih =>
    cases taken : k.step a with
    | none =>
      rw [Interleaving.run_cons_none _ taken] at ran
      cases ran
    | some first =>
      rw [Interleaving.run_cons _ taken] at ran
      obtain ⟨tail, later, same⟩ := Option.map_eq_some_iff.mp ran
      cases same
      obtain ⟨⟨spares, unset⟩, others⟩ := each
      have balance := step_balance sound sem unset taken
      have reached : Interleaving.next OsKernel.step k a = some first.1 := by
        rw [Interleaving.next, taken, Option.map_some]
      have behind := ih (step_kept sound spares taken) (by rw [balance.types, sem]) (others _ reached) later
      have here := balance.tokens
      rw [takenCount, givenCount, countP_reduceOption_cons, countP_reduceOption_cons, ← takenCount,
        ← givenCount]
      omega

theorem handedWith_started (creates : List OsCreate) (e : Nat) (want : INT32U → Bool) :
    handedWith (started creates) e want = 0 := by
  have fresh := creates_fresh creates osInit_fresh
  refine Finset.sum_eq_zero fun p _ => ?_
  have entry : (started creates).osTCBPrioTbl p = (creates.foldl OsCreate.run osInit).osTCBPrioTbl p := rfl
  rw [wanted, entry]
  cases here : (creates.foldl OsCreate.run osInit).osTCBPrioTbl p with
  | none => rfl
  | some t =>
    obtain ⟨-, rfl⟩ := fresh.tcb p t here
    rfl

theorem tokens_started (creates : List OsCreate) (e : Nat) :
    tokens (started creates) e = ((started creates).osEventTbl e).osEventCnt.toNat := by
  rw [tokens, handedOver_eq, handedWith_started, Nat.add_zero]

/-- Takes, counts on their way and the count left make up the first count and the posts that
succeeded. -/
theorem counts_conserved (creates : List OsCreate) (events : List OsAction) (e : Nat) {last : OsKernel}
    {outs : List (Option OsDone)} (sem : ((started creates).osEventTbl e).osEventType = .sem)
    (each : EachStep (Interleaving.next OsKernel.step) (fun k a => Spares k a ∧ Unset e a)
      (started creates) events)
    (ran : Interleaving.run OsKernel.step (started creates) events = some (last, outs)) :
    takenCount e outs + handedOver last e + (last.osEventTbl e).osEventCnt.toNat =
      ((started creates).osEventTbl e).osEventCnt.toNat + givenCount e outs := by
  have total := tokens_of_run (started_sound creates) sem each ran
  rw [tokens_started, tokens] at total
  omega

/-- A count that is posted while the higher task waits, and one that is left after it. -/
theorem counts_conserved_handed :
    ∃ last, Interleaving.run OsKernel.step (started [.task 5, .task 7, .sem 0 0])
        [.call (.semPend 0 0), .sched, .pendSV, .call (.semPost 0), .sched, .intEnter, .isr (.semPost 0)] =
      some (last, [none, none, none, some ⟨some 7, .semPost 0, ⟨.none, 0⟩⟩, none, none,
        some ⟨none, .semPost 0, ⟨.none, 0⟩⟩]) ∧
      takenCount 0 [none, none, none, some ⟨some 7, .semPost 0, ⟨.none, 0⟩⟩, none, none,
        some ⟨none, .semPost 0, ⟨.none, 0⟩⟩] + handedOver last 0 + (last.osEventTbl 0).osEventCnt.toNat =
      ((started [.task 5, .task 7, .sem 0 0]).osEventTbl 0).osEventCnt.toNat +
        givenCount 0 [none, none, none, some ⟨some 7, .semPost 0, ⟨.none, 0⟩⟩, none, none,
          some ⟨none, .semPost 0, ⟨.none, 0⟩⟩] := by
  have reached : (Interleaving.run OsKernel.step (started [.task 5, .task 7, .sem 0 0])
      [.call (.semPend 0 0), .sched, .pendSV, .call (.semPost 0), .sched, .intEnter, .isr (.semPost 0)]).map
        Prod.snd = some [none, none, none, some ⟨some 7, .semPost 0, ⟨.none, 0⟩⟩, none, none,
          some ⟨none, .semPost 0, ⟨.none, 0⟩⟩] := by decide +kernel
  obtain ⟨⟨last, outs⟩, ran, rfl⟩ := Option.map_eq_some_iff.mp reached
  refine ⟨last, ran, counts_conserved _ _ 0 rfl ?_ ran⟩
  simp [EachStep, Spares, SparesIdle, Unset]

/-! ### A semaphore as a lock -/

/-- How often one task has taken and given the semaphore; `none` are the interrupt routines. -/
def takenBy (e : Nat) (who : Option Nat) (outs : List (Option OsDone)) : Nat :=
  outs.reduceOption.countP fun d => decide (d.task = who) && took e d

def givenBy (e : Nat) (who : Option Nat) (outs : List (Option OsDone)) : Nat :=
  outs.reduceOption.countP fun d => decide (d.task = who) && gave e d

/-- Where nobody gives what it has not taken, and one is inside, nobody else is. -/
theorem alone_inside {last : OsKernel} {outs : List (Option OsDone)}
    (total : takenCount e outs + handedOver last e + (last.osEventTbl e).osEventCnt.toNat =
      1 + givenCount e outs)
    (fair : ∀ who, givenBy e who outs ≤ takenBy e who outs) {who : Option Nat}
    (inside : givenBy e who outs < takenBy e who outs) (other : Option Nat) :
    takenBy e who outs = givenBy e who outs + 1 ∧ handedOver last e = 0 ∧
      (last.osEventTbl e).osEventCnt.toNat = 0 ∧
      (other ≠ who → takenBy e other outs = givenBy e other outs) := by
  let parties : Finset (Option Nat) :=
    insert who (insert other (outs.reduceOption.map OsDone.task).toFinset)
  have known : ∀ d ∈ outs.reduceOption, d.task ∈ parties := by
    intro d member
    refine Finset.mem_insert_of_mem (Finset.mem_insert_of_mem ?_)
    exact List.mem_toFinset.mpr (List.mem_map_of_mem member)
  have taken : takenCount e outs = ∑ w ∈ parties, takenBy e w outs :=
    countP_eq_sum OsDone.task (took e) known
  have given : givenCount e outs = ∑ w ∈ parties, givenBy e w outs :=
    countP_eq_sum OsDone.task (gave e) known
  rw [taken, given, Nat.add_assoc] at total
  obtain ⟨once, none, others⟩ :=
    one_inside total (fun w _ => fair w) (Finset.mem_insert_self ..) inside
  refine ⟨once, by omega, by omega, others other ?_⟩
  exact Finset.mem_insert_of_mem (Finset.mem_insert_self ..)

/-- A semaphore that starts with one count, that `OSSemSet` is not called on and that nobody
gives more often than it has taken it is a lock: while a task is inside, no other one is, none
has been let in, and none can be. -/
theorem lock_exclusive (creates : List OsCreate) (events : List OsAction) (e : Nat) {last : OsKernel}
    {outs : List (Option OsDone)} (sem : ((started creates).osEventTbl e).osEventType = .sem)
    (one : ((started creates).osEventTbl e).osEventCnt = 1)
    (each : EachStep (Interleaving.next OsKernel.step) (fun k a => Spares k a ∧ Unset e a)
      (started creates) events)
    (ran : Interleaving.run OsKernel.step (started creates) events = some (last, outs))
    (fair : ∀ who, givenBy e who outs ≤ takenBy e who outs) {who : Option Nat}
    (inside : givenBy e who outs < takenBy e who outs) :
    takenBy e who outs = givenBy e who outs + 1 ∧
      (∀ other, other ≠ who → takenBy e other outs = givenBy e other outs) ∧
      handedOver last e = 0 ∧ (last.osEventTbl e).osEventCnt = 0 := by
  have total := tokens_of_run (started_sound creates) sem each ran
  rw [tokens_started, one, tokens] at total
  have sum : takenCount e outs + handedOver last e + (last.osEventTbl e).osEventCnt.toNat =
      1 + givenCount e outs := by
    rw [show (1 : INT16U).toNat = 1 from rfl] at total
    omega
  obtain ⟨once, none, zero, -⟩ := alone_inside sum fair inside who
  refine ⟨once, fun other => (alone_inside sum fair inside other).2.2.2, none, ?_⟩
  exact BitVec.eq_of_toNat_eq zero

/-- The lower task is inside, and the higher one waits for it. -/
theorem lock_exclusive_waiting :
    ∃ last, Interleaving.run OsKernel.step (started [.task 5, .task 7, .sem 0 1])
        [.call (.timeDly 10), .sched, .pendSV, .call (.semPend 0 0), .call (.timeDlyResume 5), .sched,
          .pendSV, .call (.semPend 0 0), .sched, .pendSV] =
      some (last, [some ⟨some 5, .timeDly 10, ⟨.none, 0⟩⟩, none, none, some ⟨some 7, .semPend 0 0, ⟨.none, 0⟩⟩,
        some ⟨some 7, .timeDlyResume 5, ⟨.none, 0⟩⟩, none, none, none, none, none]) ∧
      handedOver last 0 = 0 ∧ (last.osEventTbl 0).osEventCnt = 0 := by
  have reached : (Interleaving.run OsKernel.step (started [.task 5, .task 7, .sem 0 1])
      [.call (.timeDly 10), .sched, .pendSV, .call (.semPend 0 0), .call (.timeDlyResume 5), .sched,
        .pendSV, .call (.semPend 0 0), .sched, .pendSV]).map Prod.snd =
      some [some ⟨some 5, .timeDly 10, ⟨.none, 0⟩⟩, none, none, some ⟨some 7, .semPend 0 0, ⟨.none, 0⟩⟩,
        some ⟨some 7, .timeDlyResume 5, ⟨.none, 0⟩⟩, none, none, none, none, none] := by decide +kernel
  obtain ⟨⟨last, outs⟩, ran, same⟩ := Option.map_eq_some_iff.mp reached
  have each : EachStep (Interleaving.next OsKernel.step) (fun k a => Spares k a ∧ Unset 0 a)
      (started [.task 5, .task 7, .sem 0 1])
      [.call (.timeDly 10), .sched, .pendSV, .call (.semPend 0 0), .call (.timeDlyResume 5), .sched,
        .pendSV, .call (.semPend 0 0), .sched, .pendSV] := by
    simp [EachStep, Spares, SparesIdle, Unset]
  have fair : ∀ who, givenBy 0 who outs ≤ takenBy 0 who outs := by
    intro who
    rw [show outs = _ from same]
    simp [givenBy, gave, gives, List.reduceOption]
  have inside : givenBy 0 (some 7) outs < takenBy 0 (some 7) outs := by
    rw [show outs = _ from same]
    decide
  obtain ⟨-, -, alone⟩ := lock_exclusive _ _ 0 rfl rfl each ran fair inside
  refine ⟨last, ?_, alone⟩
  rw [ran, show outs = _ from same]

end GasSub.Guarantees.KernelSemaphores
