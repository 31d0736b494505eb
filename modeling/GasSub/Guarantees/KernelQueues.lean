import GasSub.Guarantees.KernelSemaphores
import Mathlib.Data.Nat.ModEq

/-!
# Queues lose no message

The storage of a queue is a ring. A post puts a message behind or before the others, or
gives it to a task that waits. Whatever timeouts, aborts and suspensions come between,
every message posted is received once, on its way to a task or still in the queue.
-/
namespace GasSub.Guarantees.KernelQueues
open GasSub.Library GasSub.Library.Run GasSub.Library.TokenCount GasSub.Source
open KernelTasks KernelInvariant KernelScheduling KernelRuns KernelSemaphores

/-! ### The ring -/

/-- The messages in a queue, the next one first. -/
def contents (pq : OsQ) : List INT32U :=
  (List.range pq.osQEntries).map fun i => pq.osQStart ((pq.osQOut + i) % pq.osQSize)

structure RingSound (pq : OsQ) : Prop where
  room : pq.osQEntries ≤ pq.osQSize
  out : 0 < pq.osQSize → pq.osQOut < pq.osQSize
  place : 0 < pq.osQSize → pq.osQIn = (pq.osQOut + pq.osQEntries) % pq.osQSize

variable {pq : OsQ}

theorem next_place {size place : Nat} (inside : place < size) :
    (if place + 1 = size then 0 else place + 1) = (place + 1) % size := by
  split
  case isTrue last => rw [last, Nat.mod_self]
  case isFalse more => rw [Nat.mod_eq_of_lt (by omega)]

theorem add_next (out size i : Nat) : ((out + 1) % size + i) % size = (out + (i + 1)) % size := by
  rw [Nat.mod_add_mod, Nat.add_right_comm, Nat.add_assoc]

theorem place_inj {out size i j : Nat} (first : i < size) (second : j < size)
    (same : (out + i) % size = (out + j) % size) : i = j := by
  have equal := Nat.ModEq.add_left_cancel' out (show out + i ≡ out + j [MOD size] from same)
  rwa [Nat.ModEq, Nat.mod_eq_of_lt first, Nat.mod_eq_of_lt second] at equal

theorem contents_extract (sound : RingSound pq) (some : 0 < pq.osQEntries) :
    contents pq = pq.extract.1 :: contents pq.extract.2 ∧ RingSound pq.extract.2 := by
  have positive : 0 < pq.osQSize := Nat.lt_of_lt_of_le some sound.room
  have inside := sound.out positive
  have next : pq.extract.2.osQOut = (pq.osQOut + 1) % pq.osQSize := next_place inside
  obtain ⟨n, count⟩ := Nat.exists_eq_succ_of_ne_zero (Nat.ne_of_gt some)
  have fewer : pq.extract.2.osQEntries = n := by
    rw [show pq.extract.2.osQEntries = pq.osQEntries - 1 from rfl, count, Nat.succ_sub_one]
  constructor
  · have first : pq.osQStart ((pq.osQOut + 0) % pq.osQSize) = pq.extract.1 := by
      rw [Nat.add_zero, Nat.mod_eq_of_lt inside]
      rfl
    rw [contents, contents, next, fewer, count, List.range_succ_eq_map, List.map_cons, List.map_map, first]
    refine congrArg (pq.extract.1 :: ·) (List.map_congr_left fun i _ => ?_)
    exact congrArg pq.osQStart (add_next ..).symm
  · refine ⟨Nat.le_trans (Nat.sub_le ..) sound.room, fun _ => ?_, fun _ => ?_⟩
    · rw [next]
      exact Nat.mod_lt _ positive
    · rw [next, fewer]
      refine (sound.place positive).trans ?_
      rw [count]
      exact (add_next ..).symm

theorem contents_insert (sound : RingSound pq) (free : pq.osQEntries < pq.osQSize) (pmsg : INT32U) :
    contents (pq.insert pmsg) = contents pq ++ [pmsg] ∧ RingSound (pq.insert pmsg) := by
  have positive : 0 < pq.osQSize := by omega
  have place := sound.place positive
  have next : (pq.insert pmsg).osQIn = (pq.osQIn + 1) % pq.osQSize :=
    next_place (by rw [place]; exact Nat.mod_lt _ positive)
  constructor
  · rw [contents, show (pq.insert pmsg).osQEntries = pq.osQEntries + 1 from rfl, List.range_succ,
      List.map_append, List.map_singleton, contents]
    have last : (pq.insert pmsg).osQStart
        (((pq.insert pmsg).osQOut + pq.osQEntries) % (pq.insert pmsg).osQSize) = pmsg := by
      refine Eq.trans (congrArg _ place.symm) ?_
      exact Function.update_self ..
    rw [last]
    refine congrArg (· ++ [pmsg]) (List.map_congr_left fun i member => ?_)
    have small := List.mem_range.mp member
    refine Function.update_of_ne (fun same => ?_) ..
    rw [place] at same
    have := place_inj (by omega) free same
    omega
  · refine ⟨free, fun _ => sound.out positive, fun _ => ?_⟩
    rw [next, place, Nat.mod_add_mod]
    rfl

theorem contents_insertFront (sound : RingSound pq) (free : pq.osQEntries < pq.osQSize) (pmsg : INT32U) :
    contents (pq.insertFront pmsg) = pmsg :: contents pq ∧ RingSound (pq.insertFront pmsg) := by
  have positive : 0 < pq.osQSize := by omega
  have inside := sound.out positive
  obtain ⟨out, entry⟩ : ∃ out, (pq.insertFront pmsg).osQOut = out := ⟨_, rfl⟩
  have back : (if pq.osQOut = 0 then pq.osQSize else pq.osQOut) - 1 = out := entry
  have cells : (pq.insertFront pmsg).osQStart = Function.update pq.osQStart out pmsg := by
    rw [← back]
    rfl
  have small : out < pq.osQSize := by
    rw [← back]
    split <;> omega
  have forth : (out + 1) % pq.osQSize = pq.osQOut := by
    rw [← back]
    split
    case isTrue first => rw [Nat.sub_add_cancel positive, Nat.mod_self, first]
    case isFalse later => rw [Nat.sub_add_cancel (by omega), Nat.mod_eq_of_lt inside]
  constructor
  · rw [contents, entry, cells, show (pq.insertFront pmsg).osQEntries = pq.osQEntries + 1 from rfl,
      show (pq.insertFront pmsg).osQSize = pq.osQSize from rfl, List.range_succ_eq_map, List.map_cons,
      List.map_map, Nat.add_zero, Nat.mod_eq_of_lt small, Function.update_self, contents]
    refine congrArg (pmsg :: ·) (List.map_congr_left fun i member => ?_)
    have below := List.mem_range.mp member
    have other : (out + (i + 1)) % pq.osQSize ≠ out := by
      intro same
      have first : (out + (i + 1)) % pq.osQSize = (out + 0) % pq.osQSize := by
        rw [same, Nat.add_zero, Nat.mod_eq_of_lt small]
      have := place_inj (by omega) positive first
      omega
    refine (Function.update_of_ne other ..).trans ?_
    rw [← add_next, forth]
  · refine ⟨free, fun _ => by rw [entry]; exact small, fun _ => ?_⟩
    rw [entry]
    refine (sound.place positive).trans ?_
    rw [← forth]
    exact add_next ..

/-! ### One call -/

/-- How often a message is in the queue or on its way to a task. -/
def messages (k : OsKernel) (e : Nat) (m : INT32U) : Nat :=
  (contents (k.osEventTbl e).osEventPtr).count m + handedWith k e fun pmsg => decide (pmsg = m)

/-- The call has received the message from the queue. -/
def receives (e : Nat) (m : INT32U) : OsCall → OsRet → Bool
  | .qAccept pevent, r => decide (pevent = e ∧ r = ⟨.none, m⟩)
  | .qPend pevent _, r => decide (pevent = e ∧ r = ⟨.none, m⟩)
  | _, _ => false

/-- The call has posted it. -/
def posts (e : Nat) (m : INT32U) : OsCall → OsRet → Bool
  | .qPost pevent pmsg, r => decide (pevent = e ∧ r.err = .none ∧ pmsg = m)
  | .qPostFront pevent pmsg, r => decide (pevent = e ∧ r.err = .none ∧ pmsg = m)
  | _, _ => false

structure MessageBalance (k k' : OsKernel) (e : Nat) (m : INT32U) (received posted : Bool) : Prop where
  types : typeOf k' = typeOf k
  ring : RingSound (k'.osEventTbl e).osEventPtr
  messages : messages k' e m + received.toNat = messages k e m + posted.toNat

variable {k k' : OsKernel} {c : OsCall} {flow : OsFlow} {e : Nat} {m : INT32U} {t : OsTcb}

theorem messages_of_conserves (conserves : Conserves k k' e) (m : INT32U) :
    messages k' e m = messages k e m := by
  rw [messages, messages, conserves.queue, conserves.handed]

theorem balance_of_conserves (conserves : Conserves k k' e) (ring : RingSound (k.osEventTbl e).osEventPtr)
    {received posted : Bool} (same : received = posted) : MessageBalance k k' e m received posted :=
  ⟨conserves.types, conserves.queue ▸ ring, by rw [messages_of_conserves conserves, same]⟩

theorem setQ_types (k : OsKernel) (e : Nat) (pq : OsQ) : typeOf (k.setQ e pq) = typeOf k := by
  funext q
  by_cases here : q = e
  · subst here
    simp [typeOf, OsKernel.setQ, OsKernel.setEvent]
  · simp [typeOf, OsKernel.setQ, OsKernel.setEvent, here]

theorem setQ_queue (k : OsKernel) (e : Nat) (pq : OsQ) :
    ((k.setQ e pq).osEventTbl e).osEventPtr = pq := by
  simp [OsKernel.setQ, OsKernel.setEvent]

theorem setQ_messages (k : OsKernel) (e : Nat) (pq : OsQ) (m : INT32U) :
    messages (k.setQ e pq) e m =
      (contents pq).count m + handedWith k e fun pmsg => decide (pmsg = m) := by
  rw [messages, setQ_queue]
  rfl

/-- A message is taken out of the queue. -/
theorem receive_balance (ring : RingSound (k.osEventTbl e).osEventPtr)
    (some : 0 < (k.osEventTbl e).osEventPtr.osQEntries) :
    MessageBalance k (k.setQ e (k.osEventTbl e).osEventPtr.extract.2) e m
      (decide ((k.osEventTbl e).osEventPtr.extract.1 = m)) false := by
  obtain ⟨first, after⟩ := contents_extract ring some
  refine ⟨setQ_types .., by rw [setQ_queue]; exact after, ?_⟩
  rw [setQ_messages, messages, first, List.count_cons, Bool.toNat_false]
  by_cases same : (k.osEventTbl e).osEventPtr.extract.1 = m
  · simp [same]
    omega
  · simp [same]

theorem osQAccept_balance (ring : RingSound (k.osEventTbl e).osEventPtr) (of_q : typeOf k e = .q)
    (ran : osQAccept k e = (flow, k')) :
    MessageBalance k k' e m ((result flow).any (receives e m (.qAccept e))) false := by
  simp only [osQAccept] at ran
  rw [if_neg (not_not.mpr (show (k.osEventTbl e).osEventType = .q from of_q))] at ran
  split at ran
  case isTrue some =>
    cases ran
    have balance := receive_balance (m := m) ring some
    simpa [result, receives] using balance
  case isFalse =>
    cases ran
    exact balance_of_conserves (conserves_refl k e) ring (by simp [result, receives])

theorem osQPend_balance (tasks : TasksSound k) (missed : NoneMissed k)
    (current : k.osTCBPrioTbl k.osPrioCur ≠ none)
    (called : k.osIntNesting = 0 → k.code k.osPrioCur = .app ∧ k.osPrioCur ≠ osTaskIdlePrio)
    {timeout : INT32U} (ring : RingSound (k.osEventTbl e).osEventPtr) (of_q : typeOf k e = .q)
    (ran : osQPend k e timeout = some (flow, k')) :
    MessageBalance k k' e m ((result flow).any (receives e m (.qPend e timeout))) false := by
  obtain ⟨effect, shape, applied⟩ := run_does (c := .qPend e timeout) ran
  simp only [osQPend] at ran
  rw [if_neg (not_not.mpr (show (k.osEventTbl e).osEventType = .q from of_q))] at ran
  split at ran
  case isTrue =>
    cases ran
    exact balance_of_conserves (conserves_refl k e) ring (by simp [result, receives])
  case isFalse =>
    split at ran
    case isTrue =>
      cases ran
      exact balance_of_conserves (conserves_refl k e) ring (by simp [result, receives])
    case isFalse =>
      split at ran
      case isTrue some =>
        cases ran
        have balance := receive_balance (m := m) ring some
        simpa [result, receives] using balance
      case isFalse =>
        obtain ⟨k₂, waited, same⟩ := Option.map_eq_some_iff.mp ran
        cases same
        have leaves : Leaves e effect := by
          cases shape with
          | wait => trivial
        have conserves := apply_conserves tasks missed current called shape applied leaves
        exact balance_of_conserves conserves ring rfl

/-- Both posts, by where the message is put in. -/
theorem osQPostWith_balance (tasks : TasksSound k) {insert : OsQ → INT32U → OsQ} {pmsg : INT32U}
    (ring : RingSound (k.osEventTbl e).osEventPtr) (of_q : typeOf k e = .q)
    (puts : (k.osEventTbl e).osEventPtr.osQEntries < (k.osEventTbl e).osEventPtr.osQSize →
      (contents (insert (k.osEventTbl e).osEventPtr pmsg)).Perm
          (pmsg :: contents (k.osEventTbl e).osEventPtr) ∧
        RingSound (insert (k.osEventTbl e).osEventPtr pmsg))
    (ran : osQPostWith insert k e pmsg = some (flow, k')) :
    MessageBalance k k' e m false
      ((result flow).any fun r => decide (r.err = .none ∧ pmsg = m)) := by
  have bit : osStatQ = pendBit (typeOf k e) := by rw [of_q]; rfl
  have posted : ∀ flow, result flow = some ⟨.none, 0⟩ →
      (result flow).any (fun r => decide (r.err = .none ∧ pmsg = m)) = decide (pmsg = m) := by
    intro flow fine
    simp [fine]
  simp only [osQPostWith] at ran
  rw [if_neg (not_not.mpr (show (k.osEventTbl e).osEventType = .q from of_q)), bit] at ran
  split at ran
  case isTrue waiting =>
    obtain ⟨k₂, one, same⟩ := Option.map_eq_some_iff.mp ran
    cases same
    have hands := rdy_hands tasks waiting one
    refine ⟨hands.types, hands.queue ▸ ring, ?_⟩
    rw [messages, messages, hands.queue, hands.handed, posted _ rfl, Bool.toNat_false]
    omega
  case isFalse =>
    split at ran
    case isTrue =>
      cases ran
      exact balance_of_conserves (conserves_refl k e) ring (by simp [result])
    case isFalse free =>
      cases ran
      obtain ⟨perm, after⟩ := puts (by omega)
      refine ⟨setQ_types .., by rw [setQ_queue]; exact after, ?_⟩
      rw [setQ_messages, messages, posted _ rfl, perm.count_eq, List.count_cons, Bool.toNat_false]
      by_cases same : pmsg = m
      · simp [same]
        omega
      · simp [same]

theorem receives_other (about : c.event ≠ some e) (r : OsRet) : receives e m c r = false := by
  cases c <;> simp_all [receives, OsCall.event]

theorem posts_other (about : c.event ≠ some e) (r : OsRet) : posts e m c r = false := by
  cases c <;> simp_all [posts, OsCall.event]

/-- A call for a semaphore changes nothing where the event is a queue. -/
theorem sem_refused (of_q : typeOf k e = .q) (about : c.event = some e)
    (semaphore : (∀ pevent, c ≠ .qAccept pevent) ∧ (∀ pevent timeout, c ≠ .qPend pevent timeout) ∧
      (∀ pevent broadcast, c ≠ .qPendAbort pevent broadcast) ∧ (∀ pevent pmsg, c ≠ .qPost pevent pmsg) ∧
      ∀ pevent pmsg, c ≠ .qPostFront pevent pmsg) (ran : c.run k = some (flow, k')) : k' = k := by
  have kind : ¬(k.osEventTbl e).osEventType = .sem := by
    rw [show (k.osEventTbl e).osEventType = .q from of_q]
    nofun
  cases c <;> simp_all [OsCall.event, OsCall.run, osSemAccept, osSemPend, osSemPendAbort, osPendAbort,
    osSemPost, osSemSet]

theorem queue_balance (tasks : TasksSound k) (missed : NoneMissed k)
    (current : k.osTCBPrioTbl k.osPrioCur ≠ none)
    (called : k.osIntNesting = 0 → k.code k.osPrioCur = .app ∧ k.osPrioCur ≠ osTaskIdlePrio)
    (ring : RingSound (k.osEventTbl e).osEventPtr) (of_q : typeOf k e = .q)
    (ran : c.run k = some (flow, k')) :
    MessageBalance k k' e m ((result flow).any (receives e m c)) ((result flow).any (posts e m c)) := by
  have refused : (∀ r, receives e m c r = false) → (∀ r, posts e m c r = false) → k' = k →
      MessageBalance k k' e m ((result flow).any (receives e m c)) ((result flow).any (posts e m c)) := by
    rintro unreceived unposted rfl
    refine balance_of_conserves (conserves_refl k' e) ring ?_
    cases result flow <;> simp [unreceived, unposted]
  by_cases about : c.event = some e
  case neg =>
    obtain ⟨effect, shape, applied⟩ := run_does ran
    have leaves := leaves_of_shape about shape
    refine balance_of_conserves (apply_conserves tasks missed current called shape applied leaves) ring ?_
    cases result flow <;> simp [receives_other about, posts_other about]
  cases c with
  | qAccept pevent =>
    obtain rfl : pevent = e := Option.some.inj about
    have none : (result flow).any (posts pevent m (.qAccept pevent)) = false := by
      cases result flow <;> rfl
    rw [none]
    exact osQAccept_balance ring of_q (Option.some.inj ran)
  | qPend pevent timeout =>
    obtain rfl : pevent = e := Option.some.inj about
    have none : (result flow).any (posts pevent m (.qPend pevent timeout)) = false := by
      cases result flow <;> rfl
    rw [none]
    exact osQPend_balance tasks missed current called ring of_q ran
  | qPendAbort pevent broadcast =>
    obtain rfl : pevent = e := Option.some.inj about
    refine balance_of_conserves (osPendAbort_conserves tasks missed of_q ran) ring ?_
    cases result flow <;> rfl
  | qPost pevent pmsg =>
    obtain rfl : pevent = e := Option.some.inj about
    have none : (result flow).any (receives pevent m (.qPost pevent pmsg)) = false := by
      cases result flow <;> rfl
    have same : posts pevent m (.qPost pevent pmsg) = fun r => decide (r.err = .none ∧ pmsg = m) := by
      funext r
      simp [posts]
    rw [none, same]
    refine osQPostWith_balance tasks ring of_q (fun free => ?_) ran
    obtain ⟨put, after⟩ := contents_insert ring free pmsg
    exact ⟨put ▸ List.perm_append_singleton .., after⟩
  | qPostFront pevent pmsg =>
    obtain rfl : pevent = e := Option.some.inj about
    have none : (result flow).any (receives pevent m (.qPostFront pevent pmsg)) = false := by
      cases result flow <;> rfl
    have same : posts pevent m (.qPostFront pevent pmsg) = fun r => decide (r.err = .none ∧ pmsg = m) := by
      funext r
      simp [posts]
    rw [none, same]
    refine osQPostWith_balance tasks ring of_q (fun free => ?_) ran
    obtain ⟨put, after⟩ := contents_insertFront ring free pmsg
    exact ⟨put ▸ List.Perm.refl _, after⟩
  | semAccept => exact refused (fun _ => rfl) (fun _ => rfl) (sem_refused of_q about (by simp) ran)
  | semPend => exact refused (fun _ => rfl) (fun _ => rfl) (sem_refused of_q about (by simp) ran)
  | semPendAbort => exact refused (fun _ => rfl) (fun _ => rfl) (sem_refused of_q about (by simp) ran)
  | semPost => exact refused (fun _ => rfl) (fun _ => rfl) (sem_refused of_q about (by simp) ran)
  | semSet => exact refused (fun _ => rfl) (fun _ => rfl) (sem_refused of_q about (by simp) ran)
  | _ => cases about

/-! ### One step -/

theorem finish_message (here : k.osTCBCur = some t) (pend : OsPend) :
    ∃ pmsg cleared, pend.finish k = some (osPendFinish k t pend.pevent pmsg cleared) ∧
      (pend.kind = .q → pmsg = t.osTCBMsg) := by
  rw [OsPend.finish]
  split
  next => exact ⟨t.osTCBMsg, 0, by rw [osQPendFinish, here], fun _ => rfl⟩
  next other => exact ⟨0, t.osTCBMsg, by rw [osSemPendFinish, here], fun same => absurd same other⟩

/-- A pend gives back the message that the task has been handed. -/
theorem finish_received {code : CodePoint} {ready : Bool} {waits : Nat → Bool} {pend : OsPend}
    (of_q : typeOf k e = .q) (tcb : TcbSound (typeOf k) t code ready waits)
    (at_pend : pendOf code = some pend) (idle : ¬Pending t) {pmsg : INT32U} (cleared : INT32U) (handed : pend.kind = .q → pmsg = t.osTCBMsg) :
    receives e m pend.call (osPendFinish k t pend.pevent pmsg cleared).1 =
      (decide (Handed e t) && decide (t.osTCBMsg = m)) := by
  have at_event : t.osTCBEventPtr = some pend.pevent := by rw [← tcb.place, at_pend, Option.map_some]
  by_cases mine : pend.pevent = e
  · have kind := tcb.kind pend at_pend
    rw [mine, of_q] at kind
    have call : pend.call = .qPend e pend.timeout := by rw [OsPend.call, ← kind, ← mine]
    rw [call, receives, handed kind.symm, osPendFinish, ← Bool.decide_and, decide_eq_decide, Handed,
      at_event, mine]
    cases t.osTCBStatPend <;> simp [idle]
  · have other : ¬Handed e t := by
      rintro ⟨at_other, -⟩
      exact mine (Option.some.inj (at_event.symm.trans at_other))
    rw [decide_eq_false other, Bool.false_and, OsPend.call]
    split
    · simp [receives, mine]
    · rfl

theorem finish_messages (sound : KernelSound k) (runs : k.TaskRuns) {pend : OsPend}
    (here : k.code k.osPrioCur = .finish pend) (ring : RingSound (k.osEventTbl e).osEventPtr)
    (of_q : typeOf k e = .q) {r : OsRet × OsKernel} (ran : pend.finish k = some r) :
    MessageBalance k r.2 e m (receives e m pend.call r.1) (posts e m pend.call r.1) := by
  have ready := finishing_ready sound runs here
  obtain ⟨tasks, -, sched⟩ := sound
  obtain ⟨t, there⟩ := Option.ne_none_iff_exists'.mp sched.current
  obtain ⟨small, tcb⟩ := tasks.tcb there
  rw [here, ready] at tcb
  obtain ⟨pmsg, cleared, same, handed⟩ := finish_message there pend
  rw [ran] at same
  cases same
  have change := osPendFinish_updated tasks there pend.pevent pmsg cleared
  have moved := handedWith_update change.tcb small there e fun pmsg => decide (pmsg = m)
  have finished : ¬Handed e { t with
      osTCBStat := osStatRdy, osTCBStatPend := .ok, osTCBEventPtr := none, osTCBMsg := cleared } := by
    rintro ⟨⟨⟩, -⟩
  rw [decide_eq_false finished, Bool.false_and, Bool.toNat_false] at moved
  have idle : ¬Pending t := not_pending_of_plain (Or.inl (tcb.ready_iff.mp rfl).1)
  have unposted : ∀ r, posts e m pend.call r = false := by
    intro r
    rw [OsPend.call]
    split <;> rfl
  refine ⟨change.types, change.queues e ▸ ring, ?_⟩
  rw [finish_received of_q tcb rfl idle cleared handed, unposted, messages, messages, change.queues,
    Bool.toNat_false]
  omega

def received (e : Nat) (m : INT32U) (d : OsDone) : Bool := receives e m d.call d.ret

def posted (e : Nat) (m : INT32U) (d : OsDone) : Bool := posts e m d.call d.ret

theorem step_messages (sound : KernelSound k) (ring : RingSound (k.osEventTbl e).osEventPtr)
    (of_q : typeOf k e = .q) {a : OsAction} {r : OsKernel × Option OsDone} (taken : k.step a = some r) :
    MessageBalance k r.1 e m (r.2.any (received e m)) (r.2.any (posted e m)) := by
  cases step_shape sound.tasks taken e with
  | silent k' conserves => exact balance_of_conserves conserves ring rfl
  | call c flow k' k₂ who calls ran called conserves =>
    have balance := queue_balance (m := m) sound.tasks sound.missed sound.sched.current called ring of_q ran
    refine ⟨conserves.types.trans balance.types, conserves.queue ▸ balance.ring, ?_⟩
    rw [messages_of_conserves conserves, Option.any_map, Option.any_map]
    exact balance.messages
  | finish pend r k₂ runs here ran conserves =>
    have balance := finish_messages (m := m) sound runs here ring of_q ran
    refine ⟨conserves.types.trans balance.types, conserves.queue ▸ balance.ring, ?_⟩
    rw [messages_of_conserves conserves]
    exact balance.messages

/-! ### Every run -/

/-- How often a message has been received from the queue, and posted to it. -/
def receivedCount (e : Nat) (m : INT32U) (outs : List (Option OsDone)) : Nat :=
  outs.reduceOption.countP (received e m)

def postedCount (e : Nat) (m : INT32U) (outs : List (Option OsDone)) : Nat :=
  outs.reduceOption.countP (posted e m)

theorem messages_of_run {events : List OsAction} {last : OsKernel} {outs : List (Option OsDone)}
    (sound : KernelSound k) (ring : RingSound (k.osEventTbl e).osEventPtr) (of_q : typeOf k e = .q)
    (spares : EachStep (Interleaving.next OsKernel.step) Spares k events)
    (ran : Interleaving.run OsKernel.step k events = some (last, outs)) :
    messages last e m + receivedCount e m outs = messages k e m + postedCount e m outs := by
  induction events generalizing k outs with
  | nil => cases ran; rfl
  | cons a rest ih =>
    cases taken : k.step a with
    | none =>
      rw [Interleaving.run_cons_none _ taken] at ran
      cases ran
    | some first =>
      rw [Interleaving.run_cons _ taken] at ran
      obtain ⟨tail, later, same⟩ := Option.map_eq_some_iff.mp ran
      cases same
      have balance := step_messages (m := m) sound ring of_q taken
      have reached : Interleaving.next OsKernel.step k a = some first.1 := by
        rw [Interleaving.next, taken, Option.map_some]
      have behind := ih (step_kept sound spares.1 taken) balance.ring (by rw [balance.types, of_q])
        (spares.2 _ reached) later
      have here := balance.messages
      rw [receivedCount, postedCount, countP_reduceOption_cons, countP_reduceOption_cons, ← receivedCount,
        ← postedCount]
      omega

/-- Every queue starts as `OSQCreate` leaves it. -/
theorem created_queue (creates : List OsCreate) (e : Nat) :
    ∃ start size, ((started creates).osEventTbl e).osEventPtr = osQCreate start size := by
  have all : ∀ (creates : List OsCreate) (k : OsKernel),
      (∀ e, ∃ start size, (k.osEventTbl e).osEventPtr = osQCreate start size) →
      ∃ start size, ((creates.foldl OsCreate.run k).osEventTbl e).osEventPtr = osQCreate start size := by
    intro creates
    induction creates with
    | nil => exact fun k holds => holds e
    | cons create rest ih =>
      refine fun k holds => ih _ fun q => ?_
      cases create with
      | task prio =>
        rw [OsCreate.run, osTaskCreate]
        split <;> exact holds q
      | sem pevent cnt =>
        rw [OsCreate.run, osSemCreate]
        split
        case isFalse => exact holds q
        case isTrue =>
          by_cases here : q = pevent
          · subst here
            exact ⟨_, _, by rw [OsKernel.setEvent]; simp [osEventInit]; rfl⟩
          · rw [show (k.setEvent pevent { osEventInit with
                osEventType := .sem, osEventCnt := cnt }).osEventTbl q =
              k.osEventTbl q from Function.update_of_ne here ..]
            exact holds q
      | q pevent start size =>
        rw [OsCreate.run, osQCreateEvent]
        split
        case isFalse => exact holds q
        case isTrue =>
          by_cases here : q = pevent
          · subst here
            exact ⟨start, size, by simp [OsKernel.setEvent]⟩
          · rw [show (k.setEvent pevent { osEventInit with
                osEventType := .q, osEventPtr := osQCreate start size }).osEventTbl q =
              k.osEventTbl q from Function.update_of_ne here ..]
            exact holds q
  exact all creates osInit fun _ => ⟨_, _, rfl⟩

/-- Every message posted is received once, on its way to a task, or still in the queue. -/
theorem messages_conserved (creates : List OsCreate) (events : List OsAction) (e : Nat) (m : INT32U)
    {last : OsKernel} {outs : List (Option OsDone)}
    (of_q : ((started creates).osEventTbl e).osEventType = .q)
    (spares : EachStep (Interleaving.next OsKernel.step) Spares (started creates) events)
    (ran : Interleaving.run OsKernel.step (started creates) events = some (last, outs)) :
    receivedCount e m outs + handedWith last e (fun pmsg => decide (pmsg = m)) +
      (contents (last.osEventTbl e).osEventPtr).count m = postedCount e m outs := by
  obtain ⟨start, size, created⟩ := created_queue creates e
  have ring : RingSound ((started creates).osEventTbl e).osEventPtr := by
    rw [created]
    exact ⟨Nat.zero_le _, id, fun _ => (Nat.zero_mod _).symm⟩
  have total := messages_of_run (m := m) (started_sound creates) ring of_q spares ran
  have none : messages (started creates) e m = 0 := by
    rw [messages, created, handedWith_started]
    rfl
  rw [none, messages] at total
  omega

/-- A message that is handed to the task, and one behind it that stays in the queue. -/
theorem messages_conserved_two :
    ∃ last, Interleaving.run OsKernel.step (started [.task 5, .q 0 (fun _ => 0) 8])
        [.call (.qPend 0 0), .sched, .intEnter, .isr (.qPost 0 42), .isr (.qPost 0 43), .intExit, .pendSV,
          .finish] =
      some (last, [none, none, none, some ⟨none, .qPost 0 42, ⟨.none, 0⟩⟩,
        some ⟨none, .qPost 0 43, ⟨.none, 0⟩⟩, none, none, some ⟨some 5, .qPend 0 0, ⟨.none, 42⟩⟩]) ∧
      receivedCount 0 43 [none, none, none, some ⟨none, .qPost 0 42, ⟨.none, 0⟩⟩,
        some ⟨none, .qPost 0 43, ⟨.none, 0⟩⟩, none, none, some ⟨some 5, .qPend 0 0, ⟨.none, 42⟩⟩] +
        handedWith last 0 (fun pmsg => decide (pmsg = 43)) +
        (contents (last.osEventTbl 0).osEventPtr).count 43 =
      postedCount 0 43 [none, none, none, some ⟨none, .qPost 0 42, ⟨.none, 0⟩⟩,
        some ⟨none, .qPost 0 43, ⟨.none, 0⟩⟩, none, none, some ⟨some 5, .qPend 0 0, ⟨.none, 42⟩⟩] := by
  have reached : (Interleaving.run OsKernel.step (started [.task 5, .q 0 (fun _ => 0) 8])
      [.call (.qPend 0 0), .sched, .intEnter, .isr (.qPost 0 42), .isr (.qPost 0 43), .intExit, .pendSV,
        .finish]).map Prod.snd =
      some [none, none, none, some ⟨none, .qPost 0 42, ⟨.none, 0⟩⟩,
        some ⟨none, .qPost 0 43, ⟨.none, 0⟩⟩, none, none, some ⟨some 5, .qPend 0 0, ⟨.none, 42⟩⟩] := by
    decide +kernel
  obtain ⟨⟨last, outs⟩, ran, rfl⟩ := Option.map_eq_some_iff.mp reached
  refine ⟨last, ran, messages_conserved _ _ 0 43 rfl ?_ ran⟩
  simp [EachStep, Spares, SparesIdle]

end GasSub.Guarantees.KernelQueues
