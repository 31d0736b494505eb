import GasSub.Library.Run
import GasSub.Source.PortEvent

/-!
# Events of the Modbus master are neither lost nor invented

Posts and gets in any order, from a new flag group on. A get asks for five
events at once and decodes what it is given with a switch on single values: two
events that it finds together are both cleared and neither is stored. All posted
events are delivered, each once, exactly when every get finds at most one of
them.
-/
namespace GasSub.Guarantees.EventDelivery
open GasSub.Source
open GasSub.Library.Run GasSub.Library.EventFlags

/-- A post, a call of the get with what its `*eEvent` holds, or the task that was blocked
in a get running again. -/
inductive Event where
  | post (e : EMBMasterEventType)
  | get (eEvent : INT32U)
  | resume
  deriving DecidableEq, Repr

/-- The flag group and the variable of the get in progress. `posted` counts the posts of an
event that was not pending, `delivered` the gets that returned `TRUE` with the event. -/
structure Master where
  group : OSFlagGrp
  eEvent : INT32U
  posted : EMBMasterEventType → Nat
  delivered : EMBMasterEventType → Nat

/-- `xMBMasterPortEventInit`, before any call of the get. -/
def Master.start (eEvent : INT32U) : Master :=
  { group := ⟨0, .running⟩, eEvent := eEvent, posted := fun _ => 0, delivered := fun _ => 0 }

def Master.Pending (m : Master) (e : EMBMasterEventType) : Prop :=
  masterFlags.Pending m.group.osFlagFlags e

instance (m : Master) (e : EMBMasterEventType) : Decidable (m.Pending e) :=
  inferInstanceAs (Decidable (masterFlags.Pending _ _))

/-- The contents of `*eEvent` when a get returns `TRUE`, and the group afterwards. -/
def Master.attempt (m : Master) : Event → Option INT32U × OSFlagGrp
  | .post e => (none, xMBMasterPortEventPost m.group e)
  | .get eEvent =>
    if m.group.waiter = .running then xMBMasterPortEventGet m.group eEvent else (none, m.group)
  | .resume => xMBMasterPortEventGetResume m.group m.eEvent

/-- The variable belongs to the get that was called last. -/
def Master.variableAfter (m : Master) : Event → INT32U
  | .get eEvent => if m.group.waiter = .running then eEvent else m.eEvent
  | _ => m.eEvent

def Master.postedAfter (m : Master) : Event → EMBMasterEventType → Nat
  | .post e => fun x => if x = e ∧ ¬ m.Pending x then m.posted x + 1 else m.posted x
  | _ => m.posted

def Master.deliveredAfter (m : Master) (stored : Option INT32U) (x : EMBMasterEventType) : Nat :=
  if stored = some x.value then m.delivered x + 1 else m.delivered x

def Master.after (m : Master) (event : Event) : Master :=
  { group := (m.attempt event).2
    eEvent := m.variableAfter event
    posted := m.postedAfter event
    delivered := m.deliveredAfter (m.attempt event).1 }

def step (m : Master) (event : Event) : Option Master := some (m.after event)

/-! ### What is promised -/

/-- Every post that counts was delivered once or is pending. -/
def Accounted (m : Master) : Prop :=
  ∀ x, m.posted x = m.delivered x + if m.Pending x then 1 else 0

/-- A get that returns `TRUE` has stored a pending event, and one that finds an event
pending returns. -/
structure Delivers (m : Master) (event : Event) : Prop where
  stored : ∀ content, (m.attempt event).1 = some content →
    ∃ x ∈ polledEvents, x.value = content ∧ m.Pending x
  returns : ∀ eEvent, event = .get eEvent → m.group.waiter = .running →
    (∃ x ∈ polledEvents, m.Pending x) → (m.attempt event).1.isSome

/-- A get that is called finds at most one of the events it asks for. -/
def FindsOne (m : Master) : Event → Prop
  | .get _ => m.group.waiter = .running →
      ∀ x ∈ polledEvents, ∀ y ∈ polledEvents, m.Pending x → m.Pending y → x = y
  | _ => True

instance (m : Master) (event : Event) : Decidable (FindsOne m event) := by
  cases event with
  | post => exact inferInstanceAs (Decidable True)
  | get => exact inferInstanceAs (Decidable (_ → _))
  | resume => exact inferInstanceAs (Decidable True)

/-! ### The waiting task -/

/-- A blocked task waits for the five events and none is pending; one that was made ready
was given one of them. -/
def Waiting (m : Master) : Prop :=
  match m.group.waiter with
  | .running => True
  | .blocked flags => flags = masterFlags.mask polledEvents ∧ ∀ x ∈ polledEvents, ¬ m.Pending x
  | .ready flagsRdy => ∃ e ∈ polledEvents, flagsRdy = masterFlags.code e ∧ m.Pending e

/-- An event posted to a group without it is all that a blocked task will be given. -/
theorem take_post {flags : OSFlags} {e : EMBMasterEventType} (polled : e ∈ polledEvents)
    (none : ∀ x ∈ polledEvents, ¬ masterFlags.Pending flags x) :
    (flags ||| masterFlags.code e) &&& masterFlags.mask polledEvents = masterFlags.code e := by
  rw [take_eq_code_iff]
  intro x
  rw [pending_post]
  constructor
  · intro both
    exact both.1.resolve_left (none x both.2)
  · intro same
    exact ⟨Or.inr same, same ▸ polled⟩

theorem pending_posted (m t : Master) (e x : EMBMasterEventType)
    (group : t.group = xMBMasterPortEventPost m.group e) :
    t.Pending x ↔ m.Pending x ∨ x = e := by
  rw [Master.Pending, group, xMBMasterPortEventPost, osFlagPost_flags]
  exact pending_post masterFlags _ e x

theorem waiting_post (m t : Master) (e : EMBMasterEventType) (waiting : Waiting m)
    (group : t.group = xMBMasterPortEventPost m.group e) : Waiting t := by
  have pending := fun x => pending_posted m t e x group
  have waiter : t.group.waiter = (osFlagPost m.group (masterFlags.code e)).waiter :=
    congrArg OSFlagGrp.waiter group
  cases before : m.group.waiter with
  | running =>
    rw [osFlagPost_waiter _ _ fun _ blocked => (nomatch before.symm.trans blocked), before] at waiter
    rw [Waiting, waiter]
    trivial
  | ready flagsRdy =>
    rw [osFlagPost_waiter _ _ fun _ blocked => (nomatch before.symm.trans blocked), before] at waiter
    rw [Waiting, before] at waiting
    obtain ⟨x, polled, given, set⟩ := waiting
    rw [Waiting, waiter]
    exact ⟨x, polled, given, (pending x).mpr (Or.inl set)⟩
  | blocked flags =>
    rw [Waiting, before] at waiting
    obtain ⟨rfl, none⟩ := waiting
    rw [osFlagPost_blocked _ _ _ before] at waiter
    by_cases polled : e ∈ polledEvents
    · have nonzero : ¬ masterFlags.code e = 0 := by
        cases e <;> decide
      rw [take_post polled none, if_neg nonzero] at waiter
      rw [Waiting, waiter]
      exact ⟨e, polled, rfl, (pending e).mpr (Or.inr rfl)⟩
    · have still : ∀ x ∈ polledEvents, ¬ t.Pending x := by
        intro x member now
        rcases (pending x).mp now with set | same
        · exact none x member set
        · exact polled (same ▸ member)
      have zero := (take_eq_zero_iff masterFlags (m.group.osFlagFlags ||| masterFlags.code e)
        polledEvents).mpr fun x member now =>
          still x member ((pending x).mpr ((pending_post masterFlags _ e x).mp now))
      rw [if_pos zero] at waiter
      rw [Waiting, waiter]
      exact ⟨rfl, still⟩

/-! ### Calls of the get -/

/-- The task gets the flags of one event alone. -/
theorem get_one (m : Master) (eEvent : INT32U) {e : EMBMasterEventType}
    (running : m.group.waiter = .running) (polled : e ∈ polledEvents) (pending : m.Pending e)
    (alone : ∀ x ∈ polledEvents, m.Pending x → x = e) :
    m.attempt (.get eEvent) = (some e.value,
      { m.group with osFlagFlags := m.group.osFlagFlags &&& ~~~masterFlags.code e }) := by
  have taken : m.group.osFlagFlags &&& masterFlags.mask polledEvents = masterFlags.code e := by
    rw [take_eq_code_iff]
    intro x
    constructor
    · intro both
      exact alone x both.2 both.1
    · intro same
      exact ⟨same ▸ pending, same ▸ polled⟩
  have nonzero : ¬ masterFlags.code e = 0 := by
    cases e <;> decide
  rw [Master.attempt, if_pos running, xMBMasterPortEventGet, osFlagPend]
  simp only [taken, nonzero, if_false, Option.map_some, storeEvent_code e polled]

/-- Two events together are cleared and neither is stored. -/
theorem get_several (m : Master) (eEvent : INT32U) {x y : EMBMasterEventType}
    (running : m.group.waiter = .running) (left : x ∈ polledEvents) (right : y ∈ polledEvents)
    (pending : m.Pending x) (pending' : m.Pending y) (apart : x ≠ y) :
    m.attempt (.get eEvent) = (some eEvent,
      { m.group with osFlagFlags := m.group.osFlagFlags &&&
          ~~~(m.group.osFlagFlags &&& masterFlags.mask polledEvents) }) := by
  have several : ∀ e ∈ polledEvents,
      m.group.osFlagFlags &&& masterFlags.mask polledEvents ≠ masterFlags.code e := by
    intro e _ taken
    rw [take_eq_code_iff] at taken
    exact apart (((taken x).mp ⟨pending, left⟩).trans ((taken y).mp ⟨pending', right⟩).symm)
  have nonzero : ¬ m.group.osFlagFlags &&& masterFlags.mask polledEvents = 0 := by
    intro zero
    exact (take_eq_zero_iff masterFlags _ _).mp zero x left pending
  rw [Master.attempt, if_pos running, xMBMasterPortEventGet, osFlagPend]
  simp only [nonzero, if_false, Option.map_some, storeEvent_other _ eEvent several]

/-- Without an event the task is blocked. -/
theorem get_none (m : Master) (eEvent : INT32U) (running : m.group.waiter = .running)
    (none : ∀ x ∈ polledEvents, ¬ m.Pending x) :
    m.attempt (.get eEvent) =
      (.none, { m.group with waiter := .blocked (masterFlags.mask polledEvents) }) := by
  have zero := (take_eq_zero_iff masterFlags m.group.osFlagFlags polledEvents).mpr none
  rw [Master.attempt, if_pos running, xMBMasterPortEventGet, osFlagPend]
  simp only [zero, if_true, Option.map_none]

theorem get_busy (m : Master) (eEvent : INT32U) (busy : m.group.waiter ≠ .running) :
    m.attempt (.get eEvent) = (none, m.group) := if_neg busy

/-- A task that was made ready gets the event that was posted first. -/
theorem resume_ready (m : Master) {e : EMBMasterEventType} (polled : e ∈ polledEvents)
    (ready : m.group.waiter = .ready (masterFlags.code e)) :
    m.attempt .resume = (some e.value,
      { osFlagFlags := m.group.osFlagFlags &&& ~~~masterFlags.code e, waiter := .running }) := by
  rw [Master.attempt, xMBMasterPortEventGetResume, osFlagResume, ready]
  simp only [Option.map_some, storeEvent_code e polled]

theorem resume_asleep (m : Master) (asleep : ∀ flagsRdy, m.group.waiter ≠ .ready flagsRdy) :
    m.attempt .resume = (none, m.group) := by
  rw [Master.attempt, xMBMasterPortEventGetResume, osFlagResume]
  split
  next flagsRdy ready => exact absurd ready (asleep flagsRdy)
  next => rfl

/-- What is left of a get: it stored one pending event, nothing was found, or it took
several events. -/
theorem attempt_cases (m : Master) (event : Event) (waiting : Waiting m) :
    (∃ e, event = .post e) ∨
    (∃ e ∈ polledEvents, m.Pending e ∧ (m.attempt event).1 = some e.value ∧
      (m.attempt event).2 =
        ⟨m.group.osFlagFlags &&& ~~~masterFlags.code e, .running⟩ ∧
      m.postedAfter event = m.posted ∧ FindsOne m event) ∨
    ((m.attempt event).1 = none ∧ m.postedAfter event = m.posted ∧ FindsOne m event ∧
      (m.attempt event).2.osFlagFlags = m.group.osFlagFlags ∧
      ((m.attempt event).2 = m.group ∨
        (m.attempt event).2.waiter = .blocked (masterFlags.mask polledEvents) ∧
          ∀ x ∈ polledEvents, ¬ m.Pending x)) ∨
    ¬ FindsOne m event := by
  cases event with
  | post e => exact Or.inl ⟨e, rfl⟩
  | resume =>
    right
    by_cases ready : ∃ flagsRdy, m.group.waiter = .ready flagsRdy
    · obtain ⟨flagsRdy, ready⟩ := ready
      rw [Waiting, ready] at waiting
      obtain ⟨e, polled, rfl, pending⟩ := waiting
      have resumed := resume_ready m polled ready
      exact Or.inl ⟨e, polled, pending, congrArg Prod.fst resumed, congrArg Prod.snd resumed, rfl,
        trivial⟩
    · have asleep := resume_asleep m fun flagsRdy same => ready ⟨flagsRdy, same⟩
      refine Or.inr (Or.inl ⟨congrArg Prod.fst asleep, rfl, trivial, ?_, Or.inl ?_⟩)
      · rw [asleep]
      · rw [asleep]
  | get eEvent =>
    right
    by_cases running : m.group.waiter = .running
    swap
    · have busy := get_busy m eEvent running
      refine Or.inr (Or.inl ⟨congrArg Prod.fst busy, rfl, fun yes => absurd yes running, ?_, Or.inl ?_⟩)
      · rw [busy]
      · rw [busy]
    by_cases one : FindsOne m (.get eEvent)
    swap
    · exact Or.inr (Or.inr one)
    by_cases found : ∃ e ∈ polledEvents, m.Pending e
    · obtain ⟨e, polled, pending⟩ := found
      have alone : ∀ x ∈ polledEvents, m.Pending x → x = e :=
        fun x member set => one running x member e polled set pending
      have stored := get_one m eEvent running polled pending alone
      refine Or.inl ⟨e, polled, pending, congrArg Prod.fst stored, ?_, rfl, one⟩
      rw [stored, ← running]
    · have none : ∀ x ∈ polledEvents, ¬ m.Pending x :=
        fun x member set => found ⟨x, member, set⟩
      have blocked := get_none m eEvent running none
      refine Or.inr (Or.inl ⟨congrArg Prod.fst blocked, rfl, one, ?_, Or.inr ⟨?_, none⟩⟩)
      · rw [blocked]
      · rw [blocked]

/-! ### One step -/

theorem deliveredAfter_none (m : Master) (x : EMBMasterEventType) :
    m.deliveredAfter none x = m.delivered x := by
  rw [Master.deliveredAfter, if_neg]
  intro no
  cases no

theorem deliveredAfter_value (m : Master) (e x : EMBMasterEventType) :
    m.deliveredAfter (some e.value) x = if x = e then m.delivered x + 1 else m.delivered x := by
  unfold Master.deliveredAfter
  refine if_congr ?_ rfl rfl
  rw [Option.some.injEq]
  exact ⟨fun same => (value_injective same).symm, fun same => congrArg _ same.symm⟩

/-- The waiting task sees the flag group only. -/
theorem waiting_of_group {m t : Master} (waiting : Waiting m) (same : t.group = m.group) :
    Waiting t := by
  obtain ⟨group, eEvent, posted, delivered⟩ := t
  simp only at same
  subst same
  exact waiting

theorem accounted_post (m : Master) (e : EMBMasterEventType) (accounted : Accounted m) :
    Accounted (m.after (.post e)) := by
  intro x
  have before := accounted x
  have pending := pending_posted m (m.after (.post e)) e x rfl
  have delivered : (m.after (.post e)).delivered x = m.delivered x := deliveredAfter_none m x
  have posted : (m.after (.post e)).posted x =
      if x = e ∧ ¬ m.Pending x then m.posted x + 1 else m.posted x := rfl
  rw [posted, delivered]
  by_cases set : m.Pending x
  · rw [if_pos set] at before
    rw [if_neg fun both => both.2 set, if_pos (pending.mpr (Or.inl set))]
    exact before
  · rw [if_neg set] at before
    by_cases same : x = e
    · rw [if_pos ⟨same, set⟩, if_pos (pending.mpr (Or.inr same)), before]
    · have still : ¬ (m.after (.post e)).Pending x := fun now => (pending.mp now).elim set same
      rw [if_neg fun both => same both.1, if_neg still]
      exact before

/-- An event that is stored moves from the pending to the delivered ones. -/
theorem accounted_stored (m : Master) (event : Event) {e : EMBMasterEventType}
    (accounted : Accounted m) (pending : m.Pending e)
    (stored : (m.attempt event).1 = some e.value)
    (group : (m.attempt event).2 = ⟨m.group.osFlagFlags &&& ~~~masterFlags.code e, .running⟩)
    (posted : m.postedAfter event = m.posted) : Accounted (m.after event) := by
  intro x
  have before := accounted x
  have cleared : (m.after event).Pending x ↔ m.Pending x ∧ ¬ x = e := by
    have flags : (m.after event).group.osFlagFlags =
        m.group.osFlagFlags &&& ~~~masterFlags.code e := congrArg OSFlagGrp.osFlagFlags group
    rw [Master.Pending, flags, pending_clear, pending_code]
    rfl
  have same : (m.after event).posted x = m.posted x := congrFun posted x
  have delivered : (m.after event).delivered x =
      if x = e then m.delivered x + 1 else m.delivered x := by
    have rule : (m.after event).delivered x = m.deliveredAfter (m.attempt event).1 x := rfl
    rw [rule, stored, deliveredAfter_value]
  rw [same, delivered]
  by_cases here : x = e
  · subst here
    rw [if_pos pending] at before
    rw [if_pos rfl, if_neg fun now => (cleared.mp now).2 rfl]
    exact before
  · rw [if_neg here]
    by_cases set : m.Pending x
    · rw [if_pos set] at before
      rw [if_pos (cleared.mpr ⟨set, here⟩)]
      exact before
    · rw [if_neg set] at before
      rw [if_neg fun now => set (cleared.mp now).1]
      exact before

theorem accounted_silent (m : Master) (event : Event) (accounted : Accounted m)
    (silent : (m.attempt event).1 = none)
    (flags : (m.attempt event).2.osFlagFlags = m.group.osFlagFlags)
    (posted : m.postedAfter event = m.posted) : Accounted (m.after event) := by
  intro x
  have before := accounted x
  have pending : (m.after event).Pending x ↔ m.Pending x := by
    have kept : (m.after event).group.osFlagFlags = m.group.osFlagFlags := flags
    rw [Master.Pending, kept]
    rfl
  have same : (m.after event).posted x = m.posted x := congrFun posted x
  have delivered : (m.after event).delivered x = m.delivered x := by
    have rule : (m.after event).delivered x = m.deliveredAfter (m.attempt event).1 x := rfl
    rw [rule, silent, deliveredAfter_none]
  rw [same, delivered, before]
  exact congrArg _ (if_congr pending.symm rfl rfl)

/-- Of two events taken together at least one is lost. -/
theorem not_accounted_several (m : Master) (event : Event) (accounted : Accounted m)
    (several : ¬ FindsOne m event) : ¬ Accounted (m.after event) := by
  cases event with
  | post => exact absurd trivial several
  | resume => exact absurd trivial several
  | get eEvent =>
    simp only [FindsOne, Classical.not_forall] at several
    obtain ⟨running, x, left, y, right, pending, pending', apart⟩ := several
    have taken := get_several m eEvent running left right pending pending' apart
    intro after
    -- the variable holds the value of one event at most
    have lost : ∀ z ∈ polledEvents, m.Pending z → eEvent = z.value := by
      intro z member set
      by_contra differs
      have before := accounted z
      have now := after z
      have gone : ¬ (m.after (.get eEvent)).Pending z := by
        have flags := congrArg (fun r : Option INT32U × OSFlagGrp => r.2.osFlagFlags) taken
        intro still
        have cleared : (m.after (.get eEvent)).group.osFlagFlags = m.group.osFlagFlags &&&
            ~~~(m.group.osFlagFlags &&& masterFlags.mask polledEvents) := flags
        rw [Master.Pending, cleared, pending_clear, pending_take] at still
        exact still.2 ⟨still.1, member⟩
      have delivered : (m.after (.get eEvent)).delivered z = m.delivered z := by
        have rule : (m.after (.get eEvent)).delivered z =
            m.deliveredAfter (m.attempt (.get eEvent)).1 z := rfl
        rw [rule, taken]
        exact if_neg fun same => differs (Option.some.inj same)
      have posted : (m.after (.get eEvent)).posted z = m.posted z := rfl
      rw [if_pos set] at before
      rw [posted, delivered, if_neg gone] at now
      omega
    exact apart (value_injective ((lost x left pending).symm.trans (lost y right pending')))

theorem step_waiting (m : Master) (event : Event) (t : Master) (waiting : Waiting m)
    (taken : step m event = some t) : Waiting t := by
  obtain rfl := Option.some.inj taken
  rcases attempt_cases m event waiting with posted | stored | silent | several
  · obtain ⟨e, rfl⟩ := posted
    exact waiting_post m _ e waiting rfl
  · obtain ⟨e, -, -, -, group, -⟩ := stored
    have after : (m.after event).group.waiter = .running := congrArg OSFlagGrp.waiter group
    rw [Waiting, after]
    trivial
  · obtain ⟨-, -, -, flags, same | blocked⟩ := silent
    · exact waiting_of_group waiting same
    · have after : (m.after event).group.waiter = .blocked (masterFlags.mask polledEvents) :=
        blocked.1
      rw [Waiting, after]
      refine ⟨rfl, fun x member now => blocked.2 x member ?_⟩
      have kept : (m.after event).group.osFlagFlags = m.group.osFlagFlags := flags
      rw [Master.Pending, kept] at now
      exact now
  · cases event with
    | post => exact absurd trivial several
    | resume => exact absurd trivial several
    | get eEvent =>
      simp only [FindsOne, Classical.not_forall] at several
      obtain ⟨running, x, left, y, right, pending, pending', apart⟩ := several
      have both := get_several m eEvent running left right pending pending' apart
      have after : (m.after (.get eEvent)).group.waiter = .running := by
        have group := congrArg (fun r : Option INT32U × OSFlagGrp => r.2.waiter) both
        exact group.trans running
      rw [Waiting, after]
      trivial

/-- Under the condition a step delivers what it should; without it an event is lost. -/
theorem findsOne_iff (m : Master) (event : Event) (waiting : Waiting m) (accounted : Accounted m) :
    FindsOne m event ↔ Delivers m event ∧ ∃ t, step m event = some t ∧ Accounted t := by
  have next : ∀ {P : Master → Prop}, (∃ t, step m event = some t ∧ P t) ↔ P (m.after event) := by
    intro P
    simp only [step, Option.some.injEq, exists_eq_left']
  rw [next]
  rcases attempt_cases m event waiting with posted | stored | silent | several
  · obtain ⟨e, rfl⟩ := posted
    refine ⟨fun _ => ⟨⟨?_, ?_⟩, accounted_post m e accounted⟩, fun _ => trivial⟩
    · intro _ stored
      cases stored
    · intro _ called
      cases called
  · obtain ⟨e, polled, pending, content, group, counts, one⟩ := stored
    refine ⟨fun _ => ⟨⟨fun found same => ?_, fun _ _ _ _ => ?_⟩, ?_⟩, fun _ => one⟩
    · rw [content, Option.some.injEq] at same
      exact ⟨e, polled, same, pending⟩
    · rw [content]
      rfl
    · exact accounted_stored m event accounted pending content group counts
  · obtain ⟨content, counts, one, flags, after⟩ := silent
    refine ⟨fun _ => ⟨⟨fun found same => ?_, fun eEvent call running found => ?_⟩, ?_⟩,
      fun _ => one⟩
    · rw [content] at same
      cases same
    · obtain ⟨x, polled, pending⟩ := found
      subst call
      have alone : ∀ y ∈ polledEvents, m.Pending y → y = x :=
        fun y member set => one running y member x polled set pending
      rw [get_one m eEvent running polled pending alone] at content
      cases content
    · exact accounted_silent m event accounted content flags counts
  · refine ⟨fun one => absurd one several, fun both => ?_⟩
    exact absurd both.2 (not_accounted_several m event accounted several)

/-- In every run of posts and gets, every posted event is delivered once or pending, and
every get that returns has stored a pending one, exactly when each get finds at most one
of the five events. -/
theorem events_delivered_iff (eEvent : INT32U) (events : List Event) :
    Always step Accounted (.start eEvent) events ∧ EachStep step Delivers (.start eEvent) events ↔
      EachStep step FindsOne (.start eEvent) events := by
  have start : Waiting (.start eEvent) := trivial
  have none : Accounted (.start eEvent) := by
    intro x
    have clear : ¬ (Master.start eEvent).Pending x := by
      rw [Master.Pending, Coding.Pending]
      exact fun set => absurd (BitVec.getLsbD_zero.symm.trans set) (by decide)
    rw [if_neg clear]
    rfl
  exact always_and_eachStep_iff step_waiting findsOne_iff start none

/-- The timer interrupt posts a received frame and the execution of a request before the
task polls: the get clears both, stores none and returns `TRUE`, and the next one waits. -/
theorem events_lost_together :
    let events : List Event := [.post .frameReceived, .post .execute, .get 0]
    ¬ (Always step Accounted (.start 0) events ∧ EachStep step Delivers (.start 0) events) ∧
      ∃ t, events.foldlM step (.start 0) = some t ∧ t.group.osFlagFlags = 0 ∧
        (∀ x, t.delivered x = 0) ∧ (t.attempt (.get 0)).1 = none := by
  constructor
  · intro delivers
    have each : EachStep step Delivers (.start 0)
        ([Event.post .frameReceived, .post .execute] ++ [.get 0]) := delivers.2
    obtain ⟨x, -, here, -⟩ := (eachStep_last each rfl).stored 0 rfl
    cases x <;> exact absurd here (by decide)
  · exact ⟨_, rfl, rfl, fun x => by cases x <;> rfl, rfl⟩

end GasSub.Guarantees.EventDelivery
