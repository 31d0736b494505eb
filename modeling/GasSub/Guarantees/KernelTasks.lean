import GasSub.Source.OsEffects

/-!
# Tasks, the ready list and the wait lists

`TcbSound` ties what is kept about one task in four places: its control block, where its
code stands, the ready list and the wait lists. A task is in the ready list exactly when
its status is clear and no delay runs. It is in the wait list of an event exactly when it
pends on it, or has timed out and has not run since. Each thing that the kernel does to a
task keeps this, one lemma for each.
-/
namespace GasSub.Guarantees.KernelTasks
open GasSub.Library GasSub.Source

/-- A pend on some event is under way. -/
def Pending (t : OsTcb) : Prop := t.osTCBStat &&& osStatPendAny ≠ osStatRdy

instance (t : OsTcb) : Decidable (Pending t) :=
  inferInstanceAs (Decidable (t.osTCBStat &&& osStatPendAny ≠ osStatRdy))

/-- The pend that a task has not finished. -/
def pendOf : CodePoint → Option OsPend
  | .app => none
  | .sched pend => pend
  | .finish pend => some pend

/-- The status of a task that pends with the bits `pend`, suspended or not. -/
def StatIs (pend stat : INT8U) : Prop := stat = pend ∨ stat = pend ||| osStatSuspend

structure TcbSound (type : Nat → OsEventType) (t : OsTcb) (code : CodePoint) (ready : Bool)
    (waits : Nat → Bool) : Prop where
  ready_iff : ready = true ↔ t.osTCBStat = osStatRdy ∧ t.osTCBDly = 0
  waits_iff : ∀ e, waits e = true ↔
    t.osTCBEventPtr = some e ∧ (Pending t ∨ t.osTCBStatPend = .timeout)
  stat : StatIs osStatRdy t.osTCBStat ∨
    ∃ e, t.osTCBEventPtr = some e ∧ StatIs (pendBit (type e)) t.osTCBStat
  settled : t.osTCBEventPtr ≠ none → ¬Pending t → t.osTCBDly = 0
  place : (pendOf code).map OsPend.pevent = t.osTCBEventPtr
  kind : ∀ pend, pendOf code = some pend → type pend.pevent = pend.kind
  patient : ∀ pend, pendOf code = some pend → pend.timeout = 0 →
    t.osTCBDly = 0 ∧ t.osTCBStatPend ≠ .timeout

variable {type : Nat → OsEventType} {t : OsTcb} {code : CodePoint} {ready : Bool} {waits : Nat → Bool}

/-! ### Status words -/

theorem pendBit_cases (kind : OsEventType) :
    pendBit kind = osStatRdy ∨ pendBit kind = osStatSem ∨ pendBit kind = osStatQ := by
  cases kind <;> simp [pendBit]

/-- The six words that a status can be. -/
theorem TcbSound.stat_mem (sound : TcbSound type t code ready waits) :
    t.osTCBStat ∈ ([0x00, 0x08, 0x01, 0x09, 0x04, 0x0C] : List INT8U) := by
  rcases sound.stat with plain | ⟨e, -, bits⟩
  · rcases plain with same | same <;> rw [same] <;> decide
  · rcases pendBit_cases (type e) with kind | kind | kind <;> rw [kind] at bits <;>
      rcases bits with same | same <;> rw [same] <;> decide

/-- A status without the pend bits is clear or that of a suspended task. -/
theorem TcbSound.stat_of_not_pending (sound : TcbSound type t code ready waits) (idle : ¬Pending t) :
    t.osTCBStat = osStatRdy ∨ t.osTCBStat = osStatSuspend := by
  have all : ∀ s ∈ ([0x00, 0x08, 0x01, 0x09, 0x04, 0x0C] : List INT8U),
      ¬s &&& osStatPendAny ≠ osStatRdy → s = osStatRdy ∨ s = osStatSuspend := by decide
  exact all _ sound.stat_mem idle

/-- A task that does not pend on an event has no wait to finish. -/
theorem TcbSound.not_pending (sound : TcbSound type t code ready waits) (free : t.osTCBEventPtr = none) :
    ¬Pending t := by
  have plain : StatIs osStatRdy t.osTCBStat := by
    rcases sound.stat with plain | ⟨e, at_event, -⟩
    · exact plain
    · rw [free] at at_event
      cases at_event
  rw [Pending]
  rcases plain with same | same <;> rw [same] <;> decide

theorem TcbSound.not_waiting (sound : TcbSound type t code ready waits) (free : t.osTCBEventPtr = none)
    (e : Nat) : waits e = false := by
  have := sound.waits_iff e
  rw [free] at this
  simpa using this

/-- Clearing the pend bits of an event leaves the suspension and nothing else. -/
theorem cleared_stat {pend stat : INT8U} (bits : pend = osStatRdy ∨ pend = osStatSem ∨ pend = osStatQ)
    (is : StatIs pend stat ∨ StatIs osStatRdy stat) :
    (stat &&& ~~~pend = osStatRdy ∨ stat &&& ~~~pend = osStatSuspend) ∧
      (stat &&& ~~~osStatPendAny = osStatRdy ∨ stat &&& ~~~osStatPendAny = osStatSuspend) := by
  rcases bits with rfl | rfl | rfl <;> rcases is with (rfl | rfl) | (rfl | rfl) <;> decide

theorem not_pending_of_plain (plain : t.osTCBStat = osStatRdy ∨ t.osTCBStat = osStatSuspend) :
    ¬Pending t := by
  rw [Pending]
  rcases plain with same | same <;> rw [same] <;> decide

theorem statIs_of_plain {s : INT8U} (plain : s = osStatRdy ∨ s = osStatSuspend) :
    StatIs osStatRdy s := by
  rcases plain with rfl | rfl
  · exact Or.inl rfl
  · exact Or.inr rfl

/-- A task that is made ready unless it is suspended is in the ready list where it belongs. -/
theorem ready_unless_suspended {s : INT8U} (plain : s = osStatRdy ∨ s = osStatSuspend)
    (before : ready = true → s = osStatRdy) :
    (if s &&& osStatSuspend = osStatRdy then true else ready) = true ↔ s = osStatRdy := by
  rcases plain with rfl | rfl
  · simp [show osStatRdy &&& osStatSuspend = osStatRdy from rfl]
  · rw [if_neg (by decide)]
    exact ⟨before, fun same => absurd same (by decide)⟩

/-! ### What the kernel does to a task -/

/-- The code of a task may move on inside the same pend. -/
theorem TcbSound.goOn {after : CodePoint} (sound : TcbSound type t code ready waits)
    (same : pendOf after = pendOf code) : TcbSound type t after ready waits where
  ready_iff := sound.ready_iff
  waits_iff := sound.waits_iff
  stat := sound.stat
  settled := sound.settled
  place := by rw [same, sound.place]
  kind pend at_pend := sound.kind pend (same ▸ at_pend)
  patient pend at_pend := sound.patient pend (same ▸ at_pend)

/-- `OS_EventTaskWait` and the status set before it. -/
theorem TcbSound.wait (sound : TcbSound type t .app ready waits) (pend : OsPend)
    (kind : type pend.pevent = pend.kind) (used : pend.kind ≠ .unused) :
    TcbSound type
      { t with
        osTCBStat := t.osTCBStat ||| pendBit pend.kind
        osTCBStatPend := .ok
        osTCBDly := pend.timeout
        osTCBEventPtr := some pend.pevent }
      (.sched (some pend)) false (fun e => decide (e = pend.pevent) || waits e) := by
  have free : t.osTCBEventPtr = none := sound.place.symm
  have plain := sound.stat_of_not_pending (sound.not_pending free)
  have bits : pendBit pend.kind = osStatSem ∨ pendBit pend.kind = osStatQ := by
    cases same : pend.kind with
    | unused => exact absurd same used
    | sem => exact Or.inl rfl
    | q => exact Or.inr rfl
  have all : ∀ s b : INT8U, (s = osStatRdy ∨ s = osStatSuspend) → (b = osStatSem ∨ b = osStatQ) →
      (s ||| b) ≠ osStatRdy ∧ (s ||| b) &&& osStatPendAny ≠ osStatRdy ∧ StatIs b (s ||| b) := by
    rintro s b (rfl | rfl) (rfl | rfl) <;> simp only [StatIs] <;> decide
  obtain ⟨set, pending, is⟩ := all _ _ plain bits
  refine ⟨?_, ?_, ?_, ?_, rfl, ?_, ?_⟩
  · simp [set]
  · intro e
    simp only [sound.not_waiting free, Bool.or_false, decide_eq_true_eq, Option.some.injEq, Pending,
      ne_eq, pending, not_false_eq_true, true_or, and_true]
    exact eq_comm
  · exact Or.inr ⟨pend.pevent, rfl, by rw [kind]; exact is⟩
  · exact fun _ none => absurd pending none
  · intro other same
    obtain rfl : pend = other := Option.some.inj same
    exact kind
  · intro other same patient
    obtain rfl : pend = other := Option.some.inj same
    exact ⟨patient, nofun⟩

/-- `OS_EventTaskRdy` on a task in the wait list of the event. -/
theorem TcbSound.rdy (sound : TcbSound type t code ready waits) {e : Nat} (member : waits e = true)
    (pmsg : INT32U) {pendStat : OsStatPend} (handed : pendStat ≠ .timeout) :
    TcbSound type
      { t with
        osTCBDly := 0
        osTCBMsg := pmsg
        osTCBStat := t.osTCBStat &&& ~~~pendBit (type e)
        osTCBStatPend := pendStat }
      code (if t.osTCBStat &&& ~~~pendBit (type e) &&& osStatSuspend = osStatRdy then true else ready)
      (fun e' => !decide (e' = e) && waits e') := by
  have at_event := ((sound.waits_iff e).mp member).1
  have is : StatIs (pendBit (type e)) t.osTCBStat ∨ StatIs osStatRdy t.osTCBStat := by
    rcases sound.stat with plain | ⟨e', at_other, is⟩
    · exact Or.inr plain
    · obtain rfl : e = e' := Option.some.inj (at_event.symm.trans at_other)
      exact Or.inl is
  obtain ⟨plain, -⟩ := cleared_stat (pendBit_cases (type e)) is
  have idle : ¬(t.osTCBStat &&& ~~~pendBit (type e)) &&& osStatPendAny ≠ osStatRdy :=
    not_pending_of_plain (t := { t with osTCBStat := t.osTCBStat &&& ~~~pendBit (type e) }) plain
  have before : ready = true → t.osTCBStat &&& ~~~pendBit (type e) = osStatRdy := by
    intro was
    rw [(sound.ready_iff.mp was).1]
    simp [osStatRdy]
  refine ⟨?_, ?_, ?_, fun _ _ => rfl, sound.place, sound.kind, fun _ _ _ => ⟨rfl, handed⟩⟩
  · rw [ready_unless_suspended plain before]
    simp
  · intro e'
    simp only [Bool.and_eq_true, Bool.not_eq_true', decide_eq_false_iff_not, sound.waits_iff e',
      at_event, Option.some.injEq, Pending, idle, handed, or_self, and_false, iff_false, not_and]
    intro other same
    exact absurd same.symm other
  · exact Or.inl (statIs_of_plain plain)

/-- The end of a delay, in `OSTimeTick` and in `OSTimeDlyResume`: a wait list keeps a task
whose pend has timed out. -/
theorem TcbSound.delayOver (sound : TcbSound type t code ready waits) (runs : t.osTCBDly ≠ 0) :
    TcbSound type t.delayOver code
      (if t.delayOver.osTCBStat &&& osStatSuspend = osStatRdy then true else ready) waits := by
  have asleep : ready = false := by
    cases was : ready with
    | false => rfl
    | true => exact absurd (sound.ready_iff.mp was).2 runs
  have hurried : ∀ pend, pendOf code = some pend → pend.timeout ≠ 0 := by
    intro pend at_pend none
    exact runs (sound.patient pend at_pend none).1
  by_cases pending : Pending t
  · have is : ∃ kind, StatIs (pendBit kind) t.osTCBStat ∨ StatIs osStatRdy t.osTCBStat := by
      rcases sound.stat with plain | ⟨e, -, is⟩
      · exact ⟨.unused, Or.inr plain⟩
      · exact ⟨type e, Or.inl is⟩
    obtain ⟨kind, is⟩ := is
    obtain ⟨-, plain⟩ := cleared_stat (pendBit_cases kind) is
    rw [show t.delayOver = _ from if_pos pending]
    refine ⟨?_, ?_, ?_, fun _ _ => rfl, sound.place, sound.kind, ?_⟩
    · rw [ready_unless_suspended plain (by rw [asleep]; nofun)]
      simp
    · intro e
      simp only [sound.waits_iff e, pending, true_or, or_true]
    · exact Or.inl (statIs_of_plain plain)
    · exact fun pend at_pend none => absurd none (hurried pend at_pend)
  · have free : t.osTCBEventPtr = none := by
      by_contra bound
      exact runs (sound.settled bound pending)
    have plain := sound.stat_of_not_pending pending
    rw [show t.delayOver = _ from if_neg pending]
    refine ⟨?_, ?_, ?_, fun _ _ => rfl, sound.place, sound.kind, ?_⟩
    · rw [ready_unless_suspended plain (by rw [asleep]; nofun)]
      simp
    · intro e
      simp [sound.not_waiting free, free]
    · exact Or.inl (statIs_of_plain plain)
    · exact fun pend at_pend none => absurd none (hurried pend at_pend)

/-- A pass of `OSTimeTick` that leaves some of the delay. -/
theorem TcbSound.count (sound : TcbSound type t code ready waits) (runs : t.osTCBDly ≠ 0)
    {dly : INT32U} (left : dly ≠ 0) : TcbSound type { t with osTCBDly := dly } code ready waits where
  ready_iff := by
    constructor
    · exact fun was => absurd (sound.ready_iff.mp was).2 runs
    · exact fun is => absurd is.2 left
  waits_iff := sound.waits_iff
  stat := sound.stat
  settled bound idle := absurd (sound.settled bound idle) runs
  place := sound.place
  kind := sound.kind
  patient pend at_pend none := absurd (sound.patient pend at_pend none).1 runs

/-- `OSTimeDly` by a task outside the kernel. -/
theorem TcbSound.delay (sound : TcbSound type t .app ready waits) {ticks : INT32U} (some : ticks ≠ 0) :
    TcbSound type { t with osTCBDly := ticks } .app false waits where
  ready_iff := by simpa using fun _ => some
  waits_iff := sound.waits_iff
  stat := sound.stat
  settled bound _ := absurd sound.place.symm bound
  place := sound.place
  kind := nofun
  patient := nofun

/-- `OSTaskSuspend`. -/
theorem TcbSound.suspend (sound : TcbSound type t code ready waits) :
    TcbSound type { t with osTCBStat := t.osTCBStat ||| osStatSuspend } code false waits := by
  have all : ∀ s ∈ ([0x00, 0x08, 0x01, 0x09, 0x04, 0x0C] : List INT8U),
      s ||| osStatSuspend ≠ osStatRdy ∧
        ((s ||| osStatSuspend) &&& osStatPendAny = s &&& osStatPendAny) := by decide
  obtain ⟨set, same⟩ := all _ sound.stat_mem
  have is : ∀ {pend : INT8U}, StatIs pend t.osTCBStat → StatIs pend (t.osTCBStat ||| osStatSuspend) := by
    rintro pend (is | is)
    · exact Or.inr (by rw [is])
    · exact Or.inr (by rw [is, BitVec.or_assoc, BitVec.or_self])
  refine ⟨?_, ?_, ?_, ?_, sound.place, sound.kind, sound.patient⟩
  · simp [set]
  · intro e
    simpa only [Pending, same] using sound.waits_iff e
  · rcases sound.stat with plain | ⟨e, at_event, bits⟩
    · exact Or.inl (is plain)
    · exact Or.inr ⟨e, at_event, is bits⟩
  · simpa only [Pending, same] using sound.settled

/-- `OSTaskResume` of a suspended task. -/
theorem TcbSound.resume (sound : TcbSound type t code ready waits)
    (suspended : t.osTCBStat &&& osStatSuspend ≠ osStatRdy) :
    TcbSound type { t with osTCBStat := t.osTCBStat &&& ~~~osStatSuspend } code
      (if t.osTCBStat &&& ~~~osStatSuspend = osStatRdy ∧ t.osTCBDly = 0 then true else ready) waits := by
  have all : ∀ s ∈ ([0x00, 0x08, 0x01, 0x09, 0x04, 0x0C] : List INT8U),
      (s &&& ~~~osStatSuspend) &&& osStatPendAny = s &&& osStatPendAny := by decide
  have same := all _ sound.stat_mem
  have asleep : ready = false := by
    cases was : ready with
    | false => rfl
    | true =>
      rw [(sound.ready_iff.mp was).1] at suspended
      exact absurd rfl suspended
  have is : ∀ {pend : INT8U}, (pend = osStatRdy ∨ pend = osStatSem ∨ pend = osStatQ) →
      StatIs pend t.osTCBStat → StatIs pend (t.osTCBStat &&& ~~~osStatSuspend) := by
    rintro pend (rfl | rfl | rfl) (is | is) <;> rw [is, StatIs] <;> decide
  refine ⟨?_, ?_, ?_, ?_, sound.place, sound.kind, sound.patient⟩
  · rw [asleep]
    simp
  · intro e
    simpa only [Pending, same] using sound.waits_iff e
  · rcases sound.stat with plain | ⟨e, at_event, bits⟩
    · exact Or.inl (is (Or.inl rfl) plain)
    · exact Or.inr ⟨e, at_event, is (pendBit_cases _) bits⟩
  · simpa only [Pending, same] using sound.settled

/-- The rest of a pend, run by a task that is ready: it is in no wait list afterwards. -/
theorem TcbSound.finish {pend : OsPend} (sound : TcbSound type t (.finish pend) true waits)
    (msg : INT32U) :
    TcbSound type
      { t with
        osTCBStat := osStatRdy, osTCBStatPend := .ok, osTCBEventPtr := none, osTCBMsg := msg }
      .app true
      (fun e => if t.osTCBStatPend = .timeout then !decide (e = pend.pevent) && waits e else waits e) := by
  obtain ⟨clear, none⟩ := sound.ready_iff.mp rfl
  have idle : ¬Pending t := not_pending_of_plain (Or.inl clear)
  have at_event : t.osTCBEventPtr = some pend.pevent := sound.place.symm
  refine ⟨by simp [none], ?_, Or.inl (Or.inl rfl), fun bound => absurd rfl bound, rfl, nofun, nofun⟩
  intro e
  have was := sound.waits_iff e
  rw [at_event, Option.some.injEq] at was
  simp only [reduceCtorEq, false_and, iff_false, Bool.not_eq_true]
  split
  case isTrue late =>
    by_cases same : e = pend.pevent
    · simp [same]
    · have out : waits e ≠ true := fun member => same (was.mp member).1.symm
      simpa [same] using out
  case isFalse handed =>
    have out : waits e ≠ true := fun member => (was.mp member).2.elim idle handed
    simpa using out

end GasSub.Guarantees.KernelTasks
