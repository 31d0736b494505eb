import GasSub.Source.UserKey

/-!
# The keys that reach the GUI

The queue holds the address of `KeyValueSaved`, and every post rewrites that variable
first. A key that the task has not looked at yet is replaced by the next one.
-/
namespace GasSub.Guarantees.KeyDelivery
open GasSub.Library GasSub.Library.Run GasSub.Source

/-- What the task dispatches on, once it has caught up, is what the interrupt posted. -/
def KeysDelivered (s : KeySystem) : Prop := s.queue.Delivered s.cells

instance : DecidablePred KeysDelivered :=
  fun s => decEq (s.queue.read s.cells s.queue.outstanding.length).received s.queue.posted

/-- No more than seven posts wait in the queue. -/
def SevenWaiting (s : KeySystem) : Prop := s.queue.queue.length ≤ 7

instance : DecidablePred SevenWaiting := fun s => Nat.decLe s.queue.queue.length 7

/-- An interrupt that completes a key, while the task has not looked at an earlier one,
finds that very code in `KeyValueSaved`. -/
def SameKey (s : KeySystem) : KeyEvent → Prop
  | .eint0 =>
    keyPosted (keyInterval s.decoder) = true → s.queue.outstanding ≠ [] →
      (keyInterval s.decoder).keyvalue = s.decoder.keyValueSaved
  | _ => True

/-- The reader waits on an empty queue only. -/
theorem step_settled (s : KeySystem) (event : KeyEvent) (t : KeySystem)
    (settled : s.queue.Settled) (taken : s.step event = some t) : t.queue.Settled := by
  cases event with
  | eint0 =>
    simp only [KeySystem.step] at taken
    split at taken
    next =>
      obtain rfl := Option.some.inj taken
      exact PostBox.post_settled keyQSize _ () s.queue settled
    next =>
      obtain rfl := Option.some.inj taken
      exact settled
  | timer2 =>
    obtain rfl := Option.some.inj taken
    exact settled
  | task =>
    obtain rfl := Option.some.inj taken
    exact (taskKey_queue s).settled settled

/-- With room in the queue, an interrupt delivers exactly under the condition. -/
theorem eint0_delivers (s : KeySystem) (settled : s.queue.Settled) (room : SevenWaiting s)
    (faithful : s.queue.Faithful s.cells) :
    SameKey s .eint0 ↔ ∃ t, s.step .eint0 = some t ∧ t.queue.Faithful t.cells := by
  let cells : Unit → INT32U := fun _ => (eint0IRQHandler s.decoder).1.keyValueSaved
  have saved : ∀ key, cells key =
      if keyPosted (keyInterval s.decoder) then (keyInterval s.decoder).keyvalue
      else s.cells key := fun _ => eint0IRQHandler_saved s.decoder
  have second : (eint0IRQHandler s.decoder).2 = keyPosted (keyInterval s.decoder) := rfl
  have written := PostBox.change_faithful s.cells cells s.queue faithful
  simp only [SameKey, KeySystem.step, second]
  cases posted : keyPosted (keyInterval s.decoder) with
  | false =>
    simp only [posted, Bool.false_eq_true, if_false] at saved
    simp only [Bool.false_eq_true, false_implies, if_false, true_iff, Option.some.injEq,
      exists_eq_left']
    exact written.mpr fun key _ => saved key
  | true =>
    simp only [posted, if_true] at saved
    have place : s.queue.Room keyQSize := Or.inr (Nat.lt_succ_of_le room)
    have after := PostBox.post_faithful_of_room keyQSize cells () s.queue settled place
    simp only [true_implies, if_true, Option.some.injEq, exists_eq_left']
    refine Iff.trans ?_ (written.symm.trans after.symm)
    constructor
    · intro same key member
      exact (saved key).trans (same (List.ne_nil_of_mem member))
    · intro same someKey
      obtain ⟨key, member⟩ := List.exists_mem_of_ne_nil _ someKey
      exact (saved key).symm.trans (same key member)

/-- The timer and the task never lose a key. -/
theorem step_delivers (s : KeySystem) (event : KeyEvent) (settled : s.queue.Settled)
    (room : SevenWaiting s) (faithful : s.queue.Faithful s.cells) :
    SameKey s event ↔ ∃ t, s.step event = some t ∧ t.queue.Faithful t.cells := by
  cases event with
  | eint0 => exact eint0_delivers s settled room faithful
  | timer2 =>
    refine ⟨fun _ => ⟨_, rfl, ?_⟩, fun _ => trivial⟩
    refine (PostBox.change_faithful s.cells _ s.queue faithful).mpr fun key _ => ?_
    exact timer2IRQHandler_saved s.decoder
  | task =>
    refine ⟨fun _ => ⟨taskKey s, rfl, ?_⟩, fun _ => trivial⟩
    rw [taskKey_cells]
    exact (taskKey_queue s).faithful faithful

/-- Along every interleaving with no more than seven posts waiting, all keys arrive as
they were posted exactly when each key that is completed behind an unread one repeats it. -/
theorem keys_delivered_iff (decoder : KeyDecoder) (events : List KeyEvent)
    (seven : Always KeySystem.step SevenWaiting (KeySystem.start decoder) events) :
    Always KeySystem.step KeysDelivered (KeySystem.start decoder) events ↔
      EachStep KeySystem.step SameKey (KeySystem.start decoder) events := by
  have one : ∀ s event, s.queue.Settled → SevenWaiting s → KeysDelivered s →
      (SameKey s event ↔ ∃ t, s.step event = some t ∧ KeysDelivered t) := by
    intro s event settled room delivered
    have faithful := (PostBox.delivered_iff s.cells s.queue settled).mp delivered
    rw [step_delivers s event settled room faithful]
    exact (PostBox.exists_delivered_iff KeySystem.queue KeySystem.cells fun t taken =>
      step_settled s event t settled taken).symm
  exact always_iff_of_always step_settled one seven PostBox.settled_empty rfl

/-- The last bit of ADD arrives while the task waits, and the task passes the key on. -/
theorem keys_delivered_add :
    let decoder := { keyInit with keyvalue := keyAdd >>> 1, times := 6 }
    let events : List KeyEvent := [.task, .eint0, .task, .task]
    Always KeySystem.step SevenWaiting (KeySystem.start decoder) events ∧
      (Always KeySystem.step KeysDelivered (KeySystem.start decoder) events ↔
        EachStep KeySystem.step SameKey (KeySystem.start decoder) events) :=
  ⟨by decide, keys_delivered_iff _ _ (by decide)⟩

/-- The edges of a code of sixteen bits, most significant first: 0.6 ms for a zero and
1.9 ms for a one. -/
def edges (code : INT32U) : List KeyEvent :=
  (List.range 16).flatMap fun i =>
    List.replicate (if code.getLsbD (15 - i) then 19 else 6) .timer2 ++ [.eint0]

/-- ADD and then SUB, before the task runs for the first time. -/
theorem keys_not_delivered_addSub :
    ¬ ∀ events, Always KeySystem.step SevenWaiting (KeySystem.start keyInit) events →
      Always KeySystem.step KeysDelivered (KeySystem.start keyInit) events := by
  intro all
  have delivered := all (edges keyAdd ++ edges keySub) (by decide +kernel)
  exact absurd delivered (by decide +kernel)

end GasSub.Guarantees.KeyDelivery
