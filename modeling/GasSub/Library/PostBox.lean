import Mathlib.Algebra.Order.Ring.Int

/-!
# Messages posted by reference

A bounded queue carries the keys of cells, not their contents. One reader takes a key
from the queue and copies the cell later. A post to a full queue is lost, and a reader
that waits is handed the key without the queue. `posted` keeps what each cell held when
its key was posted, `received` what the reader copied; `Faithful` compares the two.
-/
namespace GasSub.Library

/-- Where the reader is: busy elsewhere, blocked on the empty queue, or in front of a
cell that it has not copied yet. -/
inductive PostBox.Reader (κ : Type) where
  | away
  | waiting
  | holding (key : κ)
  deriving DecidableEq, Repr

structure PostBox (κ ν : Type) where
  queue : List κ
  reader : PostBox.Reader κ
  posted : List ν
  received : List ν
  deriving DecidableEq, Repr

variable {κ ν : Type}

namespace PostBox

/-- Nothing posted, and the reader has not come to the queue yet. -/
def empty : PostBox κ ν := { queue := [], reader := .away, posted := [], received := [] }

/-- The writer posts `key`; the result of the post is ignored. -/
def post (size : Nat) (cells : κ → ν) (key : κ) (b : PostBox κ ν) : PostBox κ ν :=
  let posted := b.posted ++ [cells key]
  match b.reader with
  | .waiting => { b with reader := .holding key, posted := posted }
  | _ =>
    if b.queue.length < size then { b with queue := b.queue ++ [key], posted := posted }
    else { b with posted := posted }

/-- The reader asks for the next key. -/
def pend (b : PostBox κ ν) : PostBox κ ν :=
  match b.reader, b.queue with
  | .away, [] => { b with reader := .waiting }
  | .away, key :: rest => { b with queue := rest, reader := .holding key }
  | _, _ => b

/-- The reader copies the cell whose key it has. -/
def copy (cells : κ → ν) (b : PostBox κ ν) : PostBox κ ν :=
  match b.reader with
  | .holding key => { b with reader := .away, received := b.received ++ [cells key] }
  | _ => b

/-- The reader goes on alone for `n` messages. -/
def read (cells : κ → ν) : Nat → PostBox κ ν → PostBox κ ν
  | 0, b => b
  | n + 1, b => read cells n (b.pend.copy cells)

def held (b : PostBox κ ν) : List κ :=
  match b.reader with
  | .holding key => [key]
  | _ => []

/-- The keys posted whose cells are still to be copied. -/
def outstanding (b : PostBox κ ν) : List κ := b.held ++ b.queue

/-- The reader waits on an empty queue only. -/
def Settled (b : PostBox κ ν) : Prop := b.reader = .waiting → b.queue = []

/-- The next post is not lost. -/
def Room (size : Nat) (b : PostBox κ ν) : Prop := b.reader = .waiting ∨ b.queue.length < size

/-- What was copied and what would be copied now is what was posted. -/
def Faithful (cells : κ → ν) (b : PostBox κ ν) : Prop :=
  b.received ++ b.outstanding.map cells = b.posted

/-- The reader, left alone until it has caught up, has received what was posted. -/
def Delivered (cells : κ → ν) (b : PostBox κ ν) : Prop :=
  (b.read cells b.outstanding.length).received = b.posted

theorem settled_empty : (empty : PostBox κ ν).Settled := fun waits => nomatch waits

/-! ### The reader -/

@[simp] theorem pend_posted (b : PostBox κ ν) : b.pend.posted = b.posted := by
  unfold pend
  split <;> rfl

@[simp] theorem pend_received (b : PostBox κ ν) : b.pend.received = b.received := by
  unfold pend
  split <;> rfl

@[simp] theorem pend_outstanding (b : PostBox κ ν) : b.pend.outstanding = b.outstanding := by
  unfold pend
  split
  next away none => simp only [outstanding, held, away]
  next key rest away some => simp only [outstanding, held, away, some, List.nil_append, List.singleton_append]
  next => rfl

@[simp] theorem copy_posted (cells : κ → ν) (b : PostBox κ ν) : (b.copy cells).posted = b.posted := by
  unfold copy
  split <;> rfl

/-- Copying moves a value from the outstanding ones to the received ones. -/
theorem copy_together (cells : κ → ν) (b : PostBox κ ν) :
    (b.copy cells).received ++ (b.copy cells).outstanding.map cells =
      b.received ++ b.outstanding.map cells := by
  unfold copy
  split
  next key holding =>
    simp only [outstanding, held, holding, List.nil_append, List.singleton_append, List.map_cons,
      List.append_assoc]
  next => rfl

theorem pend_settled (b : PostBox κ ν) (settled : b.Settled) : b.pend.Settled := by
  unfold pend
  split
  next away none => exact fun _ => none
  next => exact fun waits => nomatch waits
  next => exact settled

theorem copy_settled (cells : κ → ν) (b : PostBox κ ν) (settled : b.Settled) :
    (b.copy cells).Settled := by
  unfold copy
  split
  next => exact fun waits => nomatch waits
  next => exact settled

theorem pend_faithful (cells : κ → ν) (b : PostBox κ ν) :
    b.pend.Faithful cells ↔ b.Faithful cells := by
  simp only [Faithful, pend_posted, pend_received, pend_outstanding]

theorem copy_faithful (cells : κ → ν) (b : PostBox κ ν) :
    (b.copy cells).Faithful cells ↔ b.Faithful cells := by
  simp only [Faithful, copy_posted, copy_together]

/-- A reader that finds something outstanding and copies it leaves one less. -/
theorem read_outstanding (cells : κ → ν) (b : PostBox κ ν) (settled : b.Settled) :
    (b.pend.copy cells).outstanding.length = b.outstanding.length - 1 := by
  cases reader : b.reader with
  | away =>
    cases queue : b.queue with
    | nil => simp [pend, copy, outstanding, held, reader, queue]
    | cons key rest => simp [pend, copy, outstanding, held, reader, queue]
  | waiting => simp [pend, copy, outstanding, held, reader, settled reader]
  | holding key => simp [pend, copy, outstanding, held, reader]

/-- Left alone, the reader copies what is outstanding, as it is now. -/
theorem read_received (cells : κ → ν) (n : Nat) (b : PostBox κ ν) (settled : b.Settled)
    (count : b.outstanding.length = n) :
    (b.read cells n).received = b.received ++ b.outstanding.map cells := by
  induction n generalizing b with
  | zero =>
    have nothing : b.outstanding = [] := List.eq_nil_of_length_eq_zero count
    rw [read, nothing, List.map_nil, List.append_nil]
  | succ n ih =>
    have next := ih (b.pend.copy cells) (copy_settled cells _ (pend_settled b settled))
      (by rw [read_outstanding cells b settled, count, Nat.add_sub_cancel])
    rw [read, next, copy_together, pend_received, pend_outstanding]

theorem delivered_iff (cells : κ → ν) (b : PostBox κ ν) (settled : b.Settled) :
    b.Delivered cells ↔ b.Faithful cells := by
  rw [Delivered, Faithful, read_received cells _ b settled rfl]

/-- A successor is as good as delivered where the reader waits on an empty queue only. -/
theorem exists_delivered_iff {σ : Type} {Next : σ → Prop} (box : σ → PostBox κ ν)
    (cells : σ → κ → ν) (settled : ∀ t, Next t → (box t).Settled) :
    (∃ t, Next t ∧ (box t).Delivered (cells t)) ↔ ∃ t, Next t ∧ (box t).Faithful (cells t) :=
  exists_congr fun t => and_congr_right fun next => delivered_iff (cells t) (box t) (settled t next)

/-- What a statement of the reader's program may do to the box. -/
def ReaderStep (cells : κ → ν) (before after : PostBox κ ν) : Prop :=
  after = before ∨ after = before.pend ∨ after = before.copy cells

theorem ReaderStep.settled {cells : κ → ν} {before after : PostBox κ ν}
    (step : ReaderStep cells before after) (settled : before.Settled) : after.Settled := by
  rcases step with rfl | rfl | rfl
  · exact settled
  · exact pend_settled before settled
  · exact copy_settled cells before settled

theorem ReaderStep.faithful {cells : κ → ν} {before after : PostBox κ ν}
    (step : ReaderStep cells before after) (faithful : before.Faithful cells) :
    after.Faithful cells := by
  rcases step with rfl | rfl | rfl
  · exact faithful
  · exact (pend_faithful cells before).mpr faithful
  · exact (copy_faithful cells before).mpr faithful

/-! ### The writer -/

theorem post_settled (size : Nat) (cells : κ → ν) (key : κ) (b : PostBox κ ν) (settled : b.Settled) :
    (b.post size cells key).Settled := by
  unfold post
  split
  next => exact fun waits => nomatch waits
  next busy =>
    split
    · exact fun waits => absurd waits busy
    · exact settled

@[simp] theorem post_posted (size : Nat) (cells : κ → ν) (key : κ) (b : PostBox κ ν) :
    (b.post size cells key).posted = b.posted ++ [cells key] := by
  unfold post
  split
  · rfl
  · split <;> rfl

@[simp] theorem post_received (size : Nat) (cells : κ → ν) (key : κ) (b : PostBox κ ν) :
    (b.post size cells key).received = b.received := by
  unfold post
  split
  · rfl
  · split <;> rfl

/-- A post that finds room is outstanding behind the others. -/
theorem post_outstanding (size : Nat) (cells : κ → ν) (key : κ) (b : PostBox κ ν) (settled : b.Settled)
    (room : b.Room size) : (b.post size cells key).outstanding = b.outstanding ++ [key] := by
  unfold post
  split
  next waits =>
    simp only [outstanding, held, waits, settled waits, List.append_nil, List.nil_append]
  next busy =>
    rw [if_pos (room.resolve_left busy)]
    simp only [outstanding, held, List.append_assoc]

/-- A post without room changes nothing but the record of what was posted. -/
theorem post_lost (size : Nat) (cells : κ → ν) (key : κ) (b : PostBox κ ν) (full : ¬ b.Room size) :
    (b.post size cells key).outstanding = b.outstanding := by
  obtain ⟨busy, much⟩ := not_or.mp full
  unfold post
  split
  next waits => exact absurd waits busy
  next => rw [if_neg much]; rfl

/-- A post that finds room matters only to itself. -/
theorem post_faithful_of_room (size : Nat) (cells : κ → ν) (key : κ) (b : PostBox κ ν)
    (settled : b.Settled) (room : b.Room size) :
    (b.post size cells key).Faithful cells ↔ b.Faithful cells := by
  rw [Faithful, Faithful, post_received, post_posted, post_outstanding size cells key b settled room,
    List.map_append, ← List.append_assoc, List.map_singleton, List.append_cancel_right_eq]

/-- A post keeps the box faithful exactly when it finds room. -/
theorem post_faithful (size : Nat) (cells : κ → ν) (key : κ) (b : PostBox κ ν) (settled : b.Settled)
    (faithful : b.Faithful cells) : (b.post size cells key).Faithful cells ↔ b.Room size := by
  constructor
  · intro after
    by_contra full
    rw [Faithful] at faithful
    rw [Faithful, post_received, post_posted, post_lost size cells key b full, faithful] at after
    have lengths := congrArg List.length after
    rw [List.length_append, List.length_singleton] at lengths
    omega
  · intro room
    exact (post_faithful_of_room size cells key b settled room).mpr faithful

/-- Writing to the cells keeps the box faithful exactly when no outstanding one changes. -/
theorem change_faithful (cells later : κ → ν) (b : PostBox κ ν) (faithful : b.Faithful cells) :
    b.Faithful later ↔ ∀ key ∈ b.outstanding, later key = cells key := by
  rw [Faithful, ← faithful, List.append_cancel_left_eq, List.map_inj_left]

end PostBox

end GasSub.Library
