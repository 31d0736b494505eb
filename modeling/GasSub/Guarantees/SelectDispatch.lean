import GasSub.Library.Run
import GasSub.Source.FtpSelect

/-!
# Calls on what `select` reported

Whether a pass of `socket_block` calls on the connections that `select` reported. Its
tests read the descriptor of the slot once more: that of a connection opened in the
pass may still be set in a returned set, and `INVALID_SOCKET` is taken for
descriptor 7.
-/
namespace GasSub.Guarantees.SelectDispatch
open GasSub.Source GasSub.Source.Hvsftpd GasSub.Library.Run

/-- The slot was occupied when `select` was called, the same connection occupies it at the
call, and its descriptor was in the returned set. -/
structure CallSound (socks : SockList) (sets : FdSets) (call : SockCall) : Prop where
  occupied : (socks call.slot).fd ≠ none
  present : (call.table.sockList call.slot).fd ≠ none
  same : call.table.connection call.slot =
    (NumberedTable.atSelect socks).connection call.slot
  reported : ∃ fd, (socks call.slot).fd = some fd ∧ sets call.ready fd = true

def CallsSound (socks : SockList) (sets : FdSets) (calls : List SockCall) : Prop :=
  ∀ call ∈ calls, CallSound socks sets call

/-- The slot was occupied when `select` was called, and no callback has freed it since. -/
def Untouched (socks : SockList) (p : DispatchPass) (i : Slot) : Prop :=
  (socks i).fd ≠ none ∧ i ∉ p.freed

/-- If a slot has been freed since, or was free before, then its present descriptor, or 7 for
none, is not set in the set tested. -/
def TestHarmless (socks : SockList) (sets : FdSets) (i : Slot) (ready : Readiness)
    (p : DispatchPass) : Prop :=
  (sets ready).isSet (p.table.sockList i).fd = true → Untouched socks p i

/-- The same for each test that is made of a slot. -/
def SlotHarmless (socks : SockList) (sets : FdSets) (effects : Effects) (p : DispatchPass)
    (i : Slot) : Prop :=
  (p.table.sockList i).fd ≠ none →
    TestHarmless socks sets i .readable p ∧
    TestHarmless socks sets i .writeable (testSlot sets effects i .readable p) ∧
    TestHarmless socks sets i .exceptional
      (testSlot sets effects i .writeable (testSlot sets effects i .readable p))

/-- The slots one after the other; a test always comes to an end. -/
def slotStep (sets : FdSets) (effects : Effects) (p : DispatchPass) (i : Slot) :
    Option DispatchPass := some (checkSlot sets effects p i)

/-! ### What the callbacks do to the connections -/

/-- A slot that has not been freed holds the connection it held; what has come into any other
slot has a later number. -/
structure Tracked (socks : SockList) (t : NumberedTable) (freed : List Slot) : Prop where
  kept : ∀ i, (socks i).fd ≠ none → i ∉ freed →
    (t.sockList i).fd = (socks i).fd ∧ t.connection i = i.val
  renewed : ∀ i, ¬ ((socks i).fd ≠ none ∧ i ∉ freed) → (t.sockList i).fd ≠ none →
    maxSocket ≤ t.connection i
  numbered : maxSocket ≤ t.next

variable {socks : SockList} {sets : FdSets} {effects : Effects}

theorem tracked_atSelect (socks : SockList) : Tracked socks (.atSelect socks) [] where
  kept _ _ _ := ⟨rfl, rfl⟩
  renewed i touched occupied := by
    refine absurd ⟨?_, List.not_mem_nil⟩ touched
    exact occupied
  numbered := Nat.le_refl _

/-- A freed slot is free, and the others are as before. -/
theorem sockList_free (t : NumberedTable) (i j : Slot) :
    ((SlotOp.apply t (.free j)).sockList i).fd = if i = j then none else (t.sockList i).fd := by
  change (Function.update t.sockList j _ i).fd = _
  by_cases here : i = j
  · subst here
    rw [Function.update_self, if_pos rfl]
  · rw [Function.update_of_ne here, if_neg here]

theorem tracked_free {t : NumberedTable} {freed : List Slot} (tracked : Tracked socks t freed)
    (j : Slot) : Tracked socks (SlotOp.apply t (.free j)) (freed ++ [j]) where
  kept i occupied untouched := by
    rw [List.mem_append, List.mem_singleton, not_or] at untouched
    have old := tracked.kept i occupied untouched.1
    rw [sockList_free, if_neg untouched.2]
    exact old
  renewed i touched occupied := by
    rw [sockList_free] at occupied
    split at occupied
    · exact absurd rfl occupied
    next away =>
      refine tracked.renewed i (fun old => touched ⟨old.1, ?_⟩) occupied
      rw [List.mem_append, List.mem_singleton, not_or]
      exact ⟨old.2, away⟩
  numbered := tracked.numbered

/-- A new connection comes into a free slot. -/
theorem tracked_connect {t : NumberedTable} {freed : List Slot} (tracked : Tracked socks t freed)
    (fd : Nat) (state : SocketState) : Tracked socks (SlotOp.apply t (.connect fd state)) freed := by
  rw [SlotOp.apply]
  cases allocated : socketAlloc t.sockList with
  | none => exact tracked
  | some result =>
    obtain ⟨j, cleared⟩ := result
    obtain ⟨free, rfl⟩ := socketAlloc_some allocated
    refine ⟨fun i occupied untouched => ?_, fun i touched occupied => ?_,
      Nat.le_succ_of_le tracked.numbered⟩
    · have old := tracked.kept i occupied untouched
      have away : i ≠ j := by
        rintro rfl
        exact occupied (old.1.symm.trans free)
      simp only [Function.update_of_ne away]
      exact old
    · by_cases here : i = j
      · subst here
        simp only [Function.update_self]
        exact tracked.numbered
      · simp only [Function.update_of_ne here] at occupied ⊢
        exact tracked.renewed i touched occupied

/-- Stores to the other members leave descriptors and connections. -/
theorem Tracked.congr {t t' : NumberedTable} {freed : List Slot} (tracked : Tracked socks t freed)
    (fds : ∀ i, (t'.sockList i).fd = (t.sockList i).fd)
    (connection : t'.connection = t.connection) (next : t'.next = t.next) :
    Tracked socks t' freed where
  kept i occupied untouched := by
    rw [fds, connection]
    exact tracked.kept i occupied untouched
  renewed i touched occupied := by
    rw [fds] at occupied
    rw [connection]
    exact tracked.renewed i touched occupied
  numbered := next ▸ tracked.numbered

theorem fd_update (socks : SockList) (j : Slot) {sock : Hfsocket} (same : sock.fd = (socks j).fd)
    (i : Slot) : (Function.update socks j sock i).fd = (socks i).fd := by
  by_cases here : i = j
  · subst here
    rw [Function.update_self]
    exact same
  · rw [Function.update_of_ne here]

theorem tracked_apply {t : NumberedTable} {freed : List Slot} (tracked : Tracked socks t freed)
    (op : SlotOp) : Tracked socks (op.apply t) (freed ++ op.freed.toList) := by
  cases op with
  | free j => exact tracked_free tracked j
  | connect fd state =>
    have none : (SlotOp.connect fd state).freed.toList = [] := rfl
    rw [none, List.append_nil]
    exact tracked_connect tracked fd state
  | assign j sock =>
    have none : (SlotOp.assign j sock).freed.toList = [] := rfl
    rw [none, List.append_nil]
    exact tracked.congr (fd_update t.sockList j rfl) rfl rfl

/-- A whole callback, by induction on what it does. -/
theorem tracked_callback (ops : List SlotOp) {t : NumberedTable} {freed : List Slot}
    (tracked : Tracked socks t freed) :
    Tracked socks (ops.foldl SlotOp.apply t) (freed ++ ops.filterMap SlotOp.freed) := by
  induction ops generalizing t freed with
  | nil =>
    rw [List.filterMap_nil, List.append_nil]
    exact tracked
  | cons op rest ih =>
    have later := ih (tracked_apply tracked op)
    have split : (op :: rest).filterMap SlotOp.freed =
        op.freed.toList ++ rest.filterMap SlotOp.freed := by
      rw [List.filterMap_cons]
      cases op.freed <;> rfl
    rw [List.foldl_cons, split, ← List.append_assoc]
    exact later

/-! ### The tests -/

/-- A pass so far: the connections are tracked, whatever has been called. -/
def TrackedPass (socks : SockList) (p : DispatchPass) : Prop := Tracked socks p.table p.freed

/-- What `FD_ISSET` finds of a slot is what it finds of the call. -/
theorem tracked_reported {p : DispatchPass} (tracked : TrackedPass socks p) (i : Slot)
    (ready : Readiness) : Tracked socks (p.table.reported i ready) p.freed := by
  refine Tracked.congr tracked (fun j => ?_) ?_ ?_
  · cases ready with
    | readable =>
      have same : { p.table.sockList i with state := (p.table.sockList i).state.readable }.fd =
          (p.table.sockList i).fd := rfl
      exact fd_update p.table.sockList i same j
    | writeable => rfl
    | exceptional => rfl
  · cases ready <;> rfl
  · cases ready <;> rfl

theorem tracked_testSlot (sets : FdSets) (effects : Effects) {p : DispatchPass}
    (tracked : TrackedPass socks p) (i : Slot) (ready : Readiness) :
    TrackedPass socks (testSlot sets effects i ready p) := by
  rw [testSlot]
  split
  · exact tracked_callback (effects i ready) (tracked_reported tracked i ready)
  · exact tracked

/-- A call is sound exactly on a slot that has not been touched. -/
theorem callSound_iff {p : DispatchPass} (tracked : TrackedPass socks p) (i : Slot)
    (ready : Readiness) (callback : Option SockCallback)
    (set : (sets ready).isSet (p.table.sockList i).fd = true) :
    CallSound socks sets ⟨i, ready, callback, p.table.reported i ready⟩ ↔ Untouched socks p i := by
  have reported := tracked_reported tracked i ready
  constructor
  · intro sound
    by_contra touched
    have later := reported.renewed i touched sound.present
    have number : (p.table.reported i ready).connection i = i.val := sound.same
    rw [number] at later
    exact absurd i.isLt (Nat.not_lt.mpr later)
  · intro untouched
    obtain ⟨fd, connection⟩ := reported.kept i untouched.1 untouched.2
    obtain ⟨present, -⟩ := Tracked.kept tracked i untouched.1 untouched.2
    refine ⟨untouched.1, ?_, connection, ?_⟩
    · rw [fd]
      exact untouched.1
    · obtain ⟨number, held⟩ := Option.ne_none_iff_exists'.mp untouched.1
      rw [present, held] at set
      exact ⟨number, held, set⟩

theorem callsSound_testSlot {p : DispatchPass} (tracked : TrackedPass socks p) (i : Slot)
    (ready : Readiness) :
    CallsSound socks sets (testSlot sets effects i ready p).calls ↔
      CallsSound socks sets p.calls ∧ TestHarmless socks sets i ready p := by
  by_cases set : (sets ready).isSet (p.table.sockList i).fd = true
  · have called : (testSlot sets effects i ready p).calls =
        p.calls ++ [⟨i, ready, (p.table.sockList i).callback ready, p.table.reported i ready⟩] := by
      rw [testSlot, if_pos set]
    have harmless : TestHarmless socks sets i ready p ↔ Untouched socks p i :=
      ⟨fun each => each set, fun untouched _ => untouched⟩
    rw [called, CallsSound, List.forall_mem_append, List.forall_mem_singleton,
      callSound_iff tracked i ready _ set, harmless]
    rfl
  · have quiet : testSlot sets effects i ready p = p := by
      rw [testSlot, if_neg set]
    rw [quiet]
    exact (and_iff_left fun now => absurd now set).symm

/-- One slot: its calls are sound exactly if its tests are harmless. -/
theorem callsSound_checkSlot (sets : FdSets) (effects : Effects) {p : DispatchPass}
    (tracked : TrackedPass socks p) (i : Slot) :
    TrackedPass socks (checkSlot sets effects p i) ∧
      (CallsSound socks sets (checkSlot sets effects p i).calls ↔
        CallsSound socks sets p.calls ∧ SlotHarmless socks sets effects p i) := by
  rw [checkSlot, SlotHarmless]
  by_cases free : (p.table.sockList i).fd = none
  · rw [if_pos free]
    exact ⟨tracked, (and_iff_left fun occupied => absurd free occupied).symm⟩
  · rw [if_neg free]
    have read := tracked_testSlot sets effects tracked i .readable
    have written := tracked_testSlot sets effects read i .writeable
    refine ⟨tracked_testSlot sets effects written i .exceptional, ?_⟩
    rw [callsSound_testSlot written, callsSound_testSlot read, callsSound_testSlot tracked,
      and_assoc, and_assoc]
    exact and_congr_right fun _ => ⟨fun tests _ => tests, fun tests => tests free⟩

/-- All slots, by induction on those left to check. -/
theorem callsSound_checkSlots (slots : List Slot) {p : DispatchPass}
    (tracked : TrackedPass socks p) :
    CallsSound socks sets (slots.foldl (checkSlot sets effects) p).calls ↔
      CallsSound socks sets p.calls ∧
        EachStep (slotStep sets effects) (SlotHarmless socks sets effects) p slots := by
  induction slots generalizing p with
  | nil => exact (and_iff_left trivial).symm
  | cons i rest ih =>
    obtain ⟨later, one⟩ := callsSound_checkSlot sets effects tracked i
    have split : EachStep (slotStep sets effects) (SlotHarmless socks sets effects) p (i :: rest) ↔
        SlotHarmless socks sets effects p i ∧
          EachStep (slotStep sets effects) (SlotHarmless socks sets effects)
            (checkSlot sets effects p i) rest :=
      and_congr_right fun _ => ⟨fun each => each _ rfl, fun each t taken => by
        obtain rfl := Option.some.inj taken
        exact each⟩
    rw [List.foldl_cons, ih later, one, split, and_assoc]

/-- What `select` returns when all sockets are watched. -/
def returned (select : Nat → FdSets → Int × FdSets) (socks : SockList) : Int × FdSets :=
  select ((watch none socks).maxFd + 1) (watch none socks).sets

/-- A pass over all sockets calls on the connections that `select` reported, and on no others,
exactly if each of its tests is harmless. -/
theorem socketBlock_sound_iff (socks : SockList) (select : Nat → FdSets → Int × FdSets)
    (effects : Effects) :
    CallsSound socks (returned select socks).2 (socketBlock none true select effects socks).2.calls ↔
      (0 < (returned select socks).1 →
        EachStep (slotStep (returned select socks).2 effects)
          (SlotHarmless socks (returned select socks).2 effects) (.atSelect socks)
          (List.finRange maxSocket)) := by
  have start : TrackedPass socks (.atSelect socks) := tracked_atSelect socks
  have nothing : ∀ sets, CallsSound socks sets [] := fun sets call no => by cases no
  rw [socketBlock, returned]
  generalize select ((watch none socks).maxFd + 1) (watch none socks).sets = answer
  by_cases failed : answer.1 ≤ 0
  · rw [if_pos failed]
    exact iff_of_true (nothing _) fun positive => absurd positive (by omega)
  · rw [if_neg failed, if_pos rfl, callsSound_checkSlots _ start]
    exact ⟨fun each _ => each.2, fun each => ⟨nothing _, each (by omega)⟩⟩

/-! ### A client that leaves -/

/-- A slot in use, by descriptor. -/
def inUse (fd : Nat) (interest : INT8U) : Hfsocket :=
  { Hfsocket.cleared with fd := some fd, state := .connected, interest := interest }

/-- A command socket with descriptor 1, and a data socket that sends with descriptor 7. -/
def busyTable : SockList :=
  Function.update (Function.update (fun _ => Hfsocket.cleared) 1 (inUse 1 socketReadable)) 2
    (inUse 7 socketWriteable)

/-- Whatever is watched for is ready. -/
def allReady (_ : Nat) (watched : FdSets) : Int × FdSets := (1, watched)

/-- The command socket is freed when it is read. -/
def leaving : Effects := fun i ready => if i = 1 ∧ ready = .readable then [.free 1] else []

/-- Its write callback is called while it is free, for descriptor 7 of the other socket. -/
theorem socketBlock_not_sound :
    ¬ ∀ (socks : SockList) (select : Nat → FdSets → Int × FdSets) (effects : Effects),
      CallsSound socks (returned select socks).2
        (socketBlock none true select effects socks).2.calls := by
  intro claim
  have free : ∃ call ∈ (socketBlock none true allReady leaving busyTable).2.calls,
      (call.table.sockList call.slot).fd = none := by
    have found : (socketBlock none true allReady leaving busyTable).2.calls.any
        (fun call => decide ((call.table.sockList call.slot).fd = none)) = true := by
      decide +kernel
    obtain ⟨call, member, absent⟩ := List.any_eq_true.mp found
    exact ⟨call, member, of_decide_eq_true absent⟩
  obtain ⟨call, member, absent⟩ := free
  exact (claim busyTable allReady leaving call member).present absent

end GasSub.Guarantees.SelectDispatch
