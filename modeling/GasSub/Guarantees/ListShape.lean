import GasSub.Library.Run
import GasSub.Source.EquipmentChain

/-!
# The equipment list keeps its shape

Records read and test points deleted in any order, from `InitEquipmentList` on.
Beside the memory stands the list that the calls promise: the test points added
and not deleted, the last one first. The pointers always form that list, without
a cycle. The head counts additions only, so its count is the length of the list
exactly as long as nothing was deleted.
-/
namespace GasSub.Guarantees.ListShape
open GasSub.Source
open GasSub.Library.Run GasSub.Library.LinkedList

/-- A record of the configuration file with the block that `malloc` returns for it, or a
call of `DeleteEquipment`. -/
inductive Event where
  | record (testP : Address) (block : TestpointCell) (sensorType : INT32U)
  | delete (equipment : Address)
  deriving DecidableEq, Repr

structure Equipment where
  heap : TestpointHeap
  head : Address
  nodes : List Address

/-- `InitEquipmentList` in a memory with any other blocks. -/
def Equipment.start (cell : Address → Option TestpointCell) (head : Address) : Equipment :=
  { heap := TestpointHeap.initEquipmentList cell head, head := head, nodes := [] }

/-- The test points after an event. -/
def nodesAfter (nodes : List Address) : Event → List Address
  | .record testP _ sensorType =>
    if TestpointHeap.Listed sensorType then testP :: nodes else nodes
  | .delete equipment => nodes.erase equipment

def Equipment.heapAfter (s : Equipment) : Event → Option TestpointHeap
  | .record testP block sensorType => s.heap.readRecord s.head testP block sensorType
  | .delete equipment => s.heap.deleteEquipment s.head equipment

def step (s : Equipment) (event : Event) : Option Equipment :=
  (s.heapAfter event).map fun heap => { s with heap := heap, nodes := nodesAfter s.nodes event }

/-- `malloc` returns a block that is not in use, and what is deleted is in the list. -/
def Legal (s : Equipment) : Event → Prop
  | .record testP _ _ => s.heap.cell testP = none
  | .delete equipment => equipment ∈ s.nodes

instance (s : Equipment) (event : Event) : Decidable (Legal s event) := by
  cases event with
  | record => exact inferInstanceAs (Decidable (_ = _))
  | delete equipment =>
    refine decidable_of_iff (s.nodes.any (fun p => decide (p = equipment)) = true) ?_
    simp only [List.any_eq_true, decide_eq_true_eq, exists_eq_right, Legal]

/-- The pointers from the head on form the list of the test points, each once. -/
structure Shaped (s : Equipment) : Prop where
  linked : Linked s.heap.next (some s.head) (s.head :: s.nodes)
  once : (s.head :: s.nodes).Nodup
  room : s.nodes.length < s.heap.handedOut

/-- `EquipmentList->EquipmentType` is the number of test points. -/
def Counted (s : Equipment) : Prop :=
  (s.heap.cell s.head).map TestpointCell.equipmentType = some (s.nodes.length : Int)

def WellFormed (s : Equipment) : Prop := Shaped s ∧ Counted s

/-- The event deletes nothing. -/
def KeepsNodes (_ : Equipment) : Event → Prop
  | .record _ _ _ => True
  | .delete _ => False

instance (s : Equipment) (event : Event) : Decidable (KeepsNodes s event) := by
  cases event with
  | record => exact inferInstanceAs (Decidable True)
  | delete => exact inferInstanceAs (Decidable False)

theorem shaped_start (cell : Address → Option TestpointCell) (head : Address) :
    Shaped (.start cell head) where
  linked := by
    refine ⟨rfl, none, ?_, rfl⟩
    exact TestpointHeap.next_eq_some.mpr ⟨⟨0, none⟩, Function.update_self .., rfl⟩
  once := List.nodup_cons.mpr ⟨List.not_mem_nil, List.nodup_nil⟩
  room := Nat.one_pos

theorem counted_start (cell : Address → Option TestpointCell) (head : Address) :
    Counted (.start cell head) := by
  have here : (Equipment.start cell head).heap.cell head = some ⟨0, none⟩ := Function.update_self ..
  exact congrArg (Option.map TestpointCell.equipmentType) here

theorem step_eq {s : Equipment} {event : Event} {heap : TestpointHeap}
    (result : s.heapAfter event = some heap) :
    step s event = some { s with heap := heap, nodes := nodesAfter s.nodes event } := by
  rw [step, result, Option.map_some]

/-! ### The two kinds of events -/

/-- A record of a listed type: the test point comes first, and the count goes up. -/
theorem step_listed {s : Equipment} (shaped : Shaped s) {testP : Address} (block : TestpointCell)
    {sensorType : INT32U} (listed : TestpointHeap.Listed sensorType)
    (unused : s.heap.cell testP = none) :
    ∃ t, step s (.record testP block sensorType) = some t ∧ Shaped t ∧ (Counted t ↔ Counted s) := by
  obtain ⟨-, first, read, tail⟩ := shaped.linked
  obtain ⟨c, counter, rfl⟩ := TestpointHeap.next_eq_some.mp read
  have outside : testP ∉ s.head :: s.nodes := by
    intro member
    obtain ⟨q, allocated⟩ := linked_allocated shaped.linked member
    obtain ⟨d, used, -⟩ := TestpointHeap.next_eq_some.mp allocated
    exact nomatch unused.symm.trans used
  have apart : s.head ≠ testP := fun same => outside (same ▸ List.mem_cons_self)
  have result := TestpointHeap.readRecord_eq block listed counter apart
  refine ⟨_, step_eq result, ⟨?_, ?_, ?_⟩, ?_⟩
  · simp only [nodesAfter, if_pos listed]
    refine ⟨rfl, some testP, ?_, rfl, c.next, ?_, ?_⟩
    · exact TestpointHeap.next_eq_some.mpr ⟨_, Function.update_self .., rfl⟩
    · refine TestpointHeap.next_eq_some.mpr
        ⟨⟨(sensorType.setWidth 16 : INT16U).toNat, c.next⟩, ?_, rfl⟩
      simp only [Function.update_of_ne apart.symm, Function.update_self]
    · refine linked_congr (fun a member => ?_) tail
      have here : a ≠ s.head := by
        intro same
        exact (List.nodup_cons.mp shaped.once).1 (same ▸ member)
      have there : a ≠ testP := by
        intro same
        exact outside (same ▸ List.mem_cons_of_mem s.head member)
      simp only [TestpointHeap.next, Function.update_of_ne here, Function.update_of_ne there]
  · simp only [nodesAfter, if_pos listed]
    have parts := List.nodup_cons.mp shaped.once
    refine List.nodup_cons.mpr ⟨?_, List.nodup_cons.mpr ⟨?_, parts.2⟩⟩
    · intro member
      rcases List.mem_cons.mp member with same | inside
      · exact apart same
      · exact parts.1 inside
    · exact fun member => outside (List.mem_cons_of_mem s.head member)
  · simp only [nodesAfter, if_pos listed, List.length_cons]
    exact Nat.succ_lt_succ shaped.room
  · have before : (s.heap.cell s.head).map TestpointCell.equipmentType = some c.equipmentType := by
      rw [counter, Option.map_some]
    simp only [Counted, nodesAfter, if_pos listed, before, Function.update_self, Option.map_some,
      Option.some.injEq, List.length_cons]
    omega

/-- A record of another type changes nothing but the number of blocks handed out. -/
theorem step_other {s : Equipment} (shaped : Shaped s) {testP : Address} (block : TestpointCell)
    {sensorType : INT32U} (other : ¬ TestpointHeap.Listed sensorType)
    (unused : s.heap.cell testP = none) :
    ∃ t, step s (.record testP block sensorType) = some t ∧ Shaped t ∧ (Counted t ↔ Counted s) := by
  have result : s.heap.readRecord s.head testP block sensorType =
      some { cell := s.heap.cell, handedOut := s.heap.handedOut + 1 } :=
    TestpointHeap.readRecord_other block other unused
  refine ⟨_, step_eq result, ⟨?_, ?_, ?_⟩, ?_⟩
  · simp only [nodesAfter, if_neg other]
    exact shaped.linked
  · simp only [nodesAfter, if_neg other]
    exact shaped.once
  · simp only [nodesAfter, if_neg other]
    exact Nat.lt_succ_of_lt shaped.room
  · simp only [Counted, nodesAfter, if_neg other]

/-- The test point deleted goes, the others stay in their order, and the count is what it was. -/
theorem step_delete {s : Equipment} (shaped : Shaped s) {equipment : Address}
    (listed : equipment ∈ s.nodes) :
    ∃ t, step s (.delete equipment) = some t ∧ Shaped t ∧ (Counted s → ¬Counted t) := by
  -- The cell before it: the head, or a test point.
  obtain ⟨front, p, after, whole, remaining⟩ := exists_before shaped.once listed
  have once := shaped.once
  have linked := shaped.linked
  rw [whole] at once linked
  have member : p ∈ front ++ p :: equipment :: after :=
    List.mem_append_right front List.mem_cons_self
  have member' : equipment ∈ front ++ p :: equipment :: after :=
    List.mem_append_right front (List.mem_cons_of_mem p List.mem_cons_self)
  obtain ⟨q, read⟩ := linked_allocated linked member
  obtain ⟨c, here, -⟩ := TestpointHeap.next_eq_some.mp read
  obtain ⟨r, read'⟩ := linked_allocated linked member'
  obtain ⟨d, there, -⟩ := TestpointHeap.next_eq_some.mp read'
  have lengths := congrArg List.length whole
  simp only [List.length_cons, List.length_append] at lengths
  have enough : front.length < s.heap.handedOut + 1 := by
    have room := shaped.room
    omega
  have result := TestpointHeap.deleteEquipment_eq linked enough here there
  obtain ⟨different, apart⟩ := apart_of_nodup once
  refine ⟨_, step_eq result, ⟨?_, ?_, ?_⟩, ?_⟩
  · simp only [nodesAfter]
    rw [remaining]
    refine linked_unlink linked ?_ fun b inside => ?_
    · simp only [TestpointHeap.next, Function.update_of_ne different, Function.update_self, there,
        Option.map_some]
    · obtain ⟨notHere, notThere⟩ := apart b inside
      simp only [TestpointHeap.next, Function.update_of_ne notThere, Function.update_of_ne notHere]
  · exact shaped.once.sublist (List.erase_sublist.cons_cons s.head)
  · simp only [nodesAfter]
    exact Nat.lt_of_le_of_lt List.length_erase_le shaped.room
  · -- The head keeps its count, whether or not it is the cell before.
    have notHead : s.head ≠ equipment := by
      intro same
      exact (List.nodup_cons.mp shaped.once).1 (same ▸ listed)
    have shorter := List.length_erase_of_mem listed
    have some_node := List.length_pos_of_mem listed
    simp only [Counted, nodesAfter, Function.update_of_ne notHead]
    by_cases first : s.head = p
    · subst first
      rw [Function.update_self, here]
      simp only [Option.map_some, Option.some.injEq]
      omega
    · rw [Function.update_of_ne first]
      intro counted counted'
      have same := Option.some.inj (counted.symm.trans counted')
      omega

/-- Whatever a legal event does, the list keeps its shape; the count stays right exactly when
nothing is deleted. -/
theorem step_legal {s : Equipment} (shaped : Shaped s) {event : Event} (legal : Legal s event) :
    ∃ t, step s event = some t ∧ Shaped t ∧ (Counted s → (Counted t ↔ KeepsNodes s event)) := by
  cases event with
  | record testP block sensorType =>
    have both : ∃ t, step s (.record testP block sensorType) = some t ∧ Shaped t ∧
        (Counted t ↔ Counted s) := by
      by_cases listed : TestpointHeap.Listed sensorType
      · exact step_listed shaped block listed legal
      · exact step_other shaped block listed legal
    obtain ⟨t, taken, shaped', same⟩ := both
    exact ⟨t, taken, shaped', fun counted => ⟨fun _ => trivial, fun _ => same.mpr counted⟩⟩
  | delete equipment =>
    obtain ⟨t, taken, shaped', wrong⟩ := step_delete shaped legal
    exact ⟨t, taken, shaped', fun counted => ⟨fun right => wrong counted right, fun kept => kept.elim⟩⟩

/-! ### Whole runs -/

theorem shaped_always {s : Equipment} {events : List Event} (shaped : Shaped s)
    (legal : EachStep step Legal s events) : Always step Shaped s events := by
  have one : ∀ s event, Shaped s → Legal s event → True ∧ ∃ t, step s event = some t ∧ Shaped t := by
    intro s event shaped legal
    obtain ⟨t, taken, shaped', -⟩ := step_legal shaped legal
    exact ⟨trivial, t, taken, shaped'⟩
  exact (always_and_eachStep one shaped legal).1

/-- Records and deletions in any order: the pointers form the list of the test points added and
not deleted, without a cycle, and the head counts them exactly as long as none is deleted. -/
theorem equipment_list_iff (cell : Address → Option TestpointCell) (head : Address)
    (events : List Event) (legal : EachStep step Legal (.start cell head) events) :
    Always step Shaped (.start cell head) events ∧
      (Always step WellFormed (.start cell head) events ↔
        EachStep step KeepsNodes (.start cell head) events) := by
  refine ⟨shaped_always (shaped_start cell head) legal, ?_⟩
  have kept : ∀ s event t, Shaped s → Legal s event → step s event = some t → Shaped t := by
    intro s event t shaped legal taken
    obtain ⟨u, taken', shaped', -⟩ := step_legal shaped legal
    obtain rfl : u = t := Option.some.inj (taken'.symm.trans taken)
    exact shaped'
  refine always_iff_of_eachStep kept ?_ legal (shaped_start cell head)
    ⟨shaped_start cell head, counted_start cell head⟩
  intro s event shaped legal wellFormed
  obtain ⟨t, taken, shaped', exactly⟩ := step_legal shaped legal
  have exactly := exactly wellFormed.2
  constructor
  · intro keeps
    exact ⟨t, taken, shaped', exactly.mpr keeps⟩
  · rintro ⟨u, taken', -, counted⟩
    obtain rfl : t = u := Option.some.inj (taken.symm.trans taken')
    exact exactly.mp counted

/-- Two test points and a record of an unknown type, then the later test point is deleted. -/
def sampleRun : List Event :=
  [.record 0x20 ⟨0, none⟩ 1, .record 0x30 ⟨7, some 0x20⟩ 2, .record 0x40 ⟨0, none⟩ 9, .delete 0x30]

theorem equipment_list_sample :
    Always step Shaped (.start (fun _ => none) 0x10) sampleRun ∧
      (Always step WellFormed (.start (fun _ => none) 0x10) sampleRun ↔
        EachStep step KeepsNodes (.start (fun _ => none) 0x10) sampleRun) :=
  equipment_list_iff (fun _ => none) 0x10 sampleRun (by decide)

/-- One test point is added and deleted: the list is empty, and the head counts one. -/
theorem count_after_delete :
    EachStep step Legal (.start (fun _ => none) 0x10) [.record 0x20 ⟨0, none⟩ 1, .delete 0x20] ∧
      ([.record 0x20 ⟨0, none⟩ 1, .delete 0x20].foldlM step (.start (fun _ => none) 0x10)).any
        (fun s : Equipment =>
          (s.heap.cell s.head, s.nodes) = (some (⟨1, none⟩ : TestpointCell), ([] : List Address))) =
        true := by
  decide

end GasSub.Guarantees.ListShape
