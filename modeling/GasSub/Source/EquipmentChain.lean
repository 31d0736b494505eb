import GasSub.Library.LinkedList
import GasSub.Source.Sensor
import Mathlib.Logic.Function.Basic

/-!
# The equipment list in memory

`AddEquipment`, `DeleteEquipment`, `InitEquipmentList` and the additions of
`Read_ConfigFile`, over the blocks that `malloc` hands out for test points. Of a
test point only `EquipmentType` and `next` take part; the `EquipmentType` of the
head counts the others. Reading or writing a block that is not allocated leaves
no defined state, and `malloc` succeeds.
-/
namespace GasSub.Source
open GasSub.Library.LinkedList

/-- The address of a block; a pointer is one, or null. -/
abbrev Address := INT32U

structure TestpointCell where
  equipmentType : Int
  next : Option Address
  deriving DecidableEq, Repr

/-- The allocated blocks, and how many were ever handed out: a walk that visits more runs
in a circle. -/
structure TestpointHeap where
  cell : Address → Option TestpointCell
  handedOut : Nat

namespace TestpointHeap

/-- `p->next`. -/
def next (h : TestpointHeap) (p : Address) : Option (Option Address) :=
  (h.cell p).map TestpointCell.next

/-- An assignment to a member of `*p`. -/
def modify (h : TestpointHeap) (p : Address) (change : TestpointCell → TestpointCell) :
    Option TestpointHeap :=
  (h.cell p).map fun c => { h with cell := Function.update h.cell p (some (change c)) }

/-- `p->next = q`. -/
def setNext (h : TestpointHeap) (p : Address) (q : Option Address) : Option TestpointHeap :=
  h.modify p fun c => { c with next := q }

/-- `malloc` returns `p`, whose block holds anything. -/
def malloc (h : TestpointHeap) (p : Address) (block : TestpointCell) : TestpointHeap :=
  { cell := Function.update h.cell p (some block), handedOut := h.handedOut + 1 }

def free (h : TestpointHeap) (p : Address) : TestpointHeap :=
  { h with cell := Function.update h.cell p none }

/-- `initTestpoint(p, sensorName, …)`, where it concerns the list. -/
def initTestpoint (h : TestpointHeap) (p : Address) (sensorName : INT16U) : Option TestpointHeap :=
  h.modify p fun _ => ⟨sensorName.toNat, none⟩

/-- `AddEquipment`. -/
def addEquipment (h : TestpointHeap) (head equipment : Address) : Option TestpointHeap :=
  (h.next head).bind fun first =>
    (h.setNext equipment first).bind fun h => h.setNext head (some equipment)

/-- `DeleteEquipment`. -/
def deleteEquipment (h : TestpointHeap) (head equipment : Address) : Option TestpointHeap :=
  (h.next equipment).bind fun behind =>
    (findBefore h.next equipment (h.handedOut + 1) (some head)).bind fun pList =>
      match pList with
      | none => some h
      | some p => (h.setNext p behind).map fun h => h.free equipment

/-- `EquipmentList->EquipmentType++`. -/
def countUp (h : TestpointHeap) (head : Address) : Option TestpointHeap :=
  h.modify head fun c => { c with equipmentType := c.equipmentType + 1 }

/-- `Read_ConfigFile` has a case for the type. -/
def Listed (sensorType : INT32U) : Prop :=
  sensorType = SensorKind.analogue.code.setWidth 32 ∨
    sensorType = SensorKind.switch.code.setWidth 32 ∨
    sensorType = SensorKind.accumulate.code.setWidth 32 ∨
    sensorType = SensorKind.tristate.code.setWidth 32

instance (sensorType : INT32U) : Decidable (Listed sensorType) :=
  inferInstanceAs (Decidable (_ ∨ _))

/-- One record of `Read_ConfigFile`, for the block that `malloc` returns and the type read. -/
def readRecord (h : TestpointHeap) (head testP : Address) (block : TestpointCell)
    (sensorType : INT32U) : Option TestpointHeap :=
  if Listed sensorType then
    (((h.malloc testP block).initTestpoint testP (sensorType.setWidth 16)).bind fun h =>
      h.addEquipment head testP).bind fun h => h.countUp head
  else some ((h.malloc testP block).free testP)

/-- `InitEquipmentList`, in a memory whose other blocks hold anything. -/
def initEquipmentList (cell : Address → Option TestpointCell) (head : Address) : TestpointHeap :=
  { cell := Function.update cell head (some ⟨0, none⟩), handedOut := 1 }

/-! ### The operations in closed form -/

theorem next_eq_some {h : TestpointHeap} {p : Address} {q : Option Address} :
    h.next p = some q ↔ ∃ c, h.cell p = some c ∧ c.next = q := Option.map_eq_some_iff

theorem modify_eq {h : TestpointHeap} {p : Address} {c : TestpointCell} (here : h.cell p = some c)
    (change : TestpointCell → TestpointCell) :
    h.modify p change = some { h with cell := Function.update h.cell p (some (change c)) } := by
  rw [modify, here, Option.map_some]

/-- A test point of a listed type is linked in behind the head, which counts it. -/
theorem readRecord_eq {h : TestpointHeap} {head testP : Address} {c : TestpointCell}
    (block : TestpointCell) {sensorType : INT32U} (listed : Listed sensorType)
    (counter : h.cell head = some c) (apart : head ≠ testP) :
    h.readRecord head testP block sensorType =
      some
        { cell := Function.update
            (Function.update h.cell testP
              (some ⟨(sensorType.setWidth 16 : INT16U).toNat, c.next⟩))
            head (some ⟨c.equipmentType + 1, some testP⟩)
          handedOut := h.handedOut + 1 } := by
  let fresh : TestpointCell := ⟨(sensorType.setWidth 16 : INT16U).toNat, none⟩
  have here : (h.malloc testP block).cell testP = some block := Function.update_self ..
  let h₁ : TestpointHeap :=
    { cell := Function.update (h.malloc testP block).cell testP (some fresh)
      handedOut := h.handedOut + 1 }
  have initialized : (h.malloc testP block).initTestpoint testP (sensorType.setWidth 16) =
      some h₁ := modify_eq here _
  have counter₁ : h₁.cell head = some c := by
    simp only [h₁, malloc, Function.update_of_ne apart, counter]
  have testP₁ : h₁.cell testP = some fresh := Function.update_self ..
  let h₂ : TestpointHeap :=
    { h₁ with cell := Function.update h₁.cell testP (some { fresh with next := c.next }) }
  have behind : h₁.setNext testP c.next = some h₂ := modify_eq testP₁ _
  have counter₂ : h₂.cell head = some c := by
    simp only [h₂, Function.update_of_ne apart, counter₁]
  let h₃ : TestpointHeap :=
    { h₂ with cell := Function.update h₂.cell head (some { c with next := some testP }) }
  have linked : h₂.setNext head (some testP) = some h₃ := modify_eq counter₂ _
  have added : h₁.addEquipment head testP = some h₃ := by
    have first : h₁.next head = some c.next := next_eq_some.mpr ⟨c, counter₁, rfl⟩
    rw [addEquipment, first, Option.bind_some, behind, Option.bind_some, linked]
  have counter₃ : h₃.cell head = some { c with next := some testP } := Function.update_self ..
  rw [readRecord, if_pos listed, initialized, Option.bind_some, added, Option.bind_some, countUp,
    modify_eq counter₃]
  simp only [h₁, h₂, h₃, fresh, malloc, Function.update_idem]

/-- A record of another type leaves the list as it was. -/
theorem readRecord_other {h : TestpointHeap} {head testP : Address} (block : TestpointCell)
    {sensorType : INT32U} (other : ¬ Listed sensorType) (unused : h.cell testP = none) :
    h.readRecord head testP block sensorType =
      some { cell := h.cell, handedOut := h.handedOut + 1 } := by
  rw [readRecord, if_neg other]
  simp only [malloc, free, Function.update_idem, Option.some.injEq, TestpointHeap.mk.injEq, and_true]
  rw [← unused, Function.update_eq_self]

/-- The cell before the one deleted points behind it. -/
theorem deleteEquipment_eq {h : TestpointHeap} {head p equipment : Address}
    {before after : List Address} {c d : TestpointCell}
    (linked : Linked h.next (some head) (before ++ p :: equipment :: after))
    (enough : before.length < h.handedOut + 1) (here : h.cell p = some c)
    (there : h.cell equipment = some d) :
    h.deleteEquipment head equipment =
      some
        { h with
          cell := Function.update (Function.update h.cell p (some { c with next := d.next }))
            equipment none } := by
  have behind : h.next equipment = some d.next := next_eq_some.mpr ⟨d, there, rfl⟩
  have found := findBefore_found linked enough
  have bridged : h.setNext p d.next =
      some { h with cell := Function.update h.cell p (some { c with next := d.next }) } :=
    modify_eq here _
  rw [deleteEquipment, behind, Option.bind_some, found, Option.bind_some]
  simp only
  rw [bridged, Option.map_some]
  rfl

end TestpointHeap

end GasSub.Source
