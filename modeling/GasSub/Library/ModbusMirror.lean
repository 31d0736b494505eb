import GasSub.Library.ModbusProtocol
import Mathlib.Data.Set.Basic
import Mathlib.Logic.Function.Basic

/-!
# What a master knows of Modbus devices

A master keeps a copy of the tables of each of its devices. It notes what a reply tells: the
cells that were read, and those that it wrote itself. A copy agrees with the device in a
set of cells, and an exchange that is granted adds the cells it is about to the set. An
exchange can also take cells out of it: a request that writes and reads is refused after
the writing when only its reading fails, and sent to all it has no reply.
-/
namespace GasSub.Library.ModbusMirror
open GasSub.Library.Cells GasSub.Library.ModbusProtocol

/-! ### Cells -/

inductive Table where
  | discretes | coils | inputs | holdings
  deriving DecidableEq, Repr

def Table.Value : Table → Type
  | .discretes => Bool
  | .coils => Bool
  | .inputs => BitVec 16
  | .holdings => BitVec 16

def cell (d : Device) : (t : Table) → Nat → t.Value
  | .discretes => d.discretes
  | .coils => d.coils
  | .inputs => d.inputs
  | .holdings => d.holdings

/-- The device with a run of cells replaced. -/
def put (d : Device) : (t : Table) → Nat → List t.Value → Device
  | .discretes, start, values => { d with discretes := replace d.discretes start values }
  | .coils, start, values => { d with coils := replace d.coils start values }
  | .inputs, start, values => { d with inputs := replace d.inputs start values }
  | .holdings, start, values => { d with holdings := replace d.holdings start values }

theorem cell_put_self (d : Device) (t : Table) (start : Nat) (values : List t.Value) :
    cell (put d t start values) t = replace (cell d t) start values := by
  cases t <;> rfl

theorem cell_put_other (d : Device) {t u : Table} (start : Nat) (values : List t.Value) (other : u ≠ t) :
    cell (put d t start values) u = cell d u := by
  cases t <;> cases u <;> first | rfl | exact absurd rfl other

theorem put_slice (d : Device) (t : Table) (start n : Nat) : put d t start (slice (cell d t) start n) = d := by
  cases t with
  | discretes => exact congrArg (fun cells => { d with discretes := cells }) (replace_slice _ _ _)
  | coils => exact congrArg (fun cells => { d with coils := cells }) (replace_slice _ _ _)
  | inputs => exact congrArg (fun cells => { d with inputs := cells }) (replace_slice _ _ _)
  | holdings => exact congrArg (fun cells => { d with holdings := cells }) (replace_slice _ _ _)

def tableSize (z : Sizes) : Table → Nat
  | .discretes => z.discretes
  | .coils => z.coils
  | .inputs => z.inputs
  | .holdings => z.holdings

/-- The cells that there are. -/
def within (z : Sizes) : Set (Table × Nat) := {c | c.2 < tableSize z c.1}

/-- A run of cells of a table. -/
def block (t : Table) (start n : Nat) : Set (Table × Nat) :=
  {c | c.1 = t ∧ start ≤ c.2 ∧ c.2 < start + n}

/-! ### Agreement -/

/-- Two devices have the same contents in these cells. -/
def Agree (known : Set (Table × Nat)) (d e : Device) : Prop := ∀ c ∈ known, cell d c.1 c.2 = cell e c.1 c.2

section
variable {known : Set (Table × Nat)} {d e : Device}

theorem Agree.refl (known : Set (Table × Nat)) (d : Device) : Agree known d d := fun _ _ => rfl

theorem Agree.trans {f : Device} (first : Agree known d e) (second : Agree known e f) : Agree known d f :=
  fun c member => (first c member).trans (second c member)

theorem Agree.mono {fewer : Set (Table × Nat)} (agree : Agree known d e) (less : fewer ⊆ known) :
    Agree fewer d e := fun c member => agree c (less member)

/-- The same run in both. -/
theorem Agree.put (agree : Agree known d e) (t : Table) (start : Nat) (values : List t.Value) :
    Agree (known ∪ block t start values.length) (put d t start values) (put e t start values) := by
  rintro ⟨u, i⟩ member
  by_cases here : u = t
  · subst here
    rw [cell_put_self, cell_put_self]
    exact replace_same _ _ _ (member.imp (agree (u, i)) fun run => run.2)
  · rw [cell_put_other d start values here, cell_put_other e start values here]
    exact agree (u, i) (member.resolve_right fun run => here run.1)

theorem Agree.put_same (agree : Agree known d e) (t : Table) (start : Nat) (values : List t.Value) :
    Agree known (ModbusMirror.put d t start values) (ModbusMirror.put e t start values) :=
  (agree.put t start values).mono Set.subset_union_left

/-- What was read of the other. -/
theorem Agree.read (agree : Agree known d e) (t : Table) (start n : Nat) :
    Agree (known ∪ block t start n) (ModbusMirror.put d t start (slice (cell e t) start n)) e := by
  have both := agree.put t start (slice (cell e t) start n)
  rw [put_slice, length_slice] at both
  exact both

/-- A run in one of them only. -/
theorem Agree.change (agree : Agree known d e) (t : Table) (start : Nat) (values : List t.Value) :
    Agree (known \ block t start values.length) d (ModbusMirror.put e t start values) := by
  rintro ⟨u, i⟩ ⟨member, outside⟩
  by_cases here : u = t
  · subst here
    rw [cell_put_self, replace_outside _ _ _ (by
      by_cases before : i < start
      · exact Or.inl before
      · exact Or.inr (Nat.le_of_not_lt fun bound => outside ⟨rfl, Nat.le_of_not_lt before, bound⟩))]
    exact agree (u, i) member
  · rw [cell_put_other e start values here]
    exact agree (u, i) member

end

/-! ### One exchange -/

/-- What the master notes of a request and its reply. -/
def learn (d : Device) : Request → Reply → Device
  | .readCoils address _, .bits values => put d .coils address.toNat values
  | .readDiscretes address _, .bits values => put d .discretes address.toNat values
  | .readHoldings address _, .words values => put d .holdings address.toNat values
  | .readInputs address _, .words values => put d .inputs address.toNat values
  | .writeCoil address value, .done => put d .coils address.toNat [value]
  | .writeHolding address value, .done => put d .holdings address.toNat [value]
  | .writeCoils address values, .done => put d .coils address.toNat values
  | .writeHoldings address values, .done => put d .holdings address.toNat values
  | .readWrite address _ start written, .words values =>
    put (put d .holdings start.toNat written) .holdings address.toNat values
  | _, _ => d

/-- The cells that a request is about. -/
def touched : Request → Set (Table × Nat)
  | .readCoils address count => block .coils address.toNat count.toNat
  | .readDiscretes address count => block .discretes address.toNat count.toNat
  | .readHoldings address count => block .holdings address.toNat count.toNat
  | .readInputs address count => block .inputs address.toNat count.toNat
  | .writeCoil address _ => block .coils address.toNat 1
  | .writeHolding address _ => block .holdings address.toNat 1
  | .writeCoils address values => block .coils address.toNat values.length
  | .writeHoldings address values => block .holdings address.toNat values.length
  | .readWrite address count start values =>
    block .holdings start.toNat values.length ∪ block .holdings address.toNat count.toNat

/-- The cells that a request may have changed although it was refused. -/
def spoilt : Request → Set (Table × Nat)
  | .readWrite _ _ start values => block .holdings start.toNat values.length
  | _ => ∅

/-- The cells that are known after the reply. -/
def knownAfter (known : Set (Table × Nat)) (r : Request) : Reply → Set (Table × Nat)
  | .refused _ => known \ spoilt r
  | _ => known ∪ touched r

section
variable {z : Sizes} {l : Limits} {known : Set (Table × Nat)} {d e : Device}

/-- Copies that agree still do when they note the same. -/
theorem Agree.learn (agree : Agree known d e) (r : Request) (reply : Reply) :
    Agree known (learn d r reply) (learn e r reply) := by
  cases r <;> cases reply <;> first
    | exact agree
    | exact agree.put_same _ _ _
    | exact (agree.put_same _ _ _).put_same _ _ _

/-- The copy that notes the reply agrees with the device that gave it. -/
theorem agree_learn (agree : Agree known d e) (r : Request) :
    Agree (knownAfter known r (r.serve z l e).2) (learn d r (r.serve z l e).2) (r.serve z l e).1 := by
  have refused : ∀ {e' : Device}, Agree known d e' → Agree (known \ ∅) d e' :=
    fun still => still.mono Set.sdiff_subset
  cases r with
  | readCoils address count =>
    simp only [Request.serve]
    cases fault l.readBits z.coils address.toNat count.toNat with
    | none => exact agree.read .coils address.toNat count.toNat
    | some exception => exact refused agree
  | readDiscretes address count =>
    simp only [Request.serve]
    cases fault l.readBits z.discretes address.toNat count.toNat with
    | none => exact agree.read .discretes address.toNat count.toNat
    | some exception => exact refused agree
  | readHoldings address count =>
    simp only [Request.serve]
    cases fault l.readHoldings z.holdings address.toNat count.toNat with
    | none => exact agree.read .holdings address.toNat count.toNat
    | some exception => exact refused agree
  | readInputs address count =>
    simp only [Request.serve]
    cases fault l.readInputs z.inputs address.toNat count.toNat with
    | none => exact agree.read .inputs address.toNat count.toNat
    | some exception => exact refused agree
  | writeCoil address value =>
    simp only [Request.serve, writeCoilsAt, List.length_singleton]
    cases fault 1 z.coils address.toNat 1 with
    | none => exact agree.put .coils address.toNat [value]
    | some exception => exact refused agree
  | writeHolding address value =>
    simp only [Request.serve, writeHoldingsAt, List.length_singleton]
    cases fault 1 z.holdings address.toNat 1 with
    | none => exact agree.put .holdings address.toNat [value]
    | some exception => exact refused agree
  | writeCoils address values =>
    simp only [Request.serve, writeCoilsAt]
    cases fault l.writeCoils z.coils address.toNat values.length with
    | none => exact agree.put .coils address.toNat values
    | some exception => exact refused agree
  | writeHoldings address values =>
    simp only [Request.serve, writeHoldingsAt]
    cases fault l.writeHoldings z.holdings address.toNat values.length with
    | none => exact agree.put .holdings address.toNat values
    | some exception => exact refused agree
  | readWrite address count start values =>
    by_cases valid : 1 ≤ count.toNat ∧ count.toNat ≤ l.readWriteRead
    · cases written : fault l.readWriteWrite z.holdings start.toNat values.length with
      | none =>
        rw [serve_readWrite_written e valid written]
        cases fault l.readWriteRead z.holdings address.toNat count.toNat with
        | none =>
          have both := (agree.put .holdings start.toNat values).read .holdings address.toNat count.toNat
          rw [Set.union_assoc] at both
          exact both
        | some exception => exact agree.change .holdings start.toNat values
      | some exception =>
        rw [serve_readWrite_refused valid written]
        exact agree.mono Set.sdiff_subset
    · rw [serve_readWrite_invalid valid]
      exact agree.mono Set.sdiff_subset

end

/-! ### Requests to all -/

/-- The master notes a request to all when it writes cells that there are. -/
def notedForAll (z : Sizes) : Request → Bool
  | .writeCoil address _ => address.toNat + 1 ≤ z.coils
  | .writeHolding address _ => address.toNat + 1 ≤ z.holdings
  | .writeCoils address values => 1 ≤ values.length ∧ address.toNat + values.length ≤ z.coils
  | .writeHoldings address values => address.toNat + values.length ≤ z.holdings
  | _ => false

def learnForAll (z : Sizes) (d : Device) (r : Request) : Device :=
  if notedForAll z r then learn d r .done else d

def knownForAll (z : Sizes) (known : Set (Table × Nat)) (r : Request) : Set (Table × Nat) :=
  if notedForAll z r then known ∪ touched r else known \ spoilt r

theorem put_nil (d : Device) (t : Table) (start : Nat) : put d t start [] = d := by
  have nothing := put_slice d t start 0
  exact nothing

section
variable {z : Sizes} {l : Limits} {known : Set (Table × Nat)} {d e : Device}

theorem Agree.learnForAll (agree : Agree known d e) (r : Request) :
    Agree known (learnForAll z d r) (learnForAll z e r) := by
  unfold ModbusMirror.learnForAll
  split
  · exact agree.learn r .done
  · exact agree

/-- A run that is written in both or in none, or has no cells. -/
theorem Agree.putIf (agree : Agree known d e) (t : Table) (start : Nat) (values : List t.Value)
    {noted granted : Prop} [Decidable noted] [Decidable granted]
    (same : values ≠ [] → (noted ↔ granted)) :
    Agree (if noted then known ∪ block t start values.length else known \ ∅)
      (if noted then ModbusMirror.put d t start values else d)
      (if granted then ModbusMirror.put e t start values else e) := by
  have still : Agree (known \ ∅) d e := agree.mono Set.sdiff_subset
  by_cases empty : values = []
  · subst empty
    rw [put_nil, put_nil, ite_self, ite_self]
    split
    · exact agree.mono (Set.union_subset (Set.Subset.refl known) (by
        rintro ⟨u, i⟩ ⟨-, low, high⟩
        exact absurd high (Nat.not_lt_of_le low)))
    · exact still
  · by_cases written : granted
    · rw [if_pos written, if_pos ((same empty).mpr written), if_pos ((same empty).mpr written)]
      exact agree.put t start values
    · have not_noted : ¬ noted := fun noted => written ((same empty).mp noted)
      rw [if_neg written, if_neg not_noted, if_neg not_noted]
      exact still

/-- The copy that notes a request to all agrees with the device that served it, where a device
takes requests about all of its cells. -/
theorem agree_learnForAll (coils : z.coils ≤ l.writeCoils) (holdings : z.holdings ≤ l.writeHoldings)
    (agree : Agree known d e) (r : Request) :
    Agree (knownForAll z known r) (learnForAll z d r) (r.serve z l e).1 := by
  have still : Agree (known \ ∅) d e := agree.mono Set.sdiff_subset
  have granted : ∀ {limit size address : Nat} {α : Type} (values : List α), size ≤ limit → values ≠ [] →
      (address + values.length ≤ size ↔ fault limit size address values.length = none) := by
    intro limit size address α values large some
    have positive : 1 ≤ values.length := List.length_pos_iff.mpr some
    rw [fault_eq_none_iff]
    omega
  unfold knownForAll learnForAll
  cases r with
  | readCoils address count => exact still
  | readDiscretes address count => exact still
  | readHoldings address count => exact still
  | readInputs address count => exact still
  | writeCoil address value =>
    simp only [notedForAll, decide_eq_true_eq]
    refine agree.putIf .coils address.toNat [value] fun _ => ?_
    rw [List.length_singleton, fault_eq_none_iff]
    omega
  | writeHolding address value =>
    simp only [notedForAll, decide_eq_true_eq]
    refine agree.putIf .holdings address.toNat [value] fun _ => ?_
    rw [List.length_singleton, fault_eq_none_iff]
    omega
  | writeCoils address values =>
    simp only [notedForAll, decide_eq_true_eq]
    refine agree.putIf .coils address.toNat values fun some => ?_
    rw [← granted values coils some]
    exact and_iff_right (List.length_pos_iff.mpr some)
  | writeHoldings address values =>
    simp only [notedForAll, decide_eq_true_eq]
    exact agree.putIf .holdings address.toNat values (granted values holdings)
  | readWrite address count start values =>
    simp only [notedForAll, Bool.false_eq_true, if_false, spoilt]
    by_cases valid : 1 ≤ count.toNat ∧ count.toNat ≤ l.readWriteRead
    · cases written : fault l.readWriteWrite z.holdings start.toNat values.length with
      | none =>
        rw [serve_readWrite_written e valid written]
        exact agree.change .holdings start.toNat values
      | some exception =>
        rw [serve_readWrite_refused valid written]
        exact agree.mono Set.sdiff_subset
    · rw [serve_readWrite_invalid valid]
      exact agree.mono Set.sdiff_subset

end

/-! ### A network -/

/-- The devices by their addresses, and the copies that the master has of them. -/
structure Network where
  devices : BitVec 8 → Device
  copies : BitVec 8 → Device

/-- How an exchange ends for the master. -/
inductive Ending where
  | done | refused | silent
  deriving DecidableEq, Repr

def endingOf : Reply → Ending
  | .refused _ => .refused
  | _ => .done

/-- What the master reports of a request to all. -/
def endingForAll (z : Sizes) (r : Request) : Ending :=
  match r with
  | .writeCoil _ _ | .writeHolding _ _ | .writeCoils _ _ | .writeHoldings _ _ =>
    if notedForAll z r then .done else .refused
  | _ => .done

theorem endingForAll_cases (z : Sizes) (r : Request) :
    endingForAll z r = .done ∨ endingForAll z r = .refused := by
  unfold endingForAll
  split
  all_goals first | exact Or.inl rfl | (split <;> simp)

theorem endingOf_granted {reply : Reply} (granted : ∀ x, reply ≠ .refused x) : endingOf reply = .done := by
  cases reply with
  | refused x => exact absurd rfl (granted x)
  | _ => rfl

/-- A refusal tells nothing. -/
theorem learn_refused (d : Device) (r : Request) (x : BitVec 8) : learn d r (.refused x) = d := by
  cases r <;> rfl

/-- What is reported as refused is not noted. -/
theorem learnForAll_refused {z : Sizes} (d : Device) {r : Request} (refused : endingForAll z r ≠ .done) :
    learnForAll z d r = d := by
  unfold learnForAll
  by_cases noted : notedForAll z r = true
  · exact absurd (by cases r <;> simp only [endingForAll, noted, if_true]) refused
  · exact if_neg noted

/-- The devices have the sizes `z` and the limits `l`, the master has copies of those with the
addresses from 1 to `stations`, and `present` are the addresses of the devices. -/
structure Layout where
  z : Sizes
  l : Limits
  stations : Nat
  present : BitVec 8 → Bool

def Layout.Copied (w : Layout) (a : BitVec 8) : Prop := 1 ≤ a.toNat ∧ a.toNat ≤ w.stations

instance (w : Layout) (a : BitVec 8) : Decidable (w.Copied a) := inferInstanceAs (Decidable (_ ∧ _))

/-- A request to all. -/
def Network.tell (w : Layout) (n : Network) (r : Request) : Network where
  devices a := (r.serve w.z w.l (n.devices a)).1
  copies a := if w.Copied a then learnForAll w.z (n.copies a) r else n.copies a

/-- A request to one device and its reply. -/
def Network.ask (w : Layout) (n : Network) (a : BitVec 8) (r : Request) : Network where
  devices := Function.update n.devices a (r.serve w.z w.l (n.devices a)).1
  copies := Function.update n.copies a (learn (n.copies a) r (r.serve w.z w.l (n.devices a)).2)

/-- An exchange; address 0 stands for all devices. -/
def Network.exchange (w : Layout) (n : Network) (a : BitVec 8) (r : Request) : Ending × Network :=
  if a = 0 then (endingForAll w.z r, n.tell w r)
  else if w.present a then (endingOf (r.serve w.z w.l (n.devices a)).2, n.ask w a r)
  else (.silent, n)

section
variable {w : Layout} (n : Network) {a : BitVec 8} (r : Request)

theorem Network.exchange_all (all : a = 0) : n.exchange w a r = (endingForAll w.z r, n.tell w r) := if_pos all

theorem Network.exchange_present (one : a ≠ 0) (there : w.present a) :
    n.exchange w a r = (endingOf (r.serve w.z w.l (n.devices a)).2, n.ask w a r) := by
  rw [exchange, if_neg one, if_pos there]

theorem Network.exchange_absent (one : a ≠ 0) (absent : ¬ w.present a) : n.exchange w a r = (.silent, n) := by
  rw [exchange, if_neg one, if_neg absent]

end

/-- The cells of each device in which the copy agrees with it after an exchange. -/
def Network.knownNext (w : Layout) (n : Network) (known : BitVec 8 → Set (Table × Nat)) (a : BitVec 8)
    (r : Request) : BitVec 8 → Set (Table × Nat) :=
  if a = 0 then fun b => knownForAll w.z (known b) r
  else if w.present a then
    Function.update known a (knownAfter (known a) r (r.serve w.z w.l (n.devices a)).2)
  else known

/-- The copies agree with the devices in the cells that are known. -/
def Network.Agrees (w : Layout) (n : Network) (known : BitVec 8 → Set (Table × Nat)) : Prop :=
  ∀ a, w.Copied a → w.present a → Agree (known a) (n.copies a) (n.devices a)

theorem Network.Agrees.exchange {w : Layout} (coils : w.z.coils ≤ w.l.writeCoils)
    (holdings : w.z.holdings ≤ w.l.writeHoldings) {n : Network} {known : BitVec 8 → Set (Table × Nat)}
    (agrees : n.Agrees w known) (a : BitVec 8) (r : Request) :
    (n.exchange w a r).2.Agrees w (n.knownNext w known a r) := by
  intro b copied present
  have before := agrees b copied present
  unfold Network.exchange Network.knownNext
  by_cases all : a = 0
  · rw [if_pos all, if_pos all]
    simp only [Network.tell, if_pos copied]
    exact agree_learnForAll coils holdings before r
  · rw [if_neg all, if_neg all]
    by_cases there : w.present a
    · rw [if_pos there, if_pos there]
      simp only [Network.ask]
      by_cases same : b = a
      · subst same
        rw [Function.update_self, Function.update_self, Function.update_self]
        exact agree_learn before r
      · rw [Function.update_of_ne same, Function.update_of_ne same, Function.update_of_ne same]
        exact before
    · rw [if_neg there, if_neg there]
      exact before

/-! ### Sessions -/

/-- One exchange after another, and how they end. -/
def Network.session (w : Layout) : Network → List (BitVec 8 × Request) → List Ending × Network
  | n, [] => ([], n)
  | n, (a, r) :: rest =>
    let first := n.exchange w a r
    let later := Network.session w first.2 rest
    (first.1 :: later.1, later.2)

/-- What is known when they are over. -/
def Network.knownAlong (w : Layout) : Network → (BitVec 8 → Set (Table × Nat)) →
    List (BitVec 8 × Request) → BitVec 8 → Set (Table × Nat)
  | _, known, [] => known
  | n, known, (a, r) :: rest =>
    Network.knownAlong w (n.exchange w a r).2 (n.knownNext w known a r) rest

theorem Network.agrees_session {w : Layout} (coils : w.z.coils ≤ w.l.writeCoils)
    (holdings : w.z.holdings ≤ w.l.writeHoldings) {n : Network} {known : BitVec 8 → Set (Table × Nat)}
    (agrees : n.Agrees w known) (exchanges : List (BitVec 8 × Request)) :
    (n.session w exchanges).2.Agrees w (n.knownAlong w known exchanges) := by
  induction exchanges generalizing n known with
  | nil => exact agrees
  | cons first rest ih => exact ih (agrees.exchange coils holdings first.1 first.2)

end GasSub.Library.ModbusMirror
