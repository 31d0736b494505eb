import GasSub.Library.BitArray

/-!
# The application protocol of Modbus

Four tables of numbered cells, requests that read and write them, and the replies. A
request and its reply are protocol data units: the function code, then the fields, words
with their high byte first and bits packed eight to a byte. A device has tables of some
sizes and accepts up to some number of cells in one request.
-/
namespace GasSub.Library.ModbusProtocol
open GasSub.Library.BitArray GasSub.Library.ByteWord GasSub.Library.Cells

/-- The tables. -/
structure Device where
  discretes : Nat → Bool
  coils : Nat → Bool
  inputs : Nat → BitVec 16
  holdings : Nat → BitVec 16

/-- How many cells the tables have. -/
structure Sizes where
  discretes : Nat
  coils : Nat
  inputs : Nat
  holdings : Nat

/-- How many cells a request may be about. -/
structure Limits where
  readBits : Nat
  readHoldings : Nat
  readInputs : Nat
  writeCoils : Nat
  writeHoldings : Nat
  readWriteRead : Nat
  readWriteWrite : Nat

inductive Request where
  | readCoils (address count : BitVec 16)
  | readDiscretes (address count : BitVec 16)
  | readHoldings (address count : BitVec 16)
  | readInputs (address count : BitVec 16)
  | writeCoil (address : BitVec 16) (value : Bool)
  | writeHolding (address value : BitVec 16)
  | writeCoils (address : BitVec 16) (values : List Bool)
  | writeHoldings (address : BitVec 16) (values : List (BitVec 16))
  | readWrite (address count start : BitVec 16) (values : List (BitVec 16))
  deriving DecidableEq, Repr

inductive Reply where
  | bits (values : List Bool)
  | words (values : List (BitVec 16))
  | done
  | refused (exception : BitVec 8)
  deriving DecidableEq, Repr

/-! ### Data units -/

def Request.code : Request → BitVec 8
  | .readCoils _ _ => 1
  | .readDiscretes _ _ => 2
  | .readHoldings _ _ => 3
  | .readInputs _ _ => 4
  | .writeCoil _ _ => 5
  | .writeHolding _ _ => 6
  | .writeCoils _ _ => 15
  | .writeHoldings _ _ => 16
  | .readWrite _ _ _ _ => 23

/-- Values behind the number of their bytes. -/
def counted (bytes : List (BitVec 8)) : List (BitVec 8) := BitVec.ofNat 8 bytes.length :: bytes

/-- What follows the function code. -/
def Request.fields : Request → List (BitVec 8)
  | .readCoils address count => bigEndian address ++ bigEndian count
  | .readDiscretes address count => bigEndian address ++ bigEndian count
  | .readHoldings address count => bigEndian address ++ bigEndian count
  | .readInputs address count => bigEndian address ++ bigEndian count
  | .writeCoil address value => bigEndian address ++ bigEndian (if value then 0xFF00 else 0x0000)
  | .writeHolding address value => bigEndian address ++ bigEndian value
  | .writeCoils address values =>
    bigEndian address ++ bigEndian (BitVec.ofNat 16 values.length) ++ counted (packBits values)
  | .writeHoldings address values =>
    bigEndian address ++ bigEndian (BitVec.ofNat 16 values.length) ++
      counted (values.flatMap bigEndian)
  | .readWrite address count start values =>
    bigEndian address ++ bigEndian count ++ bigEndian start ++
      bigEndian (BitVec.ofNat 16 values.length) ++ counted (values.flatMap bigEndian)

def Request.pdu (r : Request) : List (BitVec 8) := r.code :: r.fields

/-- The reply to a request; what was written is confirmed with the head of the request. -/
def Reply.pdu (r : Request) : Reply → List (BitVec 8)
  | .bits values => r.code :: counted (packBits values)
  | .words values => r.code :: counted (values.flatMap bigEndian)
  | .done => r.pdu.take 5
  | .refused exception => [r.code ||| 0x80, exception]

/-- A reply that is no refusal starts with the function code. -/
theorem pdu_granted (r : Request) {reply : Reply} (granted : ∀ x, reply ≠ .refused x) :
    ∃ rest, reply.pdu r = r.code :: rest := by
  cases reply with
  | bits values => exact ⟨_, rfl⟩
  | words values => exact ⟨_, rfl⟩
  | done => exact ⟨r.fields.take 4, rfl⟩
  | refused x => exact absurd rfl (granted x)

theorem length_writeCoils (address : BitVec 16) (values : List Bool) :
    (Request.writeCoils address values).pdu.length = 6 + (values.length + 7) / 8 := by
  simp only [Request.pdu, Request.fields, counted, bigEndian, List.length_cons, List.length_append,
    List.length_nil, length_packBits]
  omega

theorem length_writeHoldings (address : BitVec 16) (values : List (BitVec 16)) :
    (Request.writeHoldings address values).pdu.length = 6 + 2 * values.length := by
  simp only [Request.pdu, Request.fields, counted, bigEndian, List.length_cons, List.length_append,
    List.length_nil, length_flatMap_bigEndian]
  omega

theorem length_readWrite (address count start : BitVec 16) (values : List (BitVec 16)) :
    (Request.readWrite address count start values).pdu.length = 10 + 2 * values.length := by
  simp only [Request.pdu, Request.fields, counted, bigEndian, List.length_cons, List.length_append,
    List.length_nil, length_flatMap_bigEndian]
  omega

/-! ### Serving -/

def illegalDataAddress : BitVec 8 := 2
def illegalDataValue : BitVec 8 := 3

/-- Why a request about `count` cells from `address` on is refused. -/
def fault (limit size address count : Nat) : Option (BitVec 8) :=
  if ¬ (1 ≤ count ∧ count ≤ limit) then some illegalDataValue
  else if address + count ≤ size then none
  else some illegalDataAddress

/-- The reply unless there is a fault. -/
def granted (e : Option (BitVec 8)) (reply : Reply) : Reply :=
  match e with
  | none => reply
  | some exception => .refused exception

/-- The reply with data, or the exception. -/
def answer (code : BitVec 8) (e : Option (BitVec 8)) (payload : List (BitVec 8)) : List (BitVec 8) :=
  match e with
  | none => code :: counted payload
  | some exception => [code ||| 0x80, exception]

theorem pdu_granted_bits (r : Request) (e : Option (BitVec 8)) (values : List Bool) :
    (granted e (.bits values)).pdu r = answer r.code e (packBits values) := by
  cases e <;> rfl

theorem pdu_granted_words (r : Request) (e : Option (BitVec 8)) (values : List (BitVec 16)) :
    (granted e (.words values)).pdu r = answer r.code e (values.flatMap bigEndian) := by
  cases e <;> rfl

theorem fault_eq_none_iff (limit size address count : Nat) :
    fault limit size address count = none ↔
      (1 ≤ count ∧ count ≤ limit) ∧ address + count ≤ size := by
  unfold fault
  by_cases valid : 1 ≤ count ∧ count ≤ limit
  · rw [if_neg (not_not_intro valid)]
    by_cases inside : address + count ≤ size
    · simp [valid, inside]
    · simp [valid, inside]
  · simp [valid]

theorem fault_invalid {limit size address count : Nat} (invalid : ¬ (1 ≤ count ∧ count ≤ limit)) :
    fault limit size address count = some illegalDataValue := if_pos invalid

theorem fault_outside {limit size address count : Nat} (valid : 1 ≤ count ∧ count ≤ limit)
    (outside : ¬ address + count ≤ size) :
    fault limit size address count = some illegalDataAddress := by
  rw [fault, if_neg (not_not_intro valid), if_neg outside]

section
variable (z : Sizes) (l : Limits) (d : Device)

/-- What a write leaves. -/
def writeCoilsAt (address : Nat) (values : List Bool) (limit : Nat) : Device :=
  if fault limit z.coils address values.length = none then
    { d with coils := replace d.coils address values }
  else d

def writeHoldingsAt (address : Nat) (values : List (BitVec 16)) (limit : Nat) : Device :=
  if fault limit z.holdings address values.length = none then
    { d with holdings := replace d.holdings address values }
  else d

/-- The counts are checked first; then the registers are written, and those written are read. -/
def readWriteAt (address count start : Nat) (values : List (BitVec 16)) : Device × Reply :=
  if 1 ≤ count ∧ count ≤ l.readWriteRead then
    let written := writeHoldingsAt z d start values l.readWriteWrite
    (written, granted (fault l.readWriteWrite z.holdings start values.length)
      (granted (fault l.readWriteRead z.holdings address count)
        (.words (slice written.holdings address count))))
  else (d, .refused illegalDataValue)

/-- What a device does with a request. -/
def Request.serve : Request → Device × Reply
  | .readCoils address count =>
    (d, granted (fault l.readBits z.coils address.toNat count.toNat)
      (.bits (slice d.coils address.toNat count.toNat)))
  | .readDiscretes address count =>
    (d, granted (fault l.readBits z.discretes address.toNat count.toNat)
      (.bits (slice d.discretes address.toNat count.toNat)))
  | .readHoldings address count =>
    (d, granted (fault l.readHoldings z.holdings address.toNat count.toNat)
      (.words (slice d.holdings address.toNat count.toNat)))
  | .readInputs address count =>
    (d, granted (fault l.readInputs z.inputs address.toNat count.toNat)
      (.words (slice d.inputs address.toNat count.toNat)))
  | .writeCoil address value =>
    (writeCoilsAt z d address.toNat [value] 1, granted (fault 1 z.coils address.toNat 1) .done)
  | .writeHolding address value =>
    (writeHoldingsAt z d address.toNat [value] 1, granted (fault 1 z.holdings address.toNat 1) .done)
  | .writeCoils address values =>
    (writeCoilsAt z d address.toNat values l.writeCoils,
      granted (fault l.writeCoils z.coils address.toNat values.length) .done)
  | .writeHoldings address values =>
    (writeHoldingsAt z d address.toNat values l.writeHoldings,
      granted (fault l.writeHoldings z.holdings address.toNat values.length) .done)
  | .readWrite address count start values =>
    readWriteAt z l d address.toNat count.toNat start.toNat values

theorem granted_refused {e : Option (BitVec 8)} {reply : Reply} {x : BitVec 8}
    (refused : granted e reply = .refused x) : e = some x ∨ reply = .refused x := by
  cases e with
  | none => exact Or.inr refused
  | some exception => exact Or.inl (congrArg some (Reply.refused.inj refused))

theorem fault_ne_zero {limit size address count : Nat} {x : BitVec 8}
    (faulty : fault limit size address count = some x) : x ≠ 0 := by
  unfold fault at faulty
  split at faulty
  · obtain rfl := Option.some.inj faulty
    decide
  · split at faulty
    · cases faulty
    · obtain rfl := Option.some.inj faulty
      decide

/-- A device refuses with an exception that says so. -/
theorem serve_refused (r : Request) {x : BitVec 8} (refused : (r.serve z l d).2 = .refused x) : x ≠ 0 := by
  have one : ∀ {limit size address count : Nat} {reply : Reply}, reply ≠ .refused x →
      granted (fault limit size address count) reply = .refused x → x ≠ 0 :=
    fun other refused => fault_ne_zero ((granted_refused refused).resolve_right other)
  cases r with
  | readWrite address count start values =>
    simp only [Request.serve, readWriteAt] at refused
    split at refused
    · rcases granted_refused refused with written | read
      · exact fault_ne_zero written
      · exact one Reply.noConfusion read
    · obtain rfl := Reply.refused.inj refused
      decide
  | _ => exact one Reply.noConfusion refused

/-! ### Reading and writing in one request -/

variable {z l d} {address count start : BitVec 16} {values : List (BitVec 16)}

theorem serve_readWrite_invalid (invalid : ¬ (1 ≤ count.toNat ∧ count.toNat ≤ l.readWriteRead)) :
    (Request.readWrite address count start values).serve z l d = (d, .refused illegalDataValue) :=
  if_neg invalid

theorem serve_readWrite_refused {e : BitVec 8} (valid : 1 ≤ count.toNat ∧ count.toNat ≤ l.readWriteRead)
    (refused : fault l.readWriteWrite z.holdings start.toNat values.length = some e) :
    (Request.readWrite address count start values).serve z l d = (d, .refused e) := by
  rw [Request.serve, readWriteAt, if_pos valid, writeHoldingsAt, refused,
    if_neg (Option.some_ne_none e)]
  rfl

theorem serve_readWrite_written (d : Device) (valid : 1 ≤ count.toNat ∧ count.toNat ≤ l.readWriteRead)
    (written : fault l.readWriteWrite z.holdings start.toNat values.length = none) :
    (Request.readWrite address count start values).serve z l d =
      ({ d with holdings := replace d.holdings start.toNat values },
        granted (fault l.readWriteRead z.holdings address.toNat count.toNat)
          (.words (slice (replace d.holdings start.toNat values) address.toNat count.toNat))) := by
  rw [Request.serve, readWriteAt, if_pos valid, writeHoldingsAt, written, if_pos rfl]
  rfl

end

end GasSub.Library.ModbusProtocol
