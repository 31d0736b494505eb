import GasSub.Library.ByteWord
import GasSub.Source.FtpHandlers

/-!
# The PORT command

`port_handler` counts five commas and leaves the rest to `sscanf`, which looks at
the last two numbers only and takes any value, a sign and blanks. The first four
are copied as they stand into sixteen bytes.
-/
namespace GasSub.Guarantees.PortCommand
open GasSub.Library.ByteWord GasSub.Library.CharArray GasSub.Library.Decimal GasSub.Source
  GasSub.Source.Hvsftpd

def comma : INT8U := 0x2C

/-! ### What the handler makes of the commas -/

/-- What stands for the comma number `n`. -/
def separator (n : Nat) : INT8U := if n = 4 then 0 else if n < 4 then 0x2E else 0x20

/-- Fields behind `k` commas, with what stands for the commas between them. -/
def joinFields (k : Nat) : List Text → Text
  | [] => []
  | [field] => field
  | field :: next :: rest => field ++ separator (k + 1) :: joinFields (k + 1) (next :: rest)

theorem joinFields_modifyHead (k : Nat) (c : INT8U) {fields : List Text} (some : fields ≠ []) :
    joinFields k (fields.modifyHead (c :: ·)) = c :: joinFields k fields := by
  cases fields with
  | nil => exact absurd rfl some
  | cons field rest => cases rest <;> rfl

theorem formatPort_eq (k : Nat) (param : Text) :
    formatPort k param =
      (joinFields k (param.splitOn comma), k + ((param.splitOn comma).length - 1)) := by
  induction param generalizing k with
  | nil => rfl
  | cons c rest ih =>
    have fields := List.splitOn_ne_nil comma rest
    rw [List.splitOn_cons_eq_if_modifyHead]
    by_cases here : c = comma
    · subst here
      rw [if_pos (by decide), formatPort, if_pos (show comma = 0x2C from rfl), ih (k + 1)]
      cases split : rest.splitOn comma with
      | nil => exact absurd split fields
      | cons field later =>
        simp only [joinFields, separator, List.length_cons, List.nil_append]
        congr 1
        omega
    · rw [if_neg (by simpa using here), formatPort, if_neg (show ¬c = 0x2C from here), ih k,
        joinFields_modifyHead k c fields, List.length_modifyHead]

/-- A field has the bytes of the parameter. -/
theorem mem_of_mem_field {param field : Text} {c : INT8U} (inside : field ∈ param.splitOn comma)
    (member : c ∈ field) : c ∈ param := by
  induction param generalizing field with
  | nil =>
    rw [List.splitOn_nil, List.mem_singleton] at inside
    exact inside ▸ member
  | cons first rest ih =>
    have fields := List.splitOn_ne_nil comma rest
    rw [List.splitOn_cons_eq_if_modifyHead] at inside
    split at inside
    · rcases List.mem_cons.mp inside with rfl | later
      · cases member
      · exact List.mem_cons_of_mem _ (ih later member)
    · cases split : rest.splitOn comma with
      | nil => exact absurd split fields
      | cons head tail =>
        rw [split, List.modifyHead_cons] at inside
        rw [split] at ih
        rcases List.mem_cons.mp inside with rfl | later
        · rcases List.mem_cons.mp member with rfl | deeper
          · exact List.mem_cons_self
          · exact List.mem_cons_of_mem _ (ih List.mem_cons_self deeper)
        · exact List.mem_cons_of_mem _ (ih (List.mem_cons_of_mem _ later) member)

/-! ### What PORT is to do -/

/-- A decimal number from 0 to 255. -/
def IsByteNumber (text : Text) : Prop :=
  text ≠ [] ∧ (∀ b ∈ text, isDigit b = true) ∧ digitsValue text ≤ 255

/-- Six decimal numbers from 0 to 255, separated by five commas. -/
def SixNumbers (param : Text) : Prop :=
  (param.splitOn comma).length = 6 ∧ ∀ field ∈ param.splitOn comma, IsByteNumber field

def portField (param : Text) (i : Nat) : Text := (param.splitOn comma).getD i []

/-- The first four numbers with dots between them. -/
def dottedQuad (param : Text) : Text :=
  portField param 0 ++ 0x2E :: portField param 1 ++ 0x2E :: portField param 2 ++
    0x2E :: portField param 3

/-- What `sscanf` is given: the last two fields with a blank for the comma between. -/
def portText (param : Text) : Text := portField param 4 ++ 0x20 :: portField param 5

variable {φ : Type}

/-- Six numbers are replied to with 200 and stored, the address with its NUL and the
port as its two bytes; anything else is replied to with 501 and changes neither. -/
structure ParsesPort (m : Machine φ) (param : Text) (out : Machine φ) : Prop where
  accepted : SixNumbers param →
    out.replies = m.replies ++ [.response "200 Port command successful."] ∧
      out.session.addr.length = 16 ∧ Holds 0 out.session.addr (dottedQuad param) ∧
      out.session.port.toNat =
        256 * digitsValue (portField param 4) + digitsValue (portField param 5)
  rejected : ¬ SixNumbers param →
    out.replies = m.replies ++ [.response "501 Invalid PORT command."] ∧
      out.session.addr = m.session.addr ∧ out.session.port = m.session.port

/-! ### What the handler does -/

theorem portField_mem {param : Text} {i : Nat} (inside : i < (param.splitOn comma).length) :
    portField param i ∈ param.splitOn comma := by
  rw [portField, List.getD_eq_getElem?_getD, List.getElem?_eq_getElem inside, Option.getD_some]
  exact List.getElem_mem inside

theorem SixNumbers.field {param : Text} (numbers : SixNumbers param) {i : Nat} (inside : i < 6) :
    IsByteNumber (portField param i) :=
  numbers.2 _ (portField_mem (numbers.1.symm ▸ inside))

theorem dottedQuad_free {param : Text} (free : 0 ∉ param)
    (six : (param.splitOn comma).length = 6) : 0 ∉ dottedQuad param := by
  have clean : ∀ i < 6, 0 ∉ portField param i := fun i inside member =>
    free (mem_of_mem_field (portField_mem (six.symm ▸ inside)) member)
  simpa [dottedQuad] using ⟨clean 0 (by decide), clean 1 (by decide), clean 2 (by decide),
    clean 3 (by decide)⟩

/-- Without five commas the command is refused. -/
theorem portHandler_fields (m : Machine φ) {param : Text}
    (other : (param.splitOn comma).length ≠ 6) :
    portHandler m param = (sessionResponse m "501 Invalid PORT command.", .ok) := by
  have fields := List.length_pos_of_ne_nil (List.splitOn_ne_nil comma param)
  have count : ¬ 0 + ((param.splitOn comma).length - 1) = 5 := by omega
  simp only [portHandler, formatPort_eq, count, if_false]

/-- With five commas only the last two fields decide. -/
theorem portHandler_six (m : Machine φ) {param : Text} (free : 0 ∉ param)
    (six : (param.splitOn comma).length = 6) :
    portHandler m param =
      match scanPort (portText param) with
      | some (p1, p2) =>
        (sessionResponse
          { m with session := { m.session with
              addr := (dottedQuad param).take 16 ++ List.replicate (16 - (dottedQuad param).length) 0
              port := join16 p1 p2 } }
          "200 Port command successful.", .ok)
      | none => (sessionResponse m "501 Invalid PORT command.", .ok) := by
  have quad : 0 ∉ dottedQuad param := dottedQuad_free free six
  have formatted : (joinFields 0 (param.splitOn comma)) = dottedQuad param ++ 0 :: portText param := by
    match split : param.splitOn comma, six with
    | [f0, f1, f2, f3, f4, f5], _ =>
      simp [joinFields, separator, dottedQuad, portText, portField, split]
  have address : cString (dottedQuad param ++ 0 :: portText param) = dottedQuad param :=
    cString_append_nul quad _
  have visible : ∀ b ∈ dottedQuad param, decide (b ≠ 0) = true :=
    fun b member => decide_eq_true fun same => quad (same ▸ member)
  have behind : (dottedQuad param ++ 0 :: portText param).dropWhile (· ≠ 0) = 0 :: portText param := by
    rw [List.dropWhile_append_of_pos visible, List.dropWhile_cons_of_neg (by decide)]
  have count : 0 + ((param.splitOn comma).length - 1) = 5 := by omega
  simp only [portHandler, formatPort_eq, count, if_true, formatted, address, behind, List.drop_one,
    List.tail_cons]
  rfl

/-- Six numbers are scanned as they are. -/
theorem scanPort_numbers {param : Text} (numbers : SixNumbers param) :
    scanPort (portText param) =
      some (BitVec.ofNat 8 (digitsValue (portField param 4)),
        BitVec.ofNat 8 (digitsValue (portField param 5))) := by
  obtain ⟨some4, digits4, -⟩ := numbers.field (i := 4) (by decide)
  obtain ⟨some5, digits5, -⟩ := numbers.field (i := 5) (by decide)
  have blank : Stops (0x20 :: portField param 5) := by
    intro b first
    cases first
    rfl
  have stops : Stops [] := fun b first => by cases first
  have last := scanInt_digits digits5 some5 stops
  rw [List.append_nil] at last
  rw [scanPort, portText, scanInt_digits digits4 some4 blank, Option.bind_some, scanInt_blank, last,
    Option.map_some]
  simp only [BitVec.ofInt_natCast]

/-! ### When it does what it is to do -/

/-- Either six numbers whose first four, as they are written, take at most fifteen
characters with their dots; or no six numbers, and, if there are five commas, no two
numbers for `sscanf` behind the fourth one. -/
def ReadRight (param : Text) : Prop :=
  (SixNumbers param ∧ (dottedQuad param).length ≤ 15) ∨
    (¬ SixNumbers param ∧
      ((param.splitOn comma).length = 6 → scanPort (portText param) = none))

/-- A text in sixteen bytes as `strncpy` leaves it has its NUL if it is short. -/
theorem holds_addr_iff {text : Text} (free : 0 ∉ text) :
    Holds 0 (text.take 16 ++ List.replicate (16 - text.length) 0) text ↔ text.length ≤ 15 := by
  constructor
  · intro holds
    have inside := holds.length_lt
    rw [List.length_append, List.length_take, List.length_replicate] at inside
    omega
  · intro short
    have more : 16 - text.length = (15 - text.length) + 1 := by omega
    refine ⟨free, List.replicate (15 - text.length) 0, ?_⟩
    rw [List.take_of_length_le (by omega), more, List.replicate_succ]

theorem refused_parses (m : Machine φ) {param : Text} (other : ¬ SixNumbers param) :
    ParsesPort m param (sessionResponse m "501 Invalid PORT command.") :=
  ⟨fun numbers => absurd numbers other, fun _ => ⟨rfl, rfl, rfl⟩⟩

/-- For six numbers only the room for the address is in question. -/
theorem parses_numbers_iff (m : Machine φ) {param : Text} (free : 0 ∉ param)
    (numbers : SixNumbers param) :
    ParsesPort m param (portHandler m param).1 ↔ (dottedQuad param).length ≤ 15 := by
  have quad := dottedQuad_free free numbers.1
  have high := (numbers.field (i := 4) (by decide)).2.2
  have low := (numbers.field (i := 5) (by decide)).2.2
  rw [portHandler_six m free numbers.1, scanPort_numbers numbers, ← holds_addr_iff quad]
  constructor
  · intro parses
    exact (parses.accepted numbers).2.2.1
  · intro holds
    refine ⟨fun _ => ⟨rfl, ?_, holds, ?_⟩, fun other => absurd numbers other⟩
    · simp only [sessionResponse, List.length_append, List.length_take, List.length_replicate]
      omega
    · simp only [sessionResponse, toNat_join16, BitVec.toNat_ofNat]
      omega

/-- `port_handler` parses a parameter exactly when it is read right. -/
theorem portHandler_parses_iff (m : Machine φ) (param : Text) (free : 0 ∉ param) :
    ParsesPort m param (portHandler m param).1 ↔ ReadRight param := by
  by_cases numbers : SixNumbers param
  · rw [parses_numbers_iff m free numbers]
    exact ⟨fun short => Or.inl ⟨numbers, short⟩,
      fun right => right.elim And.right fun other => absurd numbers other.1⟩
  by_cases six : (param.splitOn comma).length = 6
  · rw [portHandler_six m free six]
    cases scanned : scanPort (portText param) with
    | none => exact ⟨fun _ => Or.inr ⟨numbers, fun _ => scanned⟩, fun _ => refused_parses m numbers⟩
    | some ports =>
      constructor
      · intro parses
        have replies := List.append_cancel_left (parses.rejected numbers).1
        exact absurd replies (by decide)
      · rintro (⟨six_numbers, -⟩ | ⟨-, refused⟩)
        · exact absurd six_numbers numbers
        · rw [refused six] at scanned
          cases scanned
  · rw [portHandler_fields m six]
    exact ⟨fun _ => Or.inr ⟨numbers, fun same => absurd same six⟩, fun _ => refused_parses m numbers⟩

/-- A client that has just been accepted. -/
def freshMachine : Machine Unit :=
  { sockList := fun _ => Hfsocket.cleared
    self := 0
    session := Session.accepted 0
    files := ()
    replies := []
    calls := []
    sent := [] }

theorem portHandler_parses_iff_home :
    ParsesPort freshMachine (ascii "192,168,0,1,4,21")
        (portHandler freshMachine (ascii "192,168,0,1,4,21")).1 ↔
      ReadRight (ascii "192,168,0,1,4,21") :=
  portHandler_parses_iff freshMachine (ascii "192,168,0,1,4,21") (by decide)

/-- 256 is taken for a byte of the port, and the port then is another one. -/
theorem portHandler_notParsed :
    ¬ ∀ (m : Machine Unit) (param : Text), 0 ∉ param →
      ParsesPort m param (portHandler m param).1 := by
  intro always
  have parses := always freshMachine (ascii "10,0,0,1,256,21") (by decide)
  have other : ¬ SixNumbers (ascii "10,0,0,1,256,21") := by
    rintro ⟨-, numbers⟩
    have fifth := numbers (ascii "256") (by decide)
    exact absurd fifth.2.2 (by decide)
  have replies := (parses.rejected other).1
  revert replies
  decide

end GasSub.Guarantees.PortCommand
