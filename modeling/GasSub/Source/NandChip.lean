import GasSub.Source.Sensor

/-!
# The K9F4G08U0B part

The flash chip as the driver sees it, through the command, address and data
ports. It has 4096 blocks of 64 rows of 2112 bytes. A page is read and
programmed through a page register; programming can only clear bits, and erasing
sets the 64 rows of the block that holds the row sent. How a program or an erase
ends is up to the part: after a failure the rows concerned hold anything.
-/
namespace GasSub.Source

def numRows : Nat := 262144
def rowsPerBlock : Nat := 64
def pageFsize : Nat := 2112

inductive Outcome where
  | pass
  | fail (left : Nat → Nat → INT8U)

def Outcome.passes : Outcome → Bool
  | .pass => true
  | .fail _ => false

/-- What the command last sent makes the part expect. -/
inductive ChipMode where
  | idle
  | readSetup
  | reading
  | programSetup
  | columnChange
  | eraseSetup
  | status
  deriving DecidableEq, Repr

structure Chip where
  cells : Nat → Nat → INT8U
  mode : ChipMode
  /-- Address cycles since the command. -/
  cycle : Nat
  column : Nat
  row : Nat
  register : Nat → INT8U
  failed : Bool
  /-- How the next program or erase ends. -/
  verdict : Outcome

/-- The cells after the rows chosen by `affected` were given new contents. -/
def Chip.settle (s : Chip) (affected : Nat → Prop) [DecidablePred affected]
    (result : Nat → Nat → INT8U) : Chip :=
  match s.verdict with
  | .pass =>
    { s with
      cells := fun r => if affected r then result r else s.cells r
      mode := .idle
      failed := false }
  | .fail left =>
    { s with
      cells := fun r => if affected r then left r else s.cells r
      mode := .idle
      failed := true }

/-- A byte on the command port. -/
def Chip.cle (s : Chip) (command : INT8U) : Chip :=
  if command = 0x00 then { s with mode := .readSetup, cycle := 0, column := 0, row := 0 }
  else if command = 0x30 then
    { s with mode := .reading, register := s.cells (s.row % numRows) }
  else if command = 0x80 then
    { s with
      mode := .programSetup
      cycle := 0
      column := 0
      row := 0
      register := fun _ => 0xFF }
  else if command = 0x85 then { s with mode := .columnChange, cycle := 0, column := 0 }
  else if command = 0x10 then
    s.settle (fun r => r = s.row % numRows) fun r c => s.cells r c &&& s.register c
  else if command = 0x60 then { s with mode := .eraseSetup, cycle := 0, row := 0 }
  else if command = 0xD0 then
    s.settle (fun r => r / rowsPerBlock = s.row % numRows / rowsPerBlock) fun _ _ => 0xFF
  else if command = 0x70 then { s with mode := .status }
  else { s with mode := .idle }

/-- A byte on the address port: two column cycles, then three row cycles; an erase
takes the row cycles only. -/
def Chip.ale (s : Chip) (byte : INT8U) : Chip :=
  let cycle := if s.mode = .eraseSetup then s.cycle + 2 else s.cycle
  let next := { s with cycle := s.cycle + 1 }
  if cycle = 0 then { next with column := byte.toNat }
  else if cycle = 1 then { next with column := s.column + 256 * byte.toNat }
  else if s.mode = .columnChange then next
  else if cycle = 2 then { next with row := byte.toNat }
  else if cycle = 3 then { next with row := s.row + 256 * byte.toNat }
  else if cycle = 4 then { next with row := s.row + 65536 * byte.toNat }
  else next

/-- A byte written to the data port goes to the page register. -/
def Chip.write (s : Chip) (byte : INT8U) : Chip :=
  { s with
    register := if s.column < pageFsize then Function.update s.register s.column byte
      else s.register
    column := s.column + 1 }

/-- A byte read from the data port: the status, or the next byte of the page. -/
def Chip.read (s : Chip) : INT8U × Chip :=
  if s.mode = .status then (if s.failed then 0xC1 else 0xC0, s)
  else (s.register s.column, { s with column := s.column + 1 })

/-! ### Programs and erases -/

/-- A program or an erase touches the rows `affected` only; if it passes they hold
`result`. -/
structure Settled (before after : Chip) (affected : Nat → Prop) (result : Nat → Nat → INT8U) :
    Prop where
  status : after.failed = !before.verdict.passes
  frame : ∀ r, ¬ affected r → after.cells r = before.cells r
  done : before.verdict.passes = true → ∀ r, affected r → after.cells r = result r

theorem settle_settled (s : Chip) (affected : Nat → Prop) [DecidablePred affected]
    (result : Nat → Nat → INT8U) : Settled s (s.settle affected result) affected result := by
  unfold Chip.settle
  cases ends : s.verdict with
  | pass =>
    refine ⟨by rw [ends]; rfl, fun r outside => ?_, fun _ r inside => ?_⟩
    · exact if_neg outside
    · exact if_pos inside
  | fail left =>
    refine ⟨by rw [ends]; rfl, fun r outside => ?_, fun passes => ?_⟩
    · exact if_neg outside
    · rw [ends] at passes
      cases passes

theorem cle_program (s : Chip) :
    Settled s (s.cle 0x10) (fun r => r = s.row % numRows) fun r c => s.cells r c &&& s.register c :=
  settle_settled s _ _

theorem cle_erase (s : Chip) :
    Settled s (s.cle 0xD0) (fun r => r / rowsPerBlock = s.row % numRows / rowsPerBlock)
      fun _ _ => 0xFF :=
  settle_settled s _ _

/-! ### Address cycles -/

/-- Five cycles latch the column and the row of a page access. -/
theorem ale_page (s : Chip) (expects : s.mode = .readSetup ∨ s.mode = .programSetup)
    (start : s.cycle = 0) (c₀ c₁ r₀ r₁ r₂ : INT8U) :
    ((((s.ale c₀).ale c₁).ale r₀).ale r₁).ale r₂ =
      { s with
        cycle := 5
        column := c₀.toNat + 256 * c₁.toNat
        row := r₀.toNat + 256 * r₁.toNat + 65536 * r₂.toNat } := by
  obtain ⟨cells, mode, cycle, column, row, register, failed, verdict⟩ := s
  simp only at expects start
  subst start
  cases expects with
  | inl read =>
    subst read
    simp [Chip.ale]
  | inr program =>
    subst program
    simp [Chip.ale]

/-- Three cycles latch the row of an erase. -/
theorem ale_erase (s : Chip) (expects : s.mode = .eraseSetup) (start : s.cycle = 0)
    (r₀ r₁ r₂ : INT8U) :
    ((s.ale r₀).ale r₁).ale r₂ =
      { s with
        cycle := 3
        row := r₀.toNat + 256 * r₁.toNat + 65536 * r₂.toNat } := by
  obtain ⟨cells, mode, cycle, column, row, register, failed, verdict⟩ := s
  simp only at expects start
  subst start expects
  simp [Chip.ale]

/-! ### Runs of data bytes -/

theorem foldl_write (bytes : List INT8U) (s : Chip) (fits : s.column + bytes.length ≤ pageFsize) :
    bytes.foldl Chip.write s =
      { s with
        register := fun c =>
          if s.column ≤ c then (bytes[c - s.column]?).getD (s.register c) else s.register c
        column := s.column + bytes.length } := by
  induction bytes generalizing s with
  | nil => simp
  | cons byte rest ih =>
    simp only [List.length_cons] at fits
    have inside : s.column < pageFsize := by omega
    rw [List.foldl_cons, ih (s.write byte) (by simp only [Chip.write]; omega)]
    simp only [Chip.write, if_pos inside, List.length_cons, Chip.mk.injEq, true_and, and_true]
    refine ⟨by omega, funext fun c => ?_⟩
    rcases Nat.lt_trichotomy c s.column with before | here | later
    · rw [if_neg (by omega), if_neg (by omega), Function.update_of_ne (by omega)]
    · subst here
      rw [if_neg (by omega), if_pos (Nat.le_refl _), Function.update_self]
      simp
    · have offset : c - s.column = c - (s.column + 1) + 1 := by omega
      rw [if_pos (by omega), if_pos (by omega), offset, List.getElem?_cons_succ,
        Function.update_of_ne (by omega)]

/-- `count` bytes read one after another. -/
def Chip.readBytes (s : Chip) : Nat → List INT8U × Chip
  | 0 => ([], s)
  | count + 1 =>
    let first := s.read
    let rest := Chip.readBytes first.2 count
    (first.1 :: rest.1, rest.2)

/-- The first of the values of a loop and the values after it. -/
theorem map_range_succ {α : Type} (value : Nat → α) (count : Nat) :
    (List.range (count + 1)).map value =
      value 0 :: (List.range count).map fun i => value (i + 1) := by
  rw [List.range_succ_eq_map, List.map_cons, List.map_map]
  rfl

theorem readBytes_eq (count : Nat) (s : Chip) (data : s.mode ≠ .status) :
    s.readBytes count =
      ((List.range count).map fun i => s.register (s.column + i),
        { s with column := s.column + count }) := by
  induction count generalizing s with
  | zero => simp [Chip.readBytes]
  | succ count ih =>
    have first : s.read = (s.register s.column, { s with column := s.column + 1 }) := if_neg data
    simp only [Chip.readBytes, first]
    rw [ih { s with column := s.column + 1 } data, map_range_succ]
    simp only [Nat.add_zero, Nat.add_assoc, Nat.add_comm 1]

end GasSub.Source
