import Mathlib.Algebra.Order.Ring.Int

/-!
# Decimal text

Writing an integer in decimal and scanning one back, as `%d` does in the two
directions: white space before the number is skipped, a sign is accepted, and
scanning stops at the first byte that is not a digit.
-/
namespace GasSub.Library.Decimal

abbrev Text := List (BitVec 8)

def asciiByte (c : Char) : BitVec 8 := BitVec.ofNat 8 c.toNat

/-- A text written as a string of ASCII characters. -/
def ascii (s : String) : Text := s.toList.map asciiByte

def isDigit (b : BitVec 8) : Bool := 48 ≤ b.toNat && b.toNat ≤ 57

def isSpace (b : BitVec 8) : Bool := b.toNat = 32 || (9 ≤ b.toNat && b.toNat ≤ 13)

def natText (n : Nat) : Text := (Nat.toDigits 10 n).map asciiByte

/-- A natural number with zeros in front of it, up to a width. -/
def paddedText (width n : Nat) : Text := List.replicate (width - (natText n).length) 48 ++ natText n

def intText (i : Int) : Text := if i < 0 then 45 :: natText i.natAbs else natText i.natAbs

/-- Numbers with a blank between them. -/
def intsText : List Int → Text
  | [] => []
  | [i] => intText i
  | i :: rest => intText i ++ 32 :: intsText rest

/-- The value of a run of digits. -/
def digitsValue (digits : Text) : Nat := digits.foldl (fun n b => 10 * n + (b.toNat - 48)) 0

def scanNat (text : Text) : Option (Nat × Text) :=
  if text.takeWhile isDigit = [] then none
  else some (digitsValue (text.takeWhile isDigit), text.dropWhile isDigit)

def scanInt (text : Text) : Option (Int × Text) :=
  match text.dropWhile isSpace with
  | [] => none
  | b :: rest =>
    if b = 45 then (scanNat rest).map fun scanned => (-(scanned.1 : Int), scanned.2)
    else if b = 43 then (scanNat rest).map fun scanned => ((scanned.1 : Int), scanned.2)
    else (scanNat (b :: rest)).map fun scanned => ((scanned.1 : Int), scanned.2)

/-- Scanning a number stops in front of `text`. -/
def Stops (text : Text) : Prop := ∀ b, text.head? = some b → isDigit b = false

/-! ### Written digits -/

theorem asciiByte_digit {c : Char} (digit : c.isDigit = true) :
    (asciiByte c).toNat = c.toNat ∧ isDigit (asciiByte c) = true := by
  have range : 48 ≤ c.toNat ∧ c.toNat ≤ 57 := by
    simpa [Char.isDigit, UInt32.le_iff_toNat_le] using digit
  have value : (asciiByte c).toNat = c.toNat := by
    unfold asciiByte
    rw [BitVec.toNat_ofNat]
    omega
  refine ⟨value, ?_⟩
  unfold isDigit
  rw [value]
  simp [range.1, range.2]

theorem isDigit_of_mem_natText {n : Nat} {b : BitVec 8} (member : b ∈ natText n) :
    isDigit b = true := by
  obtain ⟨c, inside, rfl⟩ := List.mem_map.mp member
  exact (asciiByte_digit (Nat.isDigit_of_mem_toDigits (by decide) (by decide) inside)).2

theorem natText_ne_nil (n : Nat) : natText n ≠ [] := by
  intro empty
  exact Nat.toDigits_ne_nil (List.map_eq_nil_iff.mp empty)

theorem length_natText_le_iff {n k : Nat} (positive : 0 < k) :
    (natText n).length ≤ k ↔ n < 10 ^ k := by
  unfold natText
  rw [List.length_map]
  exact Nat.length_toDigits_le_iff (by decide) positive

theorem length_natText {n k : Nat} (positive : 0 < k) (bound : n < 10 ^ k) :
    (natText n).length ≤ k := (length_natText_le_iff positive).mpr bound

theorem digitsValue_natText (n : Nat) : digitsValue (natText n) = n := by
  have value : ∀ (digits : List Char) (start : Nat), (∀ c ∈ digits, c.isDigit = true) →
      (digits.map asciiByte).foldl (fun n b => 10 * n + (b.toNat - 48)) start =
        Nat.ofDigitChars 10 digits start := by
    intro digits
    induction digits with
    | nil => intro start _; rfl
    | cons c rest ih =>
      intro start digit
      have first := (asciiByte_digit (digit c (List.mem_cons_self ..))).1
      rw [List.map_cons, List.foldl_cons, Nat.ofDigitChars_cons, first]
      exact ih _ fun d member => digit d (List.mem_cons_of_mem c member)
  have digits := value (Nat.toDigits 10 n) 0 fun c member =>
    Nat.isDigit_of_mem_toDigits (by decide) (by decide) member
  exact digits.trans (Nat.ofDigitChars_toDigits (by decide) (by decide))

/-- Leading zeros do not count. -/
theorem digitsValue_zeros (k : Nat) (digits : Text) :
    digitsValue (List.replicate k 48 ++ digits) = digitsValue digits := by
  unfold digitsValue
  rw [List.foldl_append]
  induction k with
  | zero => rfl
  | succ k ih =>
    rw [List.replicate_succ, List.foldl_cons]
    exact ih

theorem isDigit_of_mem_paddedText {width n : Nat} {b : BitVec 8} (member : b ∈ paddedText width n) :
    isDigit b = true := by
  rcases List.mem_append.mp member with zero | digit
  · rw [List.eq_of_mem_replicate zero]
    decide
  · exact isDigit_of_mem_natText digit

theorem length_paddedText {width n : Nat} (positive : 0 < width) (bound : n < 10 ^ width) :
    (paddedText width n).length = width := by
  have short := length_natText positive bound
  rw [paddedText, List.length_append, List.length_replicate]
  omega

/-- The last digit stands behind the number divided by ten. -/
theorem natText_of_ten_le {n : Nat} (large : 10 ≤ n) :
    natText n = natText (n / 10) ++ [asciiByte (Nat.digitChar (n % 10))] := by
  unfold natText
  rw [Nat.toDigits_of_base_le (by decide) large, List.map_append, List.map_singleton]

theorem length_natText_digit {n : Nat} (small : n < 10) : (natText n).length = 1 := by
  unfold natText
  rw [Nat.toDigits_of_lt_base small]
  rfl

/-- A written integer holds no NUL and no line feed. -/
theorem mem_intText {i : Int} {b : BitVec 8} (member : b ∈ intText i) :
    b = 45 ∨ isDigit b = true := by
  unfold intText at member
  split at member
  · cases List.mem_cons.mp member with
    | inl sign => exact Or.inl sign
    | inr digit => exact Or.inr (isDigit_of_mem_natText digit)
  · exact Or.inr (isDigit_of_mem_natText member)

theorem nul_notMem_intText (i : Int) : 0 ∉ intText i := by
  intro member
  rcases mem_intText member with sign | digit
  · exact absurd sign (by decide)
  · exact absurd digit (by decide)

/-- A negative number has one digit less. -/
theorem length_intText_le_iff {i : Int} {k : Nat} (positive : 0 < k) :
    (intText i).length ≤ k + 1 ↔ -10 ^ k < i ∧ i < 10 ^ (k + 1) := by
  unfold intText
  have grows : (10 : Int) ^ k ≤ 10 ^ (k + 1) := by
    exact_mod_cast Nat.pow_le_pow_right (by decide) (Nat.le_succ k)
  split
  · case isTrue negative =>
    rw [List.length_cons, Nat.add_le_add_iff_right, length_natText_le_iff positive]
    have cast : i.natAbs < 10 ^ k ↔ (i.natAbs : Int) < 10 ^ k := by
      exact_mod_cast Iff.rfl
    rw [cast]
    omega
  · case isFalse natural =>
    rw [length_natText_le_iff (Nat.succ_pos k)]
    have cast : i.natAbs < 10 ^ (k + 1) ↔ (i.natAbs : Int) < 10 ^ (k + 1) := by
      exact_mod_cast Iff.rfl
    have low : (0 : Int) < 10 ^ k := Int.pow_pos (by decide)
    rw [cast]
    omega

/-- A 32-bit integer takes at most eleven characters. -/
theorem length_intText {i : Int} (low : -2 ^ 31 ≤ i) (high : i < 2 ^ 32) :
    (intText i).length ≤ 11 := by
  have digits : (natText i.natAbs).length ≤ 10 := length_natText (by decide) (by omega)
  unfold intText
  split
  · rw [List.length_cons]
    omega
  · omega

/-! ### Scanning digits -/

theorem takeWhile_digits {digits rest : Text} (all : ∀ b ∈ digits, isDigit b = true)
    (stops : Stops rest) :
    (digits ++ rest).takeWhile isDigit = digits ∧ (digits ++ rest).dropWhile isDigit = rest := by
  rw [List.takeWhile_append_of_pos all, List.dropWhile_append_of_pos all]
  cases rest with
  | nil => exact ⟨List.append_nil _, rfl⟩
  | cons b tail =>
    have stop := stops b rfl
    rw [List.takeWhile_cons_of_neg (by rw [stop]; decide),
      List.dropWhile_cons_of_neg (by rw [stop]; decide)]
    exact ⟨List.append_nil _, rfl⟩

theorem scanNat_digits {digits rest : Text} (all : ∀ b ∈ digits, isDigit b = true)
    (some_digit : digits ≠ []) (stops : Stops rest) :
    scanNat (digits ++ rest) = some (digitsValue digits, rest) := by
  obtain ⟨front, tail⟩ := takeWhile_digits all stops
  unfold scanNat
  rw [front, tail, if_neg some_digit]

/-- Blanks in front of a number are skipped. -/
theorem scanInt_blank (text : Text) : scanInt (32 :: text) = scanInt text := by
  unfold scanInt
  rw [List.dropWhile_cons_of_pos (by decide)]

/-- Digits are scanned as the number they stand for. -/
theorem scanInt_digits {digits rest : Text} (all : ∀ b ∈ digits, isDigit b = true)
    (some_digit : digits ≠ []) (stops : Stops rest) :
    scanInt (digits ++ rest) = some ((digitsValue digits : Int), rest) := by
  cases digits with
  | nil => exact absurd rfl some_digit
  | cons b tail =>
    have range : 48 ≤ b.toNat ∧ b.toNat ≤ 57 := by
      simpa [isDigit] using all b List.mem_cons_self
    have scanned := scanNat_digits all some_digit stops
    have visible : isSpace b = false := by
      simp only [isSpace, Bool.or_eq_false_iff, Bool.and_eq_false_iff, decide_eq_false_iff_not]
      omega
    rw [List.cons_append] at scanned ⊢
    unfold scanInt
    rw [List.dropWhile_cons_of_neg (by rw [visible]; decide)]
    have minus : b ≠ 45 := by
      intro same
      subst same
      exact absurd range.1 (by decide)
    have plus : b ≠ 43 := by
      intro same
      subst same
      exact absurd range.1 (by decide)
    simp only [minus, plus, if_false, scanned, Option.map_some]

/-! ### Scanning what was written -/

theorem scanNat_natText (n : Nat) {rest : Text} (stops : Stops rest) :
    scanNat (natText n ++ rest) = some (n, rest) := by
  rw [scanNat_digits (fun b => isDigit_of_mem_natText) (natText_ne_nil n) stops,
    digitsValue_natText]

theorem scanInt_natText (n : Nat) {rest : Text} (stops : Stops rest) :
    scanInt (natText n ++ rest) = some ((n : Int), rest) := by
  rw [scanInt_digits (fun b => isDigit_of_mem_natText) (natText_ne_nil n) stops,
    digitsValue_natText]

theorem scanInt_paddedText (width n : Nat) {rest : Text} (stops : Stops rest) :
    scanInt (paddedText width n ++ rest) = some ((n : Int), rest) := by
  have filled : paddedText width n ≠ [] := List.append_ne_nil_of_right_ne_nil _ (natText_ne_nil n)
  rw [scanInt_digits (fun b => isDigit_of_mem_paddedText) filled stops, paddedText,
    digitsValue_zeros, digitsValue_natText]

/-- Scanning gives back the integer written. -/
theorem scanInt_intText (i : Int) {rest : Text} (stops : Stops rest) :
    scanInt (intText i ++ rest) = some (i, rest) := by
  unfold intText
  split
  · have sign : ((45 :: natText i.natAbs) ++ rest).dropWhile isSpace =
        45 :: (natText i.natAbs ++ rest) := List.dropWhile_cons_of_neg (by decide)
    unfold scanInt
    rw [sign]
    simp only [if_true, scanNat_natText _ stops, Option.map_some, Option.some.injEq,
      Prod.mk.injEq, and_true]
    omega
  · rw [scanInt_natText _ stops]
    simp only [Option.some.injEq, Prod.mk.injEq, and_true]
    omega

end GasSub.Library.Decimal
