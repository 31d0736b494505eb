import GasSub.Library.Decimal

/-!
# Single-precision numbers as text

`%.3f` and `%f` of a number given by its 32 bits. A finite number is a multiple of
`2 ^ -149`, so both directions are exact divisions of naturals, rounded to the
nearest result and to the even one of two.
-/
namespace GasSub.Library.Binary32
open GasSub.Library.Decimal

def divNearest (a b : Nat) : Nat :=
  if 2 * (a % b) < b ∨ (2 * (a % b) = b ∧ a / b % 2 = 0) then a / b else a / b + 1

def exponent (x : BitVec 32) : Nat := x.toNat / 2 ^ 23 % 256

def fraction (x : BitVec 32) : Nat := x.toNat % 2 ^ 23

/-- The magnitude of a finite number in units of `2 ^ -149`. -/
def units (x : BitVec 32) : Nat :=
  (if exponent x = 0 then fraction x else 2 ^ 23 + fraction x) * 2 ^ (exponent x - 1)

/-- Three digits, zeros included. -/
def threeDigits (n : Nat) : Text := natText (n / 100) ++ natText (n / 10 % 10) ++ natText (n % 10)

/-- `%.3f`. -/
def fixedText (x : BitVec 32) : Text :=
  let sign : Text := if x.msb then [45] else []
  if exponent x = 255 then sign ++ ascii (if fraction x = 0 then "inf" else "nan")
  else
    let thousandths := divNearest (1000 * units x) (2 ^ 149)
    sign ++ (natText (thousandths / 1000) ++ 46 :: threeDigits (thousandths % 1000))

/-- The pattern of the number nearest to `num / den`; too large a number is infinite. -/
def nearest (num den : Nat) : Nat :=
  let shift := Nat.log2 (num * 2 ^ 149 / den) - 23
  min (shift * 2 ^ 23 + divNearest (num * 2 ^ 149) (den * 2 ^ shift)) 0x7F800000

/-- The power of ten after an `e`, if there is one. -/
def scanPower (text : Text) : Int :=
  match text with
  | [] => 0
  | e :: rest =>
    if (e = asciiByte 'e' ∨ e = asciiByte 'E') ∧ ¬ rest.head?.any isSpace then
      ((scanInt rest).map Prod.fst).getD 0
    else 0

/-- Infinities and NaNs are spelt out, in either case. -/
def scanNamed (text : Text) : Option (BitVec 32) :=
  let name := (text.take 3).map fun b => b ||| 0x20
  if name = ascii "inf" then some 0x7F800000
  else if name = ascii "nan" then some 0x7FC00000
  else none

def scanMagnitude (text : Text) : Option (BitVec 32) :=
  let whole := text.takeWhile isDigit
  let tail := text.dropWhile isDigit
  let point := tail.head? = some 46
  let decimals := if point then tail.tail.takeWhile isDigit else []
  let rest := if point then tail.tail.dropWhile isDigit else tail
  if whole ++ decimals = [] then scanNamed text
  else
    let power := scanPower rest - decimals.length
    let digits := digitsValue (whole ++ decimals)
    some (BitVec.ofNat 32 (nearest (digits * 10 ^ power.toNat) (10 ^ (-power).toNat)))

/-- `%f`. -/
def scanFloat (text : Text) : Option (BitVec 32) :=
  match text.dropWhile isSpace with
  | [] => none
  | b :: rest =>
    if b = 45 then (scanMagnitude rest).map fun x => x ||| 0x80000000
    else if b = 43 then scanMagnitude rest
    else scanMagnitude (b :: rest)

/-! ### The written text -/

theorem divNearest_le (a b : Nat) : divNearest a b ≤ a / b + 1 := by
  unfold divNearest
  split <;> omega

/-- A finite number is below `2 ^ 128`. -/
theorem units_lt (x : BitVec 32) (finite : exponent x ≠ 255) : units x < 2 ^ 128 * 2 ^ 149 := by
  have range : exponent x < 256 := Nat.mod_lt _ (by decide)
  have small : fraction x < 2 ^ 23 := Nat.mod_lt _ (Nat.two_pow_pos 23)
  have significand : (if exponent x = 0 then fraction x else 2 ^ 23 + fraction x) < 2 ^ 24 := by
    split <;> omega
  have scale : 2 ^ (exponent x - 1) ≤ 2 ^ 253 := Nat.pow_le_pow_right (by decide) (by omega)
  calc
    units x < 2 ^ 24 * 2 ^ (exponent x - 1) :=
      Nat.mul_lt_mul_of_pos_right significand (Nat.two_pow_pos _)
    _ ≤ 2 ^ 24 * 2 ^ 253 := Nat.mul_le_mul_left _ scale
    _ = 2 ^ 128 * 2 ^ 149 := by decide

theorem length_fixedText (x : BitVec 32) : (fixedText x).length ≤ 44 := by
  have sign : (if x.msb then [45] else [] : Text).length ≤ 1 := by
    split <;> decide
  unfold fixedText
  simp only
  split
  · have name : (ascii (if fraction x = 0 then "inf" else "nan")).length = 3 := by
      split <;> decide
    rw [List.length_append]
    omega
  · rename_i finite
    have bound := units_lt x finite
    have whole : 1000 * units x / 2 ^ 149 < 1000 * 2 ^ 128 := by
      apply Nat.div_lt_of_lt_mul
      omega
    have rounded := divNearest_le (1000 * units x) (2 ^ 149)
    have digits : (natText (divNearest (1000 * units x) (2 ^ 149) / 1000)).length ≤ 39 :=
      length_natText (by decide) (by omega)
    have three : ∀ n < 1000, (threeDigits n).length ≤ 3 := by
      intro n small
      have hundreds : (natText (n / 100)).length ≤ 1 := length_natText (by decide) (by omega)
      have tens : (natText (n / 10 % 10)).length ≤ 1 := length_natText (by decide) (by omega)
      have ones : (natText (n % 10)).length ≤ 1 := length_natText (by decide) (by omega)
      unfold threeDigits
      rw [List.length_append, List.length_append]
      omega
    have decimals := three (divNearest (1000 * units x) (2 ^ 149) % 1000)
      (Nat.mod_lt _ (by decide))
    rw [List.length_append, List.length_append, List.length_cons]
    omega

theorem nul_notMem_fixedText (x : BitVec 32) : 0 ∉ fixedText x := by
  have digits : ∀ n, (0 : BitVec 8) ∉ natText n := by
    intro n member
    exact absurd (isDigit_of_mem_natText member) (by decide)
  have sign : (0 : BitVec 8) ∉ (if x.msb then [45] else [] : Text) := by
    split <;> decide
  unfold fixedText threeDigits
  simp only
  split
  · have name : (0 : BitVec 8) ∉ ascii (if fraction x = 0 then "inf" else "nan") := by
      split <;> decide
    rw [List.mem_append, not_or]
    exact ⟨sign, name⟩
  · simp only [List.mem_append, List.mem_cons, not_or]
    exact ⟨sign, digits _, by decide, ⟨digits _, digits _⟩, digits _⟩

end GasSub.Library.Binary32
