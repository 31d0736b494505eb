import GasSub.Library.XorSum
import GasSub.Source.YaffsEcc
import Mathlib.Data.Fintype.Basic
import Mathlib.Tactic.FinCases
import Mathlib.Tactic.IntervalCases

/-!
# Repairing one wrong bit

The code of a block is linear: a wrong bit changes the three code bytes by amounts
that depend on its place only, whatever the block holds. Each line bit stands in the
code beside its complement, so that the difference spells the byte and the bit.
-/
namespace GasSub.Source
open GasSub.Library.XorSum

/-! ### The column parities of a byte -/

def columnOf (byte : INT8U) : INT8U := columnParityTable.getD byte.toNat 0

/-- What bit `n` of a byte adds to its column parities. -/
def columnBit : Nat → INT8U
  | 0 => 0x55
  | 1 => 0x59
  | 2 => 0x65
  | 3 => 0x69
  | 4 => 0x95
  | 5 => 0x99
  | 6 => 0xA5
  | _ => 0xA9

theorem columnParityTable_eq : columnParityTable.toList = (List.range 256).map fun b =>
    xorSum (fun n => if (BitVec.ofNat 8 b).getLsbD n then columnBit n else 0) 8 := by
  decide +kernel

theorem columnOf_eq (byte : INT8U) :
    columnOf byte = xorSum (fun n => if byte.getLsbD n then columnBit n else 0) 8 := by
  have inside : byte.toNat < 256 := byte.isLt
  have entry : columnOf byte = columnParityTable.toList.getD byte.toNat 0 := by
    rw [columnOf, Array.getD_eq_getD_getElem?, List.getD_eq_getElem?_getD, Array.getElem?_toList]
  rw [entry, columnParityTable_eq, List.getD_eq_getElem?_getD, List.getElem?_map,
    List.getElem?_range inside, Option.map_some, Option.getD_some, BitVec.ofNat_toNat,
    BitVec.setWidth_eq]

/-- Bit `j` of a byte is wrong. -/
def flipBit (byte : INT8U) (j : Nat) : INT8U := byte ^^^ (1 <<< j)

theorem flipBit_flipBit (byte : INT8U) (j : Nat) : flipBit (flipBit byte j) j = byte := by
  rw [flipBit, flipBit, BitVec.xor_assoc, BitVec.xor_self, BitVec.xor_zero]

theorem getLsbD_flipBit (byte : INT8U) (j n : Fin 8) :
    (flipBit byte j).getLsbD n = (byte.getLsbD n ^^ decide (n = j)) := by
  have bit : ∀ j n : Fin 8, (((1 <<< j.val : Nat) : INT8U).getLsbD n) = decide (n = j) := by decide
  rw [flipBit, BitVec.getLsbD_xor, bit]

/-- A wrong bit changes the column parities by what the bit adds. -/
theorem columnOf_flipBit (byte : INT8U) (j : Fin 8) :
    columnOf (flipBit byte j) = columnOf byte ^^^ columnBit j := by
  have others : ∀ n < 8, n ≠ j.val →
      (if (flipBit byte j).getLsbD n then columnBit n else 0) =
        if byte.getLsbD n then columnBit n else 0 := by
    intro n inside other
    have apart : (⟨n, inside⟩ : Fin 8) ≠ j := fun same => other (congrArg Fin.val same)
    have bit := getLsbD_flipBit byte j ⟨n, inside⟩
    rw [decide_eq_false apart, Bool.xor_false] at bit
    rw [bit]
  have here := getLsbD_flipBit byte j j
  rw [decide_eq_true rfl, Bool.xor_true] at here
  rw [columnOf_eq, columnOf_eq byte, xorSum_change j.isLt others, here]
  cases byte.getLsbD j <;> simp

/-! ### The parities of a block -/

def lineOf (i : Nat) (byte : INT8U) : INT8U :=
  if columnOf byte &&& 0x01 = 0 then 0 else BitVec.ofNat 8 i

def linePrimeOf (i : Nat) (byte : INT8U) : INT8U :=
  if columnOf byte &&& 0x01 = 0 then 0 else (~~~BitVec.ofNat 32 i).setWidth 8

/-- The parities of the first `n` bytes. -/
def paritiesOf (data : List INT8U) (n : Nat) : EccParity where
  colParity := xorSum (fun i => columnOf (data.getD i 0)) n
  lineParity := xorSum (fun i => lineOf i (data.getD i 0)) n
  lineParityPrime := xorSum (fun i => linePrimeOf i (data.getD i 0)) n

theorem add_eq (p : EccParity) (i : Nat) (byte : INT8U) :
    p.add i byte =
      { colParity := p.colParity ^^^ columnOf byte
        lineParity := p.lineParity ^^^ lineOf i byte
        lineParityPrime := p.lineParityPrime ^^^ linePrimeOf i byte } := by
  by_cases even : columnOf byte &&& 0x01 = 0
  · have same : ∀ x : INT8U, x ^^^ 0 = x := fun _ => BitVec.xor_zero
    rw [lineOf, linePrimeOf, if_pos even, if_pos even, same, same]
    exact if_pos even
  · rw [lineOf, linePrimeOf, if_neg even, if_neg even]
    exact if_neg even

theorem foldl_add (data : List INT8U) (n : Nat) :
    (List.range n).foldl (fun p i => p.add i (data.getD i 0)) (EccParity.mk 0 0 0) =
      paritiesOf data n := by
  induction n with
  | zero => rfl
  | succ n ih =>
    rw [List.range_succ, List.foldl_append, ih, List.foldl_cons, List.foldl_nil, add_eq]
    rfl

/-! ### The code bytes -/

def highMask : Nat → INT8U
  | 0 => 0x10
  | 1 => 0x20
  | 2 => 0x40
  | _ => 0x80

def lowMask : Nat → INT8U
  | 0 => 0x01
  | 1 => 0x02
  | 2 => 0x04
  | _ => 0x08

/-- Four line bits, each above its complement. -/
def weave (mask : Nat → INT8U) (l p : INT8U) : INT8U :=
  let t := orIf l (mask 3) 0x80 0
  let t := orIf p (mask 3) 0x40 t
  let t := orIf l (mask 2) 0x20 t
  let t := orIf p (mask 2) 0x10 t
  let t := orIf l (mask 1) 0x08 t
  let t := orIf p (mask 1) 0x04 t
  let t := orIf l (mask 0) 0x02 t
  orIf p (mask 0) 0x01 t

/-- The code bytes of parities. -/
def codeOf (p : EccParity) : Ecc :=
  #v[~~~weave lowMask p.lineParity p.lineParityPrime,
    ~~~weave highMask p.lineParity p.lineParityPrime, ~~~p.colParity ||| 0x03]

theorem yaffsEccCalc_eq (data : List INT8U) : yaffsEccCalc data = codeOf (paritiesOf data 256) := by
  rw [← foldl_add]
  unfold yaffsEccCalc codeOf weave lowMask highMask
  rfl

/-- The word has the bit of the mask. -/
def hits (word mask : INT8U) : Bool := word &&& mask ≠ 0

theorem getLsbD_orIf (word mask value bits : INT8U) (n : Nat) :
    (orIf word mask value bits).getLsbD n =
      (bits.getLsbD n || (hits word mask && value.getLsbD n)) := by
  by_cases clear : word &&& mask = 0
  · rw [orIf, hits, if_pos clear, decide_eq_false (not_not.mpr clear), Bool.false_and,
      Bool.or_false]
  · rw [orIf, hits, if_neg clear, decide_eq_true clear, Bool.true_and, BitVec.getLsbD_or]

theorem getLsbD_weave (mask : Nat → INT8U) (l p : INT8U) (n : Fin 8) :
    (weave mask l p).getLsbD n = hits (if n.val % 2 = 1 then l else p) (mask (n / 2)) := by
  unfold weave
  simp only [getLsbD_orIf]
  fin_cases n <;> simp

theorem hits_twoPow (word : INT8U) (q : Nat) (inside : q < 8) :
    hits word (BitVec.twoPow 8 q) = word.getLsbD q := by
  have set : BitVec.twoPow 8 q ≠ 0 := by
    intro zero
    have bit : (BitVec.twoPow 8 q).getLsbD q = true := by
      rw [BitVec.getLsbD_twoPow, decide_eq_true inside, decide_eq_true rfl, Bool.and_self]
    rw [zero] at bit
    exact absurd (BitVec.getLsbD_zero.symm.trans bit) Bool.false_ne_true
  rw [hits, BitVec.and_twoPow]
  cases word.getLsbD q with
  | true => rw [if_pos rfl, decide_eq_true set]
  | false => rw [if_neg Bool.false_ne_true]; rfl

/-- The masks of four line bits from `base` on. -/
def SelectsFrom (mask : Nat → INT8U) (base : Nat) : Prop :=
  base ≤ 4 ∧ ∀ k : Fin 4, mask k = BitVec.twoPow 8 (base + k)

theorem selects_high : SelectsFrom highMask 4 := ⟨Nat.le_refl 4, by decide⟩

theorem selects_low : SelectsFrom lowMask 0 := ⟨Nat.zero_le 4, by decide⟩

theorem weave_upper {mask : Nat → INT8U} {base : Nat} (selects : SelectsFrom mask base)
    (l p : INT8U) (k : Fin 4) :
    (weave mask l p).getLsbD (2 * k + 1) = l.getLsbD (base + k) := by
  have bound : base + k < 8 := by
    have low := selects.1
    omega
  have odd : (2 * k.val + 1) % 2 = 1 := by omega
  have half : (2 * k.val + 1) / 2 = k := by omega
  have bit := getLsbD_weave mask l p ⟨2 * k + 1, by omega⟩
  simp only [if_pos odd, half] at bit
  rw [bit, selects.2, hits_twoPow _ _ bound]

theorem weave_lower {mask : Nat → INT8U} {base : Nat} (selects : SelectsFrom mask base)
    (l p : INT8U) (k : Fin 4) :
    (weave mask l p).getLsbD (2 * k) = p.getLsbD (base + k) := by
  have bound : base + k < 8 := by
    have low := selects.1
    omega
  have even : ¬2 * k.val % 2 = 1 := by omega
  have half : 2 * k.val / 2 = k := by omega
  have bit := getLsbD_weave mask l p ⟨2 * k, by omega⟩
  simp only [if_neg even, half] at bit
  rw [bit, selects.2, hits_twoPow _ _ bound]

theorem weave_xor {mask : Nat → INT8U} {base : Nat} (selects : SelectsFrom mask base)
    (l p a b : INT8U) : weave mask (l ^^^ a) (p ^^^ b) = weave mask l p ^^^ weave mask a b := by
  apply BitVec.eq_of_getLsbD_eq
  intro n inside
  obtain ⟨k, lower | upper⟩ : ∃ k : Fin 4, n = 2 * k ∨ n = 2 * k + 1 :=
    ⟨⟨n / 2, by omega⟩, by simp only; omega⟩
  · rw [lower, BitVec.getLsbD_xor]
    simp only [weave_lower selects, BitVec.getLsbD_xor]
  · rw [upper, BitVec.getLsbD_xor]
    simp only [weave_upper selects, BitVec.getLsbD_xor]

/-- The column byte of the code changes by the column parities, but for its two unused bits. -/
theorem columnByte_xor (c t : INT8U) :
    (~~~c ||| 0x03) ^^^ (~~~(c ^^^ t) ||| 0x03) = t &&& 0xFC := by
  apply BitVec.eq_of_getLsbD_eq
  intro n inside
  have low : ∀ n : Fin 8, (0x03 : INT8U).getLsbD n = decide (n.val < 2) := by decide
  have high : ∀ n : Fin 8, (0xFC : INT8U).getLsbD n = !decide (n.val < 2) := by decide
  have low := low ⟨n, inside⟩
  have high := high ⟨n, inside⟩
  simp only at low high
  simp only [BitVec.getLsbD_xor, BitVec.getLsbD_or, BitVec.getLsbD_and, BitVec.getLsbD_not, low,
    high, decide_eq_true inside, Bool.true_and]
  cases c.getLsbD n <;> cases t.getLsbD n <;> cases decide (n < 2) <;> rfl

/-- The code reads the first 256 bytes only. -/
theorem yaffsEccCalc_congr {a b : List INT8U} (same : ∀ i < 256, a.getD i 0 = b.getD i 0) :
    yaffsEccCalc a = yaffsEccCalc b := by
  have shares : ∀ share : Nat → INT8U → INT8U, ∀ i < 256,
      share i (a.getD i 0) = share i (b.getD i 0) :=
    fun share i inside => congrArg (share i) (same i inside)
  have column := xorSum_congr (shares fun _ => columnOf)
  have line := xorSum_congr (shares lineOf)
  have linePrime := xorSum_congr (shares linePrimeOf)
  rw [yaffsEccCalc_eq, yaffsEccCalc_eq, paritiesOf, column, line, linePrime]
  rfl

/-! ### One wrong bit -/

/-- Bit `j` of byte `i` is wrong. -/
def flipAt (data : List INT8U) (i j : Nat) : List INT8U := data.modify i fun byte => flipBit byte j

theorem getD_flipAt {data : List INT8U} {i : Nat} (inside : i < data.length) (j n : Nat) :
    (flipAt data i j).getD n 0 = if n = i then flipBit (data.getD i 0) j else data.getD n 0 := by
  rw [flipAt, List.getD_eq_getElem?_getD, List.getElem?_modify]
  by_cases here : n = i
  · subst here
    rw [if_pos rfl, List.getD_eq_getElem?_getD, List.getElem?_eq_getElem inside]
    exact if_pos rfl
  · rw [if_neg here, List.getD_eq_getElem?_getD]
    cases data[n]? with
    | none => rfl
    | some byte => exact congrArg (fun b => (some b).getD 0) (if_neg (Ne.symm here))

/-- The last bit of a word: the word is even when it is clear. -/
theorem even_iff (word : INT8U) : word &&& 0x01 = 0 ↔ word.getLsbD 0 = false := by
  have one : (0x01 : INT8U) = BitVec.twoPow 8 0 := rfl
  have bit := hits_twoPow word 0 (by decide)
  rw [hits, ← one] at bit
  rw [← bit, decide_eq_false_iff_not, not_not]

/-- A wrong bit turns the share of its byte in a line parity on or off. -/
theorem line_flipBit (v byte : INT8U) (j : Fin 8) :
    ((if columnOf byte &&& 0x01 = 0 then 0 else v) ^^^
      if columnOf (flipBit byte j) &&& 0x01 = 0 then 0 else v) = v := by
  have last : ∀ j : Fin 8, (columnBit j).getLsbD 0 = true := by decide
  have turned : (columnOf (flipBit byte j)).getLsbD 0 = !(columnOf byte).getLsbD 0 := by
    rw [columnOf_flipBit, BitVec.getLsbD_xor, last, Bool.xor_true]
  simp only [even_iff, turned]
  cases (columnOf byte).getLsbD 0 <;> simp

/-- What a wrong bit changes the parities by. -/
theorem paritiesOf_flipAt {data : List INT8U} (i : Fin 256) (j : Fin 8)
    (inside : i < data.length) :
    paritiesOf (flipAt data i j) 256 =
      { colParity := (paritiesOf data 256).colParity ^^^ columnBit j
        lineParity := (paritiesOf data 256).lineParity ^^^ BitVec.ofNat 8 i
        lineParityPrime :=
          (paritiesOf data 256).lineParityPrime ^^^ (~~~BitVec.ofNat 32 i).setWidth 8 } := by
  have byte := getD_flipAt inside j
  have others : ∀ share : Nat → INT8U → INT8U, ∀ n < 256, n ≠ i.val →
      share n ((flipAt data i j).getD n 0) = share n (data.getD n 0) := by
    intro share n _ other
    rw [byte, if_neg other]
  have here : (flipAt data i j).getD i 0 = flipBit (data.getD i 0) j := by
    rw [byte, if_pos rfl]
  have columnShare : columnOf (data.getD i 0) ^^^ columnOf (flipBit (data.getD i 0) j) =
      columnBit j := by
    rw [columnOf_flipBit, xor_cancel_left]
  have lineShare : lineOf i (data.getD i 0) ^^^ lineOf i (flipBit (data.getD i 0) j) =
      BitVec.ofNat 8 i := line_flipBit _ _ j
  have primeShare : linePrimeOf i (data.getD i 0) ^^^ linePrimeOf i (flipBit (data.getD i 0) j) =
      (~~~BitVec.ofNat 32 i).setWidth 8 := line_flipBit _ _ j
  have column := xorSum_change i.isLt (others fun _ => columnOf)
  have line := xorSum_change i.isLt (others lineOf)
  have linePrime := xorSum_change i.isLt (others linePrimeOf)
  rw [here] at column line linePrime
  rw [columnShare] at column
  rw [lineShare] at line
  rw [primeShare] at linePrime
  rw [paritiesOf, column, line, linePrime]
  rfl

/-! ### The repair -/

theorem linePrime_eq (i : Nat) : (~~~BitVec.ofNat 32 i).setWidth 8 = ~~~BitVec.ofNat 8 i := by
  have narrow : (BitVec.ofNat 32 i).setWidth 8 = BitVec.ofNat 8 i :=
    BitVec.setWidth_ofNat_of_le (by decide) i
  rw [BitVec.setWidth_not (by decide), narrow]

/-- What a wrong bit of byte `i` changes the line bytes of the code by. -/
def lowDelta (i : Nat) : INT8U := weave lowMask (BitVec.ofNat 8 i) (~~~BitVec.ofNat 8 i)

def highDelta (i : Nat) : INT8U := weave highMask (BitVec.ofNat 8 i) (~~~BitVec.ofNat 8 i)

/-- In the delta of a wrong bit every line bit differs from its complement. -/
theorem weave_pairs {mask : Nat → INT8U} {base : Nat} (selects : SelectsFrom mask base)
    (l : INT8U) :
    (weave mask l (~~~l) ^^^ (weave mask l (~~~l) >>> 1)) &&& 0x55 = 0x55 := by
  have even : ∀ n : Fin 8, (0x55 : INT8U).getLsbD n = decide (n.val % 2 = 0) := by decide
  apply BitVec.eq_of_getLsbD_eq
  intro n inside
  rw [BitVec.getLsbD_and, even ⟨n, inside⟩]
  by_cases lower : n % 2 = 0
  · obtain ⟨k, rfl⟩ : ∃ k : Fin 4, n = 2 * k := ⟨⟨n / 2, by omega⟩, by simp only; omega⟩
    have bound : base + k < 8 := by
      have low := selects.1
      omega
    rw [BitVec.getLsbD_xor, BitVec.getLsbD_ushiftRight, Nat.add_comm 1, weave_upper selects,
      weave_lower selects, BitVec.getLsbD_not, decide_eq_true bound, decide_eq_true lower]
    cases l.getLsbD (base + k) <;> rfl
  · rw [decide_eq_false lower, Bool.and_false]

/-- The upper bits of the pairs spell the line parity. -/
theorem weave_spells (l p : INT8U) :
    (let byte := orIf (weave highMask l p) 0x80 0x80 0
     let byte := orIf (weave highMask l p) 0x20 0x40 byte
     let byte := orIf (weave highMask l p) 0x08 0x20 byte
     let byte := orIf (weave highMask l p) 0x02 0x10 byte
     let byte := orIf (weave lowMask l p) 0x80 0x08 byte
     let byte := orIf (weave lowMask l p) 0x20 0x04 byte
     let byte := orIf (weave lowMask l p) 0x08 0x02 byte
     orIf (weave lowMask l p) 0x02 0x01 byte) = l := by
  have upper {mask : Nat → INT8U} {base : Nat} (selects : SelectsFrom mask base) (k : Fin 4) :
      hits (weave mask l p) (BitVec.twoPow 8 (2 * k + 1)) = l.getLsbD (base + k) :=
    (hits_twoPow _ _ (by omega)).trans (weave_upper selects l p k)
  have bit4 : hits (weave highMask l p) 0x02 = l.getLsbD 4 := upper selects_high 0
  have bit5 : hits (weave highMask l p) 0x08 = l.getLsbD 5 := upper selects_high 1
  have bit6 : hits (weave highMask l p) 0x20 = l.getLsbD 6 := upper selects_high 2
  have bit7 : hits (weave highMask l p) 0x80 = l.getLsbD 7 := upper selects_high 3
  have bit0 : hits (weave lowMask l p) 0x02 = l.getLsbD 0 := upper selects_low 0
  have bit1 : hits (weave lowMask l p) 0x08 = l.getLsbD 1 := upper selects_low 1
  have bit2 : hits (weave lowMask l p) 0x20 = l.getLsbD 2 := upper selects_low 2
  have bit3 : hits (weave lowMask l p) 0x80 = l.getLsbD 3 := upper selects_low 3
  apply BitVec.eq_of_getLsbD_eq
  intro n inside
  simp only [getLsbD_orIf, bit0, bit1, bit2, bit3, bit4, bit5, bit6, bit7]
  interval_cases n <;> simp

/-- What a wrong bit `j` changes the column byte of the code by. -/
def columnDelta (j : Nat) : INT8U := columnBit j &&& 0xFC

theorem columnDelta_spells : ∀ j : Fin 8,
    (columnDelta j ^^^ (columnDelta j >>> 1)) &&& 0x54 = 0x54 ∧
      (let bit := orIf (columnDelta j) 0x80 0x04 0
       let bit := orIf (columnDelta j) 0x20 0x02 bit
       (orIf (columnDelta j) 0x08 0x01 bit).toNat) = j := by
  decide

/-- In the deltas of a wrong bit every line bit differs from its complement. -/
theorem lowDelta_pairs (i : Nat) : (lowDelta i ^^^ (lowDelta i >>> 1)) &&& 0x55 = 0x55 :=
  weave_pairs selects_low _

theorem highDelta_pairs (i : Nat) : (highDelta i ^^^ (highDelta i >>> 1)) &&& 0x55 = 0x55 :=
  weave_pairs selects_high _

/-- The upper bits of the pairs spell the byte. -/
theorem deltas_spell (i : Fin 256) :
    (let byte := orIf (highDelta i) 0x80 0x80 0
     let byte := orIf (highDelta i) 0x20 0x40 byte
     let byte := orIf (highDelta i) 0x08 0x20 byte
     let byte := orIf (highDelta i) 0x02 0x10 byte
     let byte := orIf (lowDelta i) 0x80 0x08 byte
     let byte := orIf (lowDelta i) 0x20 0x04 byte
     let byte := orIf (lowDelta i) 0x08 0x02 byte
     (orIf (lowDelta i) 0x02 0x01 byte).toNat) = i := by
  have spelt := weave_spells (BitVec.ofNat 8 i) (~~~BitVec.ofNat 8 i)
  exact (congrArg BitVec.toNat spelt).trans (Nat.mod_eq_of_lt i.isLt)

/-- What a wrong bit changes the code by. -/
theorem yaffsEccCalc_flipAt {data : List INT8U} (i : Fin 256) (j : Fin 8)
    (inside : i < data.length) :
    (yaffsEccCalc data)[0] ^^^ (yaffsEccCalc (flipAt data i j))[0] = lowDelta i ∧
      (yaffsEccCalc data)[1] ^^^ (yaffsEccCalc (flipAt data i j))[1] = highDelta i ∧
      (yaffsEccCalc data)[2] ^^^ (yaffsEccCalc (flipAt data i j))[2] = columnDelta j := by
  have difference : ∀ x y : INT8U, ~~~x ^^^ ~~~(x ^^^ y) = y := by
    intro x y
    rw [BitVec.not_xor_left, xor_cancel_left]
  rw [yaffsEccCalc_eq, yaffsEccCalc_eq, paritiesOf_flipAt i j inside, linePrime_eq]
  refine ⟨?low, ?high, ?column⟩
  case low => exact (congrArg _ (congrArg _ (weave_xor selects_low ..))).trans (difference ..)
  case high => exact (congrArg _ (congrArg _ (weave_xor selects_high ..))).trans (difference ..)
  case column => exact columnByte_xor ..

/-- A block with one wrong bit is repaired against the code of the right one. -/
theorem yaffsEccCorrect_flipAt {data : List INT8U} (i : Fin 256) (j : Fin 8)
    (inside : i < data.length) :
    yaffsEccCorrect (flipAt data i j) (yaffsEccCalc data) (yaffsEccCalc (flipAt data i j)) =
      { ret := 1, data := data, readEcc := yaffsEccCalc data } := by
  obtain ⟨low, high, column⟩ := yaffsEccCalc_flipAt i j inside
  obtain ⟨columnPairs, bit⟩ := columnDelta_spells j
  have byte := deltas_spell i
  have differs : ¬lowDelta i ||| highDelta i ||| columnDelta j = 0 := by
    intro zero
    have column := (BitVec.or_eq_zero_iff.mp zero).2
    rw [column] at columnPairs
    exact absurd columnPairs (by decide)
  have restored : flipAt (flipAt data i j) i j = data := by
    rw [flipAt, flipAt, List.modify_modify_eq]
    exact (congrArg _ (funext fun b => flipBit_flipBit b j)).trans (List.modify_id ..)
  simp only at byte bit
  unfold yaffsEccCorrect
  simp only [low, high, column]
  rw [if_neg differs, if_pos ⟨lowDelta_pairs i, highDelta_pairs i, columnPairs⟩, byte, bit]
  exact congrArg (Correction.mk 1 · (yaffsEccCalc data)) restored

end GasSub.Source
