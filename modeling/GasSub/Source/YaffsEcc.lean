import GasSub.Source.Sensor

/-!
# The error-correcting code of a page

`yaffs_ecc_calc` and `yaffs_ecc_correct`: 22 parity bits in three bytes over a
block of 256 bytes. A block whose code agrees is returned unchanged; one differing
bit of the block or of the code is taken for an error and repaired.
-/
namespace GasSub.Source

def columnParityTable : Array INT8U :=
  #[
    0x00, 0x55, 0x59, 0x0c, 0x65, 0x30, 0x3c, 0x69,
    0x69, 0x3c, 0x30, 0x65, 0x0c, 0x59, 0x55, 0x00,
    0x95, 0xc0, 0xcc, 0x99, 0xf0, 0xa5, 0xa9, 0xfc,
    0xfc, 0xa9, 0xa5, 0xf0, 0x99, 0xcc, 0xc0, 0x95,
    0x99, 0xcc, 0xc0, 0x95, 0xfc, 0xa9, 0xa5, 0xf0,
    0xf0, 0xa5, 0xa9, 0xfc, 0x95, 0xc0, 0xcc, 0x99,
    0x0c, 0x59, 0x55, 0x00, 0x69, 0x3c, 0x30, 0x65,
    0x65, 0x30, 0x3c, 0x69, 0x00, 0x55, 0x59, 0x0c,
    0xa5, 0xf0, 0xfc, 0xa9, 0xc0, 0x95, 0x99, 0xcc,
    0xcc, 0x99, 0x95, 0xc0, 0xa9, 0xfc, 0xf0, 0xa5,
    0x30, 0x65, 0x69, 0x3c, 0x55, 0x00, 0x0c, 0x59,
    0x59, 0x0c, 0x00, 0x55, 0x3c, 0x69, 0x65, 0x30,
    0x3c, 0x69, 0x65, 0x30, 0x59, 0x0c, 0x00, 0x55,
    0x55, 0x00, 0x0c, 0x59, 0x30, 0x65, 0x69, 0x3c,
    0xa9, 0xfc, 0xf0, 0xa5, 0xcc, 0x99, 0x95, 0xc0,
    0xc0, 0x95, 0x99, 0xcc, 0xa5, 0xf0, 0xfc, 0xa9,
    0xa9, 0xfc, 0xf0, 0xa5, 0xcc, 0x99, 0x95, 0xc0,
    0xc0, 0x95, 0x99, 0xcc, 0xa5, 0xf0, 0xfc, 0xa9,
    0x3c, 0x69, 0x65, 0x30, 0x59, 0x0c, 0x00, 0x55,
    0x55, 0x00, 0x0c, 0x59, 0x30, 0x65, 0x69, 0x3c,
    0x30, 0x65, 0x69, 0x3c, 0x55, 0x00, 0x0c, 0x59,
    0x59, 0x0c, 0x00, 0x55, 0x3c, 0x69, 0x65, 0x30,
    0xa5, 0xf0, 0xfc, 0xa9, 0xc0, 0x95, 0x99, 0xcc,
    0xcc, 0x99, 0x95, 0xc0, 0xa9, 0xfc, 0xf0, 0xa5,
    0x0c, 0x59, 0x55, 0x00, 0x69, 0x3c, 0x30, 0x65,
    0x65, 0x30, 0x3c, 0x69, 0x00, 0x55, 0x59, 0x0c,
    0x99, 0xcc, 0xc0, 0x95, 0xfc, 0xa9, 0xa5, 0xf0,
    0xf0, 0xa5, 0xa9, 0xfc, 0x95, 0xc0, 0xcc, 0x99,
    0x95, 0xc0, 0xcc, 0x99, 0xf0, 0xa5, 0xa9, 0xfc,
    0xfc, 0xa9, 0xa5, 0xf0, 0x99, 0xcc, 0xc0, 0x95,
    0x00, 0x55, 0x59, 0x0c, 0x65, 0x30, 0x3c, 0x69,
    0x69, 0x3c, 0x30, 0x65, 0x0c, 0x59, 0x55, 0x00]

def yaffsCountBitsTable : Array Nat :=
  #[
    0, 1, 1, 2, 1, 2, 2, 3, 1, 2, 2, 3, 2, 3, 3, 4,
    1, 2, 2, 3, 2, 3, 3, 4, 2, 3, 3, 4, 3, 4, 4, 5,
    1, 2, 2, 3, 2, 3, 3, 4, 2, 3, 3, 4, 3, 4, 4, 5,
    2, 3, 3, 4, 3, 4, 4, 5, 3, 4, 4, 5, 4, 5, 5, 6,
    1, 2, 2, 3, 2, 3, 3, 4, 2, 3, 3, 4, 3, 4, 4, 5,
    2, 3, 3, 4, 3, 4, 4, 5, 3, 4, 4, 5, 4, 5, 5, 6,
    2, 3, 3, 4, 3, 4, 4, 5, 3, 4, 4, 5, 4, 5, 5, 6,
    3, 4, 4, 5, 4, 5, 5, 6, 4, 5, 5, 6, 5, 6, 6, 7,
    1, 2, 2, 3, 2, 3, 3, 4, 2, 3, 3, 4, 3, 4, 4, 5,
    2, 3, 3, 4, 3, 4, 4, 5, 3, 4, 4, 5, 4, 5, 5, 6,
    2, 3, 3, 4, 3, 4, 4, 5, 3, 4, 4, 5, 4, 5, 5, 6,
    3, 4, 4, 5, 4, 5, 5, 6, 4, 5, 5, 6, 5, 6, 6, 7,
    2, 3, 3, 4, 3, 4, 4, 5, 3, 4, 4, 5, 4, 5, 5, 6,
    3, 4, 4, 5, 4, 5, 5, 6, 4, 5, 5, 6, 5, 6, 6, 7,
    3, 4, 4, 5, 4, 5, 5, 6, 4, 5, 5, 6, 5, 6, 6, 7,
    4, 5, 5, 6, 5, 6, 6, 7, 5, 6, 6, 7, 6, 7, 7, 8]

def yaffsHweight8 (x : INT8U) : Nat := yaffsCountBitsTable.getD x.toNat 0

/-- The three code bytes. -/
abbrev Ecc := Vector INT8U 3

/-- `if (word & mask) bits |= value`. -/
def orIf (word mask value bits : INT8U) : INT8U :=
  if word &&& mask = 0 then bits else bits ||| value

structure EccParity where
  colParity : INT8U
  lineParity : INT8U
  lineParityPrime : INT8U

/-- Byte `i` of the block enters the parities. -/
def EccParity.add (p : EccParity) (i : Nat) (byte : INT8U) : EccParity :=
  let b := columnParityTable.getD byte.toNat 0
  let p := { p with colParity := p.colParity ^^^ b }
  if b &&& 0x01 = 0 then p
  else
    { p with
      lineParity := p.lineParity ^^^ BitVec.ofNat 8 i
      lineParityPrime := p.lineParityPrime ^^^ (~~~BitVec.ofNat 32 i).setWidth 8 }

/-- `yaffs_ecc_calc` over the first 256 bytes of `data`. -/
def yaffsEccCalc (data : List INT8U) : Ecc :=
  let p := (List.range 256).foldl (fun p i => p.add i (data.getD i 0)) (EccParity.mk 0 0 0)
  let high := orIf p.lineParity 0x80 0x80 0
  let high := orIf p.lineParityPrime 0x80 0x40 high
  let high := orIf p.lineParity 0x40 0x20 high
  let high := orIf p.lineParityPrime 0x40 0x10 high
  let high := orIf p.lineParity 0x20 0x08 high
  let high := orIf p.lineParityPrime 0x20 0x04 high
  let high := orIf p.lineParity 0x10 0x02 high
  let high := orIf p.lineParityPrime 0x10 0x01 high
  let low := orIf p.lineParity 0x08 0x80 0
  let low := orIf p.lineParityPrime 0x08 0x40 low
  let low := orIf p.lineParity 0x04 0x20 low
  let low := orIf p.lineParityPrime 0x04 0x10 low
  let low := orIf p.lineParity 0x02 0x08 low
  let low := orIf p.lineParityPrime 0x02 0x04 low
  let low := orIf p.lineParity 0x01 0x02 low
  let low := orIf p.lineParityPrime 0x01 0x01 low
  #v[~~~low, ~~~high, ~~~p.colParity ||| 0x03]

/-- What `yaffs_ecc_correct` returns and leaves in the block and in the code read. -/
structure Correction where
  ret : Int
  data : List INT8U
  readEcc : Ecc

def yaffsEccCorrect (data : List INT8U) (readEcc testEcc : Ecc) : Correction :=
  let d0 := readEcc[0] ^^^ testEcc[0]
  let d1 := readEcc[1] ^^^ testEcc[1]
  let d2 := readEcc[2] ^^^ testEcc[2]
  if d0 ||| d1 ||| d2 = 0 then { ret := 0, data := data, readEcc := readEcc }
  else if (d0 ^^^ (d0 >>> 1)) &&& 0x55 = 0x55 ∧ (d1 ^^^ (d1 >>> 1)) &&& 0x55 = 0x55 ∧
      (d2 ^^^ (d2 >>> 1)) &&& 0x54 = 0x54 then
    -- A single wrong bit in the data: its place is spelt by the deltas.
    let byte := orIf d1 0x80 0x80 0
    let byte := orIf d1 0x20 0x40 byte
    let byte := orIf d1 0x08 0x20 byte
    let byte := orIf d1 0x02 0x10 byte
    let byte := orIf d0 0x80 0x08 byte
    let byte := orIf d0 0x20 0x04 byte
    let byte := orIf d0 0x08 0x02 byte
    let byte := orIf d0 0x02 0x01 byte
    let bit := orIf d2 0x80 0x04 0
    let bit := orIf d2 0x20 0x02 bit
    let bit := orIf d2 0x08 0x01 bit
    { ret := 1
      data := data.modify byte.toNat fun b => b ^^^ (1 <<< bit.toNat)
      readEcc := readEcc }
  else if yaffsHweight8 d0 + yaffsHweight8 d1 + yaffsHweight8 d2 = 1 then
    { ret := 1, data := data, readEcc := testEcc }
  else { ret := -1, data := data, readEcc := readEcc }

/-- A block whose code agrees is left alone. -/
theorem yaffsEccCorrect_same (data : List INT8U) (ecc : Ecc) :
    yaffsEccCorrect data ecc ecc = { ret := 0, data := data, readEcc := ecc } := by
  unfold yaffsEccCorrect
  simp only [BitVec.xor_self]
  rfl

end GasSub.Source
