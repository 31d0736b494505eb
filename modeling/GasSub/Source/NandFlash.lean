import GasSub.Library.ByteWord
import GasSub.Source.NandChip

/-!
# The flash driver

`nandflash_k9f4g08u0b.c`: erasing a block, reading and programming a page with
its spare area. Page numbers are split into row bytes; the erase computes a byte
address first, with pages of 2112 bytes, and takes the row from its bits 12 to
29. Waiting for the part is not represented: it always becomes ready.
-/
namespace GasSub.Source
open GasSub.Library.ByteWord

def nandFlashBaseAddr : INT32U := 0
def nandFlashRwPageSize : Nat := 2048
def nandFlashSpareSize : Nat := 64
def nandFlashPageFsize : INT32U := 2112
def nandFlashBlockFsize : INT32U := nandFlashPageFsize * 64

/-- `NandFlash_ReadStatus` for a program or an erase: bit 0 tells a failure. -/
def nandFlashReadStatus (chip : Chip) : Bool × Chip :=
  let polled := (chip.cle 0x70).read
  let status := polled.2.read
  (status.1 &&& 0x01 = 0, status.2)

/-- The three row cycles of an access by byte address. -/
def sendRowAddress (chip : Chip) (rowAddr : INT32U) : Chip :=
  let chip := chip.ale (((rowAddr &&& 0x000FF000) >>> 12).setWidth 8)
  let chip := chip.ale (((rowAddr &&& 0x0FF00000) >>> 20).setWidth 8)
  chip.ale (((rowAddr &&& 0xF0000000) >>> 28).setWidth 8)

/-- `rowAddr` of an erase: a byte address rounded down to a block. -/
def blockByteAddr (blockNum : INT32U) : INT32U :=
  let rowAddr := nandFlashBaseAddr + blockNum * nandFlashBlockFsize
  rowAddr - rowAddr % nandFlashBlockFsize

def nandFlashBlockErase (chip : Chip) (blockNum : INT32U) : Bool × Chip :=
  let chip := sendRowAddress (chip.cle 0x60) (blockByteAddr blockNum)
  nandFlashReadStatus (chip.cle 0xD0)

/-- The five address cycles of a page access at column `off`. -/
def sendPageAddress (chip : Chip) (off page : INT32U) : Chip :=
  let chip := chip.ale ((off &&& 0x000000FF).setWidth 8)
  let chip := chip.ale (((off &&& 0x00000F00) >>> 8).setWidth 8)
  let chip := chip.ale ((page &&& 0x000000FF).setWidth 8)
  let chip := chip.ale (((page &&& 0x0000FF00) >>> 8).setWidth 8)
  chip.ale (((page &&& 0x000F0000) >>> 16).setWidth 8)

/-- What a page read returns and leaves in its buffers. -/
structure PageRead where
  ret : Int
  data : List INT8U
  spare : List INT8U
  chip : Chip

/-- `NandFlash_PageReadWithSpare` into the buffers asked for. -/
def nandFlashPageReadWithSpare (chip : Chip) (page : INT32U) (wantsData wantsSpare : Bool) :
    PageRead :=
  let off : INT32U := if wantsData then 0 else 2048
  let chip := chip.cle 0x00
  let chip := sendPageAddress chip off page
  let chip := chip.cle 0x30
  let data := if wantsData then chip.readBytes nandFlashRwPageSize else ([], chip)
  let spare := if wantsSpare then data.2.readBytes nandFlashSpareSize else ([], data.2)
  { ret := 1, data := data.1, spare := spare.1, chip := spare.2 }

/-- `NandFlash_PageProgramWithSpare`, where `dataLen` is the length of `data`. A
spare area whose first byte is not FF would mark the block bad: the function
then never returns, here `none`. -/
def nandFlashPageProgramWithSpare (chip : Chip) (page : INT32U) (data spare : Option (List INT8U)) :
    Option (Bool × Chip) :=
  if spare.any fun (bytes : List INT8U) => bytes.head? ≠ some 0xFF then none
  else
    let off : INT32U := if data.isSome then 0 else 2048
    let chip := chip.cle 0x80
    let chip := sendPageAddress chip off page
    let chip := match data with
      | none => chip
      | some bytes => bytes.foldl Chip.write chip
    let chip := match spare with
      | none => chip
      | some bytes =>
        let chip :=
          if data.any fun (written : List INT8U) => written.length ≠ nandFlashRwPageSize then
            let chip := chip.cle 0x85
            let chip := chip.ale (((2048 : INT32U) &&& 0x000000FF).setWidth 8)
            chip.ale ((((2048 : INT32U) &&& 0x00000F00) >>> 8).setWidth 8)
          else chip
        bytes.foldl Chip.write chip
    some (nandFlashReadStatus (chip.cle 0x10))

/-! ### Addresses -/

/-- A byte cut out of a word by mask and shift. -/
theorem toNat_maskedByte (v mask : BitVec 32) (low width : Nat) (narrow : width ≤ 8)
    (shape : (mask >>> low).toNat = 2 ^ width - 1) :
    (((v &&& mask) >>> low).setWidth 8).toNat = v.toNat / 2 ^ low % 2 ^ width := by
  have split : (v &&& mask) >>> low = (v >>> low) &&& (mask >>> low) := by
    apply BitVec.eq_of_getLsbD_eq
    intro i inside
    simp only [BitVec.getLsbD_ushiftRight, BitVec.getLsbD_and]
  have bound : v.toNat / 2 ^ low % 2 ^ width < 2 ^ 8 :=
    Nat.lt_of_lt_of_le (Nat.mod_lt _ (Nat.two_pow_pos width))
      (Nat.pow_le_pow_right (by omega) narrow)
  rw [split, BitVec.toNat_setWidth, BitVec.toNat_and, shape, Nat.and_two_pow_sub_one_eq_mod,
    BitVec.toNat_ushiftRight, Nat.shiftRight_eq_div_pow, Nat.mod_eq_of_lt bound]

/-- Rounding a word down to a multiple never wraps. -/
theorem toNat_sub_umod {w : Nat} (v m : BitVec w) :
    (v - v % m).toNat = v.toNat - v.toNat % m.toNat := by
  have below : v % m ≤ v := by
    rw [BitVec.le_def, BitVec.toNat_umod]
    exact Nat.mod_le _ _
  rw [BitVec.toNat_sub_of_le below, BitVec.toNat_umod]

/-- The byte address of block `blockNum` counts pages of 2112 bytes. -/
theorem toNat_blockByteAddr (blockNum : INT32U) (bound : blockNum.toNat < 4096) :
    (blockByteAddr blockNum).toNat = 135168 * blockNum.toNat := by
  have size : nandFlashBlockFsize.toNat = 135168 := by decide
  have zero : nandFlashBaseAddr.toNat = 0 := by decide
  have start : (nandFlashBaseAddr + blockNum * nandFlashBlockFsize).toNat =
      135168 * blockNum.toNat := by
    rw [BitVec.toNat_add, BitVec.toNat_mul, size, zero]
    omega
  unfold blockByteAddr
  rw [toNat_sub_umod, start, size, Nat.mul_mod_right, Nat.sub_zero]

/-- The row cycles of a byte address latch its quotient by 4096. -/
theorem sendRowAddress_eq (chip : Chip) (rowAddr : INT32U) (expects : chip.mode = .eraseSetup)
    (start : chip.cycle = 0) :
    sendRowAddress chip rowAddr = { chip with cycle := 3, row := rowAddr.toNat / 4096 } := by
  have low := toNat_maskedByte rowAddr 0x000FF000 12 8 (by omega) rfl
  have mid := toNat_maskedByte rowAddr 0x0FF00000 20 8 (by omega) rfl
  have high := toNat_maskedByte rowAddr 0xF0000000 28 4 (by omega) rfl
  have bound := rowAddr.isLt
  simp only [sendRowAddress, ale_erase chip expects start, low, mid, high, Chip.mk.injEq, true_and,
    and_true]
  omega

/-- The address cycles of a page access latch the column and the page. -/
theorem sendPageAddress_eq (chip : Chip) (off page : INT32U)
    (expects : chip.mode = .readSetup ∨ chip.mode = .programSetup) (start : chip.cycle = 0)
    (offFits : off.toNat < 4096) (pageFits : page.toNat < 1048576) :
    sendPageAddress chip off page =
      { chip with cycle := 5, column := off.toNat, row := page.toNat } := by
  have low := toNat_maskedByte off 0x000000FF 0 8 (by omega) rfl
  have high := toNat_maskedByte off 0x00000F00 8 4 (by omega) rfl
  have rowLow := toNat_maskedByte page 0x000000FF 0 8 (by omega) rfl
  have rowMid := toNat_maskedByte page 0x0000FF00 8 8 (by omega) rfl
  have rowHigh := toNat_maskedByte page 0x000F0000 16 4 (by omega) rfl
  simp only [BitVec.ushiftRight_zero] at low rowLow
  simp only [sendPageAddress, ale_page chip expects start, low, high, rowLow, rowMid, rowHigh,
    Chip.mk.injEq, true_and, and_true]
  exact ⟨by omega, by omega⟩

/-! ### What the driver does to the cells -/

theorem nandFlashReadStatus_eq (chip : Chip) :
    nandFlashReadStatus chip = (!chip.failed, { chip with mode := .status }) := by
  have status : chip.cle 0x70 = { chip with mode := .status } := rfl
  unfold nandFlashReadStatus
  rw [status]
  simp only [Chip.read, if_true]
  cases chip.failed <;> rfl

/-- Polling the status reports the outcome and leaves the cells alone. -/
theorem nandFlashReadStatus_settled {before chip : Chip} {affected : Nat → Prop}
    {result : Nat → Nat → INT8U} (settled : Settled before chip affected result) :
    ∃ after, nandFlashReadStatus chip = (!after.failed, after) ∧
      Settled before after affected result :=
  ⟨{ chip with mode := .status }, nandFlashReadStatus_eq chip, settled.status, settled.frame,
    settled.done⟩

/-- The erase of block `blockNum` sends row `33 * blockNum`, and the part erases the
block of that row. -/
theorem nandFlashBlockErase_settled (chip : Chip) (blockNum : INT32U)
    (bound : blockNum.toNat < 4096) :
    ∃ after, nandFlashBlockErase chip blockNum = (!after.failed, after) ∧
      Settled chip after (fun r => r / rowsPerBlock = 33 * blockNum.toNat / rowsPerBlock)
        fun _ _ => 0xFF := by
  have row : 135168 * blockNum.toNat / 4096 % numRows = 33 * blockNum.toNat := by
    unfold numRows
    omega
  have sent := sendRowAddress_eq (chip.cle 0x60) (blockByteAddr blockNum) rfl rfl
  rw [toNat_blockByteAddr blockNum bound] at sent
  have settled := cle_erase { chip.cle 0x60 with cycle := 3, row := 135168 * blockNum.toNat / 4096 }
  simp only [row] at settled
  obtain ⟨after, status, result⟩ := nandFlashReadStatus_settled settled
  refine ⟨after, ?_, result.status, result.frame, result.done⟩
  exact (congrArg (fun s : Chip => nandFlashReadStatus (s.cle 0xD0)) sent).trans status

/-- What programming a page sends to the page register. -/
def pageImage (data spare : List INT8U) (c : Nat) : INT8U :=
  if c < nandFlashRwPageSize then (data[c]?).getD 0xFF
  else (spare[c - nandFlashRwPageSize]?).getD 0xFF

/-- Data and spare bytes written one after another make up the page image. -/
theorem register_image (s : Chip) (data spare : List INT8U) (start : s.column = 0)
    (blank : s.register = fun _ => 0xFF) (dataSize : data.length = nandFlashRwPageSize)
    (spareSize : spare.length = nandFlashSpareSize) :
    spare.foldl Chip.write (data.foldl Chip.write s) =
      { s with register := pageImage data spare, column := 2112 } := by
  have first := foldl_write data s (by rw [start, dataSize]; decide)
  rw [first, foldl_write spare _ (by simp only [start, dataSize, spareSize]; decide)]
  simp only [start, blank, dataSize, spareSize, nandFlashRwPageSize, nandFlashSpareSize,
    Chip.mk.injEq, true_and, and_true, Nat.zero_add, Nat.zero_le, if_true, Nat.sub_zero,
    Nat.reduceAdd]
  funext c
  unfold pageImage nandFlashRwPageSize
  by_cases inData : c < 2048
  · rw [if_neg (by omega), if_pos inData]
  · have past : data[c]? = none := List.getElem?_eq_none (by rw [dataSize]; unfold nandFlashRwPageSize; omega)
    rw [if_pos (by omega), if_neg inData, past]
    rfl

/-- A page and its spare area are programmed into their own row. -/
theorem nandFlashPageProgramWithSpare_settled (chip : Chip) (page : INT32U)
    (data spare : List INT8U) (bound : page.toNat < numRows)
    (dataSize : data.length = nandFlashRwPageSize) (spareSize : spare.length = nandFlashSpareSize)
    (unmarked : spare.head? = some 0xFF) :
    ∃ after, nandFlashPageProgramWithSpare chip page (some data) (some spare) =
        some (!after.failed, after) ∧
      Settled chip after (fun r => r = page.toNat)
        fun r c => chip.cells r c &&& pageImage data spare c := by
  have fits : page.toNat < 1048576 := by
    unfold numRows at bound
    omega
  have row : page.toNat % numRows = page.toNat := Nat.mod_eq_of_lt bound
  have sent := sendPageAddress_eq (chip.cle 0x80) 0 page (Or.inr rfl) rfl (by decide) fits
  have filled := register_image { chip.cle 0x80 with cycle := 5, column := 0, row := page.toNat }
    data spare rfl rfl dataSize spareSize
  have settled := cle_program { chip.cle 0x80 with
    cycle := 5, column := 2112, row := page.toNat, register := pageImage data spare }
  simp only [row] at settled
  have zero : (0 : INT32U).toNat = 0 := rfl
  obtain ⟨after, status, result⟩ := nandFlashReadStatus_settled settled
  refine ⟨after, ?_, result.status, result.frame, result.done⟩
  rw [← status]
  unfold nandFlashPageProgramWithSpare
  simp only [Option.any_some, unmarked, ne_eq, not_true_eq_false, decide_false,
    Bool.false_eq_true, if_false, Option.isSome_some, if_true, dataSize, sent, zero, filled]

/-- The page register after the read command. -/
theorem cle_read (chip : Chip) (off page : INT32U) (offFits : off.toNat < 4096)
    (bound : page.toNat < numRows) :
    (sendPageAddress (chip.cle 0x00) off page).cle 0x30 =
      { chip with
        mode := .reading
        cycle := 5
        column := off.toNat
        row := page.toNat
        register := chip.cells page.toNat } := by
  have fits : page.toNat < 1048576 := by
    unfold numRows at bound
    omega
  have cell := congrArg chip.cells (Nat.mod_eq_of_lt bound)
  rw [sendPageAddress_eq (chip.cle 0x00) off page (Or.inl rfl) rfl offFits fits]
  simp only [Chip.cle, BitVec.reduceEq, if_true, if_false, cell]

/-- A page read returns its row and leaves the cells alone. -/
theorem nandFlashPageReadWithSpare_eq (chip : Chip) (page : INT32U) (wantsData : Bool)
    (bound : page.toNat < numRows) :
    ∃ after, nandFlashPageReadWithSpare chip page wantsData true =
        { ret := 1
          data := if wantsData then
              (List.range nandFlashRwPageSize).map (chip.cells page.toNat)
            else []
          spare := (List.range nandFlashSpareSize).map fun i =>
            chip.cells page.toNat (nandFlashRwPageSize + i)
          chip := after } ∧
      after.cells = chip.cells := by
  have start : (0 : INT32U).toNat = 0 := rfl
  have spareStart : (2048 : INT32U).toNat = nandFlashRwPageSize := rfl
  let after : Chip :=
    { chip with
      mode := .reading
      cycle := 5
      column := nandFlashRwPageSize + nandFlashSpareSize
      row := page.toNat
      register := chip.cells page.toNat }
  refine ⟨after, ?_, rfl⟩
  unfold nandFlashPageReadWithSpare
  cases wantsData with
  | true =>
    simp only [if_true, cle_read chip 0 page (by decide) bound, start]
    rw [readBytes_eq _ _ (fun reading => by cases reading),
      readBytes_eq _ _ (fun reading => by cases reading)]
    simp only [Nat.zero_add, after]
  | false =>
    simp only [Bool.false_eq_true, if_false, if_true, cle_read chip 2048 page (by decide) bound,
      spareStart]
    rw [readBytes_eq _ _ (fun reading => by cases reading)]

end GasSub.Source
