import GasSub.Library.ByteMemory
import GasSub.Source.NandFlash

/-!
# Flash access by byte address

The functions of `nandflash_k9f4g08u0b.c` that take a block and a page, and read or
program at the byte address they stand for: pages of 2112 bytes, one after another.
The row cycles carry the bits from 12 on of that address. Of a read, the bytes
stored through `bufPtr` are kept in the order of the stores.
-/
namespace GasSub.Source
open GasSub.Library.ByteMemory

def nandFlashInvalidblockCheckColumm : INT32U := 2048

/-- What a read returns, the addresses it stores to with the bytes, and the part after it. -/
structure AddrRead where
  ret : Int
  stores : List (Nat × INT8U)
  chip : Chip

/-- The caller's memory after the stores. -/
def AddrRead.memory (r : AddrRead) (before : Memory) : Memory :=
  r.stores.foldl (fun memory byte => store memory byte.1 [byte.2]) before

/-- The loop of `NandFlash_ReadFromAddr`, with `left` bytes to the end of the page. -/
def readLoop (size : INT32U) : Nat → Nat → Nat → Chip → AddrRead
  | 0, i, _, chip => { ret := i, stores := [], chip := chip }
  | left + 1, i, bufPtr, chip =>
    let byte := chip.read
    if size.toNat ≤ i + 1 then { ret := i, stores := [(bufPtr, byte.1)], chip := byte.2 }
    else
      let rest := readLoop size left (i + 1) (bufPtr + 1) byte.2
      { rest with stores := (bufPtr, byte.1) :: rest.stores }

/-- The five address cycles of an access by byte address. -/
def sendByteAddress (chip : Chip) (curColumm curRow : INT32U) : Chip :=
  let chip := chip.ale ((curColumm &&& 0x000000FF).setWidth 8)
  let chip := chip.ale (((curColumm &&& 0x00000F00) >>> 8).setWidth 8)
  sendRowAddress chip curRow

def nandFlashReadFromAddr (chip : Chip) (addrInWholeNand : INT32U) (bufPtr : Nat) (size : INT32U) :
    AddrRead :=
  let curColumm := addrInWholeNand % nandFlashPageFsize
  let curRow := addrInWholeNand - curColumm
  let chip := sendByteAddress (chip.cle 0x00) curColumm curRow
  let chip := chip.cle 0x30
  readLoop size (nandFlashPageFsize - curColumm).toNat 0 bufPtr chip

def nandFlashPageReadFromAddr (chip : Chip) (blockNum pageNum addrInPage : INT32U) (bufPtr : Nat)
    (size : INT32U) : AddrRead :=
  let curAddr : INT32U := 0
  let curAddr := curAddr + (nandFlashBaseAddr + blockNum * nandFlashBlockFsize)
  let curAddr := curAddr + pageNum * nandFlashPageFsize
  let curAddr := curAddr + addrInPage
  nandFlashReadFromAddr chip curAddr bufPtr size

def nandFlashPageReadFromBeginning (chip : Chip) (blockNum pageNum : INT32U) (bufPtr : Nat) :
    AddrRead :=
  nandFlashPageReadFromAddr chip blockNum pageNum 0 bufPtr nandFlashPageFsize

/-- `NandFlash_PageRead`, which hands its page to the parameter for the block and its block
to the one for the page. -/
def nandFlashPageRead (chip : Chip) (pageNum blockNum : INT32U) (bufPtr : Nat) : Bool × AddrRead :=
  let read := nandFlashPageReadFromBeginning chip pageNum blockNum bufPtr
  (read.ret ≠ 0, read)

def nandFlashPageProgram (chip : Chip) (pageNum blockNum : INT32U) (bufPtr : Vector INT8U 2048) :
    Bool × Chip :=
  let curAddr := nandFlashBaseAddr + blockNum * nandFlashBlockFsize + pageNum * nandFlashPageFsize
  let curColumm := curAddr % nandFlashPageFsize
  let curAddr := curAddr - curColumm
  let chip := sendByteAddress (chip.cle 0x80) curColumm curAddr
  let chip := bufPtr.toList.foldl Chip.write chip
  nandFlashReadStatus (chip.cle 0x10)

/-- The loop of `NandFlash_ValidBlockCheck` over the pages left to check; `data` keeps its
value from one page to the next. -/
def checkPages (block : INT32U) : List INT32U → INT8U → Chip → Bool × Chip
  | [], _, chip => (true, chip)
  | page :: rest, data, chip =>
    let read := nandFlashPageReadFromAddr chip block page nandFlashInvalidblockCheckColumm 0 1
    let data := read.memory (fun _ => data) 0
    if data ≠ 0xFF then (false, read.chip) else checkPages block rest data read.chip

def nandFlashValidBlockCheck (chip : Chip) (block : INT32U) : Bool × Chip :=
  checkPages block [0, 1] 0 chip

/-! ### The bytes a read stores -/

/-- `count` bytes from `column` on, stored from `bufPtr` on. -/
def storedRun (row : Nat → INT8U) (column bufPtr count : Nat) : List (Nat × INT8U) :=
  (List.range count).map fun i => (bufPtr + i, row (column + i))

theorem length_storedRun (row : Nat → INT8U) (column bufPtr count : Nat) :
    (storedRun row column bufPtr count).length = count := by
  rw [storedRun, List.length_map, List.length_range]

theorem storedRun_succ (row : Nat → INT8U) (column bufPtr count : Nat) :
    storedRun row column bufPtr (count + 1) =
      (bufPtr, row column) :: storedRun row (column + 1) (bufPtr + 1) count := by
  simp only [storedRun, map_range_succ, Nat.add_zero, Nat.add_assoc, Nat.add_comm 1]

/-- A run of stores is one store of its bytes. -/
theorem foldl_storedRun (row : Nat → INT8U) (column bufPtr count : Nat) (before : Memory) :
    (storedRun row column bufPtr count).foldl
        (fun memory byte => store memory byte.1 [byte.2]) before =
      store before bufPtr ((List.range count).map fun i => row (column + i)) := by
  induction count generalizing column bufPtr before with
  | zero => exact (store_nil before bufPtr).symm
  | succ count ih =>
    have split : ((List.range (count + 1)).map fun i => row (column + i)) =
        [row column] ++ (List.range count).map fun i => row (column + 1 + i) := by
      simp only [map_range_succ, Nat.add_zero, Nat.add_assoc, Nat.add_comm 1, List.singleton_append]
    rw [storedRun_succ, List.foldl_cons, ih, split, store_append]
    rfl

/-- What the loop returns: the byte that `size` ends at is not counted. -/
def loopCount (size left i : Nat) : Nat :=
  if size ≤ i + left ∧ 0 < left then max (size - 1) i else i + left

/-- The loop stores up to the end of the page, or up to `size` but at least one byte. -/
theorem readLoop_eq (size : INT32U) (left i bufPtr : Nat) (chip : Chip)
    (data : chip.mode ≠ .status) :
    ∃ after, readLoop size left i bufPtr chip =
        { ret := loopCount size.toNat left i
          stores := storedRun chip.register chip.column bufPtr (min left (max (size.toNat - i) 1))
          chip := after } ∧
      after.cells = chip.cells := by
  induction left generalizing i bufPtr chip with
  | zero =>
    have count : loopCount size.toNat 0 i = i := if_neg fun both => Nat.lt_irrefl 0 both.2
    refine ⟨chip, ?_, rfl⟩
    rw [readLoop, count, Nat.zero_min]
    rfl
  | succ left ih =>
    have byte : chip.read = (chip.register chip.column, { chip with column := chip.column + 1 }) :=
      if_neg data
    rw [readLoop, byte]
    by_cases last : size.toNat ≤ i + 1
    · have one : min (left + 1) (max (size.toNat - i) 1) = 0 + 1 := by omega
      have count : loopCount size.toNat (left + 1) i = i := by
        unfold loopCount
        rw [if_pos (by omega)]
        omega
      simp only [if_pos last, one, count, storedRun_succ]
      exact ⟨_, rfl, rfl⟩
    · obtain ⟨after, rest, kept⟩ := ih (i + 1) (bufPtr + 1) { chip with column := chip.column + 1 } data
      have more : min (left + 1) (max (size.toNat - i) 1) =
          min left (max (size.toNat - (i + 1)) 1) + 1 := by omega
      have count : loopCount size.toNat left (i + 1) = loopCount size.toNat (left + 1) i := by
        unfold loopCount
        split <;> split <;> omega
      simp only [if_neg last, rest, more, storedRun_succ, count]
      exact ⟨after, rfl, kept⟩

/-! ### Addresses -/

/-- The cycles of a byte address latch the column and the quotient of the rest by 4096. -/
theorem sendByteAddress_eq (chip : Chip) (curColumm curRow : INT32U)
    (expects : chip.mode = .readSetup ∨ chip.mode = .programSetup) (start : chip.cycle = 0)
    (fits : curColumm.toNat < 4096) :
    sendByteAddress chip curColumm curRow =
      { chip with cycle := 5, column := curColumm.toNat, row := curRow.toNat / 4096 } := by
  have columnLow := toNat_maskedByte curColumm 0x000000FF 0 8 (by omega) rfl
  have columnHigh := toNat_maskedByte curColumm 0x00000F00 8 4 (by omega) rfl
  have low := toNat_maskedByte curRow 0x000FF000 12 8 (by omega) rfl
  have mid := toNat_maskedByte curRow 0x0FF00000 20 8 (by omega) rfl
  have high := toNat_maskedByte curRow 0xF0000000 28 4 (by omega) rfl
  have bound := curRow.isLt
  simp only [BitVec.ushiftRight_zero] at columnLow
  simp only [sendByteAddress, sendRowAddress, ale_page chip expects start, columnLow, columnHigh,
    low, mid, high, Chip.mk.injEq, true_and, and_true]
  exact ⟨by omega, by omega⟩

theorem toNat_pageFsize : nandFlashPageFsize.toNat = 2112 := rfl

/-- The row that the part selects for a byte address. -/
def rowOfAddr (addr : Nat) : Nat := (addr - addr % 2112) / 4096 % numRows

/-- A read by byte address stores the bytes of the row that the address selects, and leaves
the cells alone. -/
theorem nandFlashReadFromAddr_eq (chip : Chip) (addr : INT32U) (bufPtr : Nat) (size : INT32U) :
    ∃ after, nandFlashReadFromAddr chip addr bufPtr size =
        { ret := loopCount size.toNat (2112 - addr.toNat % 2112) 0
          stores := storedRun (chip.cells (rowOfAddr addr.toNat)) (addr.toNat % 2112) bufPtr
            (min (2112 - addr.toNat % 2112) (max size.toNat 1))
          chip := after } ∧
      after.cells = chip.cells := by
  have column : (addr % nandFlashPageFsize).toNat = addr.toNat % 2112 := BitVec.toNat_umod
  have inPage : addr.toNat % 2112 < 2112 := Nat.mod_lt _ (by decide)
  have row : (addr - addr % nandFlashPageFsize).toNat = addr.toNat - addr.toNat % 2112 :=
    toNat_sub_umod addr nandFlashPageFsize
  have left : (nandFlashPageFsize - addr % nandFlashPageFsize).toNat =
      2112 - addr.toNat % 2112 := by
    have below : addr % nandFlashPageFsize ≤ nandFlashPageFsize := by
      rw [BitVec.le_def, column]
      exact Nat.le_of_lt inPage
    rw [BitVec.toNat_sub_of_le below, column, toNat_pageFsize]
  have sent := sendByteAddress_eq (chip.cle 0x00) (addr % nandFlashPageFsize)
    (addr - addr % nandFlashPageFsize) (Or.inl rfl) rfl (by omega)
  rw [column, row] at sent
  obtain ⟨after, result, kept⟩ := readLoop_eq size (2112 - addr.toNat % 2112) 0 bufPtr
    (Chip.cle { chip.cle 0x00 with
      cycle := 5
      column := addr.toNat % 2112
      row := (addr.toNat - addr.toNat % 2112) / 4096 } 0x30) (fun status => nomatch status)
  refine ⟨after, ?_, kept⟩
  unfold nandFlashReadFromAddr
  simp only [sent, left]
  exact result

theorem AddrRead.memory_eq (after : Chip) (ret : Int) (row : Nat → INT8U)
    (column bufPtr count : Nat) (before : Memory) :
    AddrRead.memory { ret := ret, stores := storedRun row column bufPtr count, chip := after } before =
      store before bufPtr ((List.range count).map fun i => row (column + i)) :=
  foldl_storedRun row column bufPtr count before

/-! ### Rows by block and page -/

/-- The row at the byte address of a page: pages are 2112 bytes apart, rows 4096. -/
def rowOfPage (blockNum pageNum : Nat) : Nat := 33 * (64 * blockNum + pageNum) / 64

theorem rowOfPage_lt {blockNum pageNum : Nat} (blockBound : blockNum < 4096)
    (pageBound : pageNum < 4096) : rowOfPage blockNum pageNum < numRows := by
  unfold rowOfPage numRows
  omega

theorem toNat_pageAddr {blockNum pageNum : INT32U} (blockBound : blockNum.toNat < 4096)
    (pageBound : pageNum.toNat < 4096) :
    (nandFlashBaseAddr + blockNum * nandFlashBlockFsize + pageNum * nandFlashPageFsize).toNat =
      2112 * (64 * blockNum.toNat + pageNum.toNat) := by
  have blockSize : nandFlashBlockFsize.toNat = 135168 := by decide
  have zero : nandFlashBaseAddr.toNat = 0 := by decide
  rw [BitVec.toNat_add, BitVec.toNat_add, BitVec.toNat_mul, BitVec.toNat_mul, blockSize, zero,
    toNat_pageFsize]
  omega

theorem rowOfAddr_page {blockNum pageNum column : Nat} (blockBound : blockNum < 4096)
    (pageBound : pageNum < 4096) (inPage : column < 2112) :
    rowOfAddr (2112 * (64 * blockNum + pageNum) + column) = rowOfPage blockNum pageNum := by
  have row := rowOfPage_lt blockBound pageBound
  have offset : (2112 * (64 * blockNum + pageNum) + column) % 2112 = column := by omega
  have quotient : 2112 * (64 * blockNum + pageNum) / 4096 = rowOfPage blockNum pageNum := by
    unfold rowOfPage
    omega
  rw [rowOfAddr, offset, Nat.add_sub_cancel, quotient, Nat.mod_eq_of_lt row]

/-- A read within a page, by block and page. -/
theorem nandFlashPageReadFromAddr_eq (chip : Chip) {blockNum pageNum addrInPage : INT32U}
    (bufPtr : Nat) (size : INT32U) (blockBound : blockNum.toNat < 4096)
    (pageBound : pageNum.toNat < 4096) (inPage : addrInPage.toNat < 2112) :
    ∃ after, nandFlashPageReadFromAddr chip blockNum pageNum addrInPage bufPtr size =
        { ret := loopCount size.toNat (2112 - addrInPage.toNat) 0
          stores := storedRun (chip.cells (rowOfPage blockNum.toNat pageNum.toNat))
            addrInPage.toNat bufPtr (min (2112 - addrInPage.toNat) (max size.toNat 1))
          chip := after } ∧
      after.cells = chip.cells := by
  have page := toNat_pageAddr blockBound pageBound
  have addr : (0 + (nandFlashBaseAddr + blockNum * nandFlashBlockFsize) +
      pageNum * nandFlashPageFsize + addrInPage).toNat =
      2112 * (64 * blockNum.toNat + pageNum.toNat) + addrInPage.toNat := by
    have first : 0 + (nandFlashBaseAddr + blockNum * nandFlashBlockFsize) =
        nandFlashBaseAddr + blockNum * nandFlashBlockFsize := BitVec.zero_add _
    rw [first, BitVec.toNat_add, page]
    omega
  have column : (2112 * (64 * blockNum.toNat + pageNum.toNat) + addrInPage.toNat) % 2112 =
      addrInPage.toNat := by omega
  obtain ⟨after, read, kept⟩ := nandFlashReadFromAddr_eq chip
    (0 + (nandFlashBaseAddr + blockNum * nandFlashBlockFsize) + pageNum * nandFlashPageFsize +
      addrInPage) bufPtr size
  rw [addr, column, rowOfAddr_page blockBound pageBound inPage] at read
  exact ⟨after, read, kept⟩

/-- The page register after the data bytes alone. -/
theorem pageImage_data {data : List INT8U} (size : data.length = nandFlashRwPageSize) :
    (fun c => if 0 ≤ c then (data[c - 0]?).getD 0xFF else 0xFF) = pageImage data [] := by
  funext c
  rw [if_pos (Nat.zero_le c), Nat.sub_zero, pageImage]
  split
  · rfl
  · case isFalse past =>
    rw [List.getElem?_eq_none (by omega)]
    rfl

/-- A page program clears bits of the row at its byte address. -/
theorem nandFlashPageProgram_settled (chip : Chip) {pageNum blockNum : INT32U}
    (bufPtr : Vector INT8U 2048) (blockBound : blockNum.toNat < 4096)
    (pageBound : pageNum.toNat < 4096) :
    ∃ after, nandFlashPageProgram chip pageNum blockNum bufPtr = (!after.failed, after) ∧
      Settled chip after (fun r => r = rowOfPage blockNum.toNat pageNum.toNat)
        fun r c => chip.cells r c &&& pageImage bufPtr.toList [] c := by
  have addr := toNat_pageAddr blockBound pageBound
  let curAddr := nandFlashBaseAddr + blockNum * nandFlashBlockFsize + pageNum * nandFlashPageFsize
  have column : (curAddr % nandFlashPageFsize).toNat = 0 := by
    rw [BitVec.toNat_umod, addr, toNat_pageFsize, Nat.mul_mod_right]
  have start : (curAddr - curAddr % nandFlashPageFsize).toNat =
      2112 * (64 * blockNum.toNat + pageNum.toNat) := by
    rw [toNat_sub_umod, addr, toNat_pageFsize, Nat.mul_mod_right, Nat.sub_zero]
  have sent := sendByteAddress_eq (chip.cle 0x80) (curAddr % nandFlashPageFsize)
    (curAddr - curAddr % nandFlashPageFsize) (Or.inr rfl) rfl (by omega)
  have row : 2112 * (64 * blockNum.toNat + pageNum.toNat) / 4096 =
      rowOfPage blockNum.toNat pageNum.toNat := by
    unfold rowOfPage
    omega
  rw [column, start, row] at sent
  have size : bufPtr.toList.length = 2048 := Vector.length_toList
  have fits : 0 + bufPtr.toList.length ≤ pageFsize := by
    rw [size]
    decide
  have filled := foldl_write bufPtr.toList
    { chip.cle 0x80 with
      cycle := 5
      column := 0
      row := rowOfPage blockNum.toNat pageNum.toNat } fits
  have settled := cle_program { chip.cle 0x80 with
    cycle := 5
    column := 0 + bufPtr.toList.length
    row := rowOfPage blockNum.toNat pageNum.toNat
    register := fun c => if 0 ≤ c then (bufPtr.toList[c - 0]?).getD 0xFF else 0xFF }
  simp only [Nat.mod_eq_of_lt (rowOfPage_lt blockBound pageBound)] at settled
  obtain ⟨after, status, result⟩ := nandFlashReadStatus_settled settled
  refine ⟨after, ?_, result.status, result.frame, fun passes r inside => ?_⟩
  · have written := (congrArg (bufPtr.toList.foldl Chip.write) sent).trans filled
    rw [← status]
    exact congrArg (fun s : Chip => nandFlashReadStatus (s.cle 0x10)) written
  · rw [← pageImage_data size]
    exact result.done passes r inside

end GasSub.Source
