import GasSub.Source.NandAddress

/-!
# Pages read and programmed by block and page number

`NandFlash_ReadFromAddr` for every address and size, and the pair
`NandFlash_PageProgram` and `NandFlash_PageRead` for every two pages. A page lies at
a byte address with pages of 2112 bytes while the rows are cut out of that address
4096 bytes apart, so neighbouring pages can share a row; and the read takes its block
for a page and its page for a block.
-/
namespace GasSub.Guarantees.RawPages
open GasSub.Source GasSub.Library.ByteMemory

/-! ### Bounded reads -/

/-- The bytes that a read at `addr` is to store. -/
def promisedCount (addr size : INT32U) : Nat := min size.toNat (2112 - addr.toNat % 2112)

/-- Exactly the bytes promised are stored, in the order of the columns, nothing else in memory
changes, and their number is returned. -/
structure BoundedRead (chip : Chip) (addr : INT32U) (bufPtr : Nat) (size : INT32U) : Prop where
  stores : (nandFlashReadFromAddr chip addr bufPtr size).stores =
    storedRun (chip.cells (rowOfAddr addr.toNat)) (addr.toNat % 2112) bufPtr
      (promisedCount addr size)
  untouched : ∀ before a, a < bufPtr ∨ bufPtr + promisedCount addr size ≤ a →
    (nandFlashReadFromAddr chip addr bufPtr size).memory before a = before a
  counted : (nandFlashReadFromAddr chip addr bufPtr size).ret = promisedCount addr size

/-- A read keeps its promise exactly when it is asked for more than the rest of the page. -/
theorem boundedRead_iff (chip : Chip) (addr : INT32U) (bufPtr : Nat) (size : INT32U) :
    BoundedRead chip addr bufPtr size ↔ 2112 - addr.toNat % 2112 < size.toNat := by
  obtain ⟨after, read, -⟩ := nandFlashReadFromAddr_eq chip addr bufPtr size
  have inPage : addr.toNat % 2112 < 2112 := Nat.mod_lt _ (by decide)
  constructor
  · intro bounded
    have lengths := congrArg List.length bounded.stores
    have counted := Int.ofNat.inj (bounded.counted.symm.trans (congrArg AddrRead.ret read))
    rw [read, length_storedRun, length_storedRun] at lengths
    unfold loopCount promisedCount at *
    split at counted <;> omega
  · intro more
    have count : min (2112 - addr.toNat % 2112) (max size.toNat 1) = promisedCount addr size := by
      unfold promisedCount
      omega
    have counted : loopCount size.toNat (2112 - addr.toNat % 2112) 0 = promisedCount addr size := by
      unfold loopCount promisedCount
      rw [if_neg (by omega)]
      omega
    rw [count, counted] at read
    refine ⟨by rw [read], fun before a outside => ?_, by rw [read]⟩
    rw [read, AddrRead.memory_eq]
    refine store_outside before bufPtr a _ ?_
    rw [List.length_map, List.length_range]
    exact outside

/-- A chip that holds anything. -/
def anyChip (cells : Nat → Nat → INT8U) (verdict : Outcome) : Chip where
  cells := cells
  mode := .idle
  cycle := 0
  column := 0
  row := 0
  register := fun _ => 0xFF
  failed := false
  verdict := verdict

def erasedChip : Chip := anyChip (fun _ _ => 0xFF) .pass

/-- Sixteen bytes are asked for and stored, and fifteen are reported. -/
theorem sixteen_read : ¬ BoundedRead erasedChip 0 0 16 := by
  intro bounded
  have counted := bounded.counted
  have fifteen : (nandFlashReadFromAddr erasedChip 0 0 16).ret = 15 := by decide +kernel
  rw [fifteen] at counted
  exact absurd counted (by decide)

/-! ### Pages -/

def Erased (chip : Chip) : Prop := ∀ r < numRows, ∀ c < 2112, chip.cells r c = 0xFF

/-- What is programmed into a page of an erased part is read back from it. -/
def RoundTrip (chip : Chip) (block page : INT32U) (buf : Vector INT8U 2048) : Prop :=
  ∀ out before i, (inside : i < 2048) →
    (nandFlashPageRead (nandFlashPageProgram chip page block buf).2 page block out).2.memory before
      (out + i) = buf[i]

/-- What reading a page returns does not depend on whether another one was programmed. -/
def Isolated (chip : Chip) (block page block' page' : INT32U) (buf : Vector INT8U 2048) : Prop :=
  ∀ out,
    (nandFlashPageRead (nandFlashPageProgram chip page block buf).2 page' block' out).1 =
        (nandFlashPageRead chip page' block' out).1 ∧
      (nandFlashPageRead (nandFlashPageProgram chip page block buf).2 page' block' out).2.stores =
        (nandFlashPageRead chip page' block' out).2.stores

/-- Programming `buf` clears no bit of row `r`. -/
def ClearsNothing (chip : Chip) (r : Nat) (buf : Vector INT8U 2048) : Prop :=
  ∀ c, (inside : c < 2048) → chip.cells r c &&& buf[c] = chip.cells r c

/-- The read goes to the row of the page whose block and page number are exchanged. -/
theorem nandFlashPageRead_eq (chip : Chip) {page block : INT32U} (out : Nat)
    (pageBound : page.toNat < 4096) (blockBound : block.toNat < 4096) :
    ∃ after, nandFlashPageRead chip page block out =
      (true,
        { ret := (2111 : Nat)
          stores := storedRun (chip.cells (rowOfPage page.toNat block.toNat)) 0 out 2112
          chip := after }) := by
  have zero : (0 : INT32U).toNat = 0 := rfl
  obtain ⟨after, read, -⟩ := nandFlashPageReadFromAddr_eq chip out nandFlashPageFsize pageBound
    blockBound (by decide : (0 : INT32U).toNat < 2112)
  have count : loopCount nandFlashPageFsize.toNat (2112 - (0 : INT32U).toNat) 0 = 2111 := by decide
  have size : min (2112 - (0 : INT32U).toNat) (max nandFlashPageFsize.toNat 1) = 2112 := by decide
  rw [count, size, zero] at read
  refine ⟨after, ?_⟩
  unfold nandFlashPageRead nandFlashPageReadFromBeginning
  rw [read]
  rfl

theorem nandFlashPageRead_stores (chip : Chip) {page block : INT32U} (out : Nat)
    (pageBound : page.toNat < 4096) (blockBound : block.toNat < 4096) :
    (nandFlashPageRead chip page block out).2.stores =
        storedRun (chip.cells (rowOfPage page.toNat block.toNat)) 0 out 2112 ∧
      (nandFlashPageRead chip page block out).1 = true := by
  obtain ⟨after, read⟩ := nandFlashPageRead_eq chip out pageBound blockBound
  simp only [read, and_self]

/-- The rows that a page is programmed to and read from are the same for equal numbers only. -/
theorem rowOfPage_swap_iff {block page : Nat} :
    rowOfPage block page = rowOfPage page block ↔ block = page := by
  unfold rowOfPage
  omega

theorem pageImage_inside (buf : Vector INT8U 2048) {c : Nat} (inside : c < 2048) :
    pageImage buf.toList [] c = (buf[c]?).getD 0xFF := by
  have inData : c < nandFlashRwPageSize := inside
  rw [pageImage, if_pos inData, Vector.getElem?_toList]

theorem pageImage_outside (buf : Vector INT8U 2048) {c : Nat} (outside : ¬ c < 2048) :
    pageImage buf.toList [] c = 0xFF := by
  have inSpare : ¬ c < nandFlashRwPageSize := outside
  rw [pageImage, if_neg inSpare]
  rfl

/-- Programming a page clears bits in its row, and nothing elsewhere. -/
theorem programmed_cells {chip : Chip} {page block : INT32U} (buf : Vector INT8U 2048)
    (blockBound : block.toNat < 4096) (pageBound : page.toNat < 4096)
    (passes : chip.verdict.passes = true) (r c : Nat) :
    (nandFlashPageProgram chip page block buf).2.cells r c =
      if r = rowOfPage block.toNat page.toNat ∧ c < 2048 then
        chip.cells r c &&& (buf[c]?).getD 0xFF
      else chip.cells r c := by
  obtain ⟨after, programmed, settled⟩ := nandFlashPageProgram_settled chip buf blockBound pageBound
  rw [programmed]
  by_cases here : r = rowOfPage block.toNat page.toNat
  · have cell : after.cells r c = chip.cells r c &&& pageImage buf.toList [] c :=
      congrFun (settled.done passes r here) c
    rw [cell]
    by_cases inside : c < 2048
    · rw [if_pos ⟨here, inside⟩, pageImage_inside buf inside]
    · rw [if_neg fun both => inside both.2, pageImage_outside buf inside]
      exact BitVec.and_allOnes
  · rw [if_neg fun both => here both.1, settled.frame r here]

theorem nandFlashPageRead_memory (chip : Chip) {page block : INT32U} (out i : Nat)
    (pageBound : page.toNat < 4096) (blockBound : block.toNat < 4096) (inside : i < 2112)
    (before : Memory) :
    (nandFlashPageRead chip page block out).2.memory before (out + i) =
      chip.cells (rowOfPage page.toNat block.toNat) i := by
  obtain ⟨after, read⟩ := nandFlashPageRead_eq chip out pageBound blockBound
  rw [read, AddrRead.memory_eq, store_inside _ _ _ _ (by
    rw [List.length_map, List.length_range]
    exact inside)]
  rw [List.getElem_map, List.getElem_range, Nat.zero_add]

theorem pageRoundTrip_iff {chip : Chip} {block page : INT32U} (buf : Vector INT8U 2048)
    (blockBound : block.toNat < 4096) (pageBound : page.toNat < 64)
    (passes : chip.verdict.passes = true) (erased : Erased chip) :
    RoundTrip chip block page buf ↔ block = page ∨ ∀ i, (inside : i < 2048) → buf[i] = 0xFF := by
  have pageBound' : page.toNat < 4096 := by omega
  have row := rowOfPage_lt pageBound' blockBound
  have readBack : ∀ out before i, (inside : i < 2048) →
      (nandFlashPageRead (nandFlashPageProgram chip page block buf).2 page block out).2.memory
        before (out + i) = if block = page then buf[i] else 0xFF := by
    intro out before i inside
    have blank : chip.cells (rowOfPage page.toNat block.toNat) i = 0xFF := erased _ row i (by omega)
    rw [nandFlashPageRead_memory _ out i pageBound' blockBound (by omega) before,
      programmed_cells buf blockBound pageBound' passes, blank, Vector.getElem?_eq_getElem inside]
    by_cases same : block = page
    · rw [if_pos same, if_pos ⟨by rw [same], inside⟩]
      exact BitVec.allOnes_and
    · have apart : rowOfPage page.toNat block.toNat ≠ rowOfPage block.toNat page.toNat := by
        intro shared
        exact same (BitVec.eq_of_toNat_eq (rowOfPage_swap_iff.mp shared.symm))
      rw [if_neg same, if_neg fun both => apart both.1]
  constructor
  · intro trip
    by_cases same : block = page
    · exact Or.inl same
    · refine Or.inr fun i inside => ?_
      have byte := trip 0 (fun _ => 0) i inside
      rw [readBack 0 (fun _ => 0) i inside, if_neg same] at byte
      exact byte.symm
  · intro either out before i inside
    rw [readBack out before i inside]
    by_cases same : block = page
    · rw [if_pos same]
    · rw [if_neg same]
      exact (either.resolve_left same i inside).symm

theorem storedRun_inj (row row' : Nat → INT8U) (out count : Nat) :
    storedRun row 0 out count = storedRun row' 0 out count ↔ ∀ c < count, row c = row' c := by
  unfold storedRun
  rw [List.map_inj_left]
  constructor
  · intro same c inside
    have here := (Prod.mk.inj (same c (List.mem_range.mpr inside))).2
    rw [Nat.zero_add] at here
    exact here
  · intro same c member
    rw [Nat.zero_add, same c (List.mem_range.mp member)]

theorem pageIsolated_iff {chip : Chip} {block page block' page' : INT32U} (buf : Vector INT8U 2048)
    (blockBound : block.toNat < 4096) (pageBound : page.toNat < 64)
    (blockBound' : block'.toNat < 4096) (pageBound' : page'.toNat < 64)
    (passes : chip.verdict.passes = true) :
    Isolated chip block page block' page' buf ↔
      rowOfPage block.toNat page.toNat ≠ rowOfPage page'.toNat block'.toNat ∨
        ClearsNothing chip (rowOfPage block.toNat page.toNat) buf := by
  have reads : Isolated chip block page block' page' buf ↔ ∀ c < 2112,
      (nandFlashPageProgram chip page block buf).2.cells (rowOfPage page'.toNat block'.toNat) c =
        chip.cells (rowOfPage page'.toNat block'.toNat) c := by
    have pageFits : page'.toNat < 4096 := by omega
    have read := fun out => nandFlashPageRead_stores chip out pageFits blockBound'
    have read' := fun out => nandFlashPageRead_stores
      (nandFlashPageProgram chip page block buf).2 out pageFits blockBound'
    constructor
    · intro isolated
      have stores := (isolated 0).2
      rw [(read 0).1, (read' 0).1] at stores
      exact (storedRun_inj _ _ 0 2112).mp stores
    · intro cells out
      rw [(read out).1, (read' out).1, (read out).2, (read' out).2]
      exact ⟨rfl, (storedRun_inj _ _ out 2112).mpr cells⟩
  have programmed := programmed_cells buf blockBound (by omega : page.toNat < 4096) passes
  rw [reads]
  constructor
  · intro cells
    by_cases shared : rowOfPage block.toNat page.toNat = rowOfPage page'.toNat block'.toNat
    · refine Or.inr fun c inside => ?_
      have here := cells c (by omega)
      rw [programmed, ← shared, if_pos ⟨rfl, inside⟩, Vector.getElem?_eq_getElem inside] at here
      exact here
    · exact Or.inl shared
  · intro either c _
    rw [programmed]
    split
    · case isTrue here =>
      obtain ⟨shared, inside⟩ := here
      have clears := either.resolve_left fun apart => apart shared.symm
      rw [Vector.getElem?_eq_getElem inside, shared]
      exact clears c inside
    · rfl

/-- Where the part carries the program out: the round trip holds for equal numbers and for a
buffer of FF only; another page is left alone exactly when the row it is read from is another
one, or nothing is cleared. -/
theorem rawPages_iff {chip : Chip} {block page block' page' : INT32U} (buf : Vector INT8U 2048)
    (blockBound : block.toNat < 4096) (pageBound : page.toNat < 64)
    (blockBound' : block'.toNat < 4096) (pageBound' : page'.toNat < 64)
    (passes : chip.verdict.passes = true) :
    (Erased chip → (RoundTrip chip block page buf ↔
      block = page ∨ ∀ i, (inside : i < 2048) → buf[i] = 0xFF)) ∧
    (Isolated chip block page block' page' buf ↔
      rowOfPage block.toNat page.toNat ≠ rowOfPage page'.toNat block'.toNat ∨
        ClearsNothing chip (rowOfPage block.toNat page.toNat) buf) :=
  ⟨fun erased => pageRoundTrip_iff buf blockBound pageBound passes erased,
    pageIsolated_iff buf blockBound pageBound blockBound' pageBound' passes⟩

def zeros : Vector INT8U 2048 := Vector.replicate 2048 0

theorem rawPages_sample :
    (Erased erasedChip → (RoundTrip erasedChip 0 1 zeros ↔
      (0 : INT32U) = 1 ∨ ∀ i, (inside : i < 2048) → zeros[i] = 0xFF)) ∧
    (Isolated erasedChip 0 1 7 3 zeros ↔
      rowOfPage 0 1 ≠ rowOfPage 3 7 ∨ ClearsNothing erasedChip (rowOfPage 0 1) zeros) :=
  rawPages_iff zeros (by decide) (by decide) (by decide) (by decide) rfl

/-- Zeros programmed into page 1 of block 0 are looked for in page 0 of block 1; and programmed
into page 0 of block 0, they show in page 0 of block 1. -/
theorem wrong_page :
    Erased erasedChip ∧ ¬ RoundTrip erasedChip 0 1 zeros ∧ ¬ Isolated erasedChip 0 0 1 0 zeros := by
  have erased : Erased erasedChip := fun _ _ _ _ => rfl
  have first : zeros[0] = 0 := Vector.getElem_replicate (by decide)
  refine ⟨erased, fun trip => ?_, fun isolated => ?_⟩
  · rcases (pageRoundTrip_iff zeros (by decide) (by decide) rfl erased).mp trip with same | blank
    · exact absurd same (by decide)
    · have byte := blank 0 (by decide)
      rw [first] at byte
      exact absurd byte (by decide)
  · rcases (pageIsolated_iff zeros (by decide) (by decide) (by decide) (by decide) rfl).mp isolated with
      apart | clears
    · exact apart rfl
    · have byte := clears 0 (by decide)
      rw [first] at byte
      exact absurd byte (by decide)

end GasSub.Guarantees.RawPages
