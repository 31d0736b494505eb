import GasSub.Source.YaffsNandDrv

/-!
# Bad blocks

The check of a block's marker and the marking of a block, on any flash content. The
check asks for column 2048 of the first two pages by byte address, which is both
times row `33 * b`; marking reads the page it was to program.
-/
namespace GasSub.Guarantees.BadBlocks
open GasSub.Source GasSub.Library.ByteMemory

/-- Spare byte 0 of a row. -/
def marker (chip : Chip) (r : Nat) : INT8U := chip.cells r 2048

/-- The check fails exactly for a block with a marker in its first or second page. -/
def ChecksMarkers (chip : Chip) (block : INT32U) : Prop :=
  (yaffsNandDrvCheckBad chip block).1 = false ↔
    marker chip (64 * block.toNat) ≠ 0xFF ∨ marker chip (64 * block.toNat + 1) ≠ 0xFF

/-- Once marking has returned `YAFFS_OK`, the check fails for the block, and answers as before
for the others. -/
def MarksBlock (chip : Chip) (block : INT32U) : Prop :=
  (yaffsNandDrvMarkBad chip block).1 = 1 →
    (yaffsNandDrvCheckBad (yaffsNandDrvMarkBad chip block).2 block).1 = false ∧
      ∀ other : INT32U, other.toNat < 4096 → other ≠ block →
        (yaffsNandDrvCheckBad (yaffsNandDrvMarkBad chip block).2 other).1 =
          (yaffsNandDrvCheckBad chip other).1

/-- One page is checked: the byte read from its row decides. -/
theorem checkPages_cons (chip : Chip) {block page : INT32U} (rest : List INT32U) (data : INT8U)
    (blockBound : block.toNat < 4096) (pageBound : page.toNat < 4096) :
    ∃ after, checkPages block (page :: rest) data chip =
        (if marker chip (rowOfPage block.toNat page.toNat) ≠ 0xFF then (false, after)
          else checkPages block rest 0xFF after) ∧
      after.cells = chip.cells := by
  have column : nandFlashInvalidblockCheckColumm.toNat = 2048 := rfl
  obtain ⟨after, read, kept⟩ := nandFlashPageReadFromAddr_eq chip 0 1 blockBound pageBound
    (by decide : nandFlashInvalidblockCheckColumm.toNat < 2112)
  have one : min (2112 - nandFlashInvalidblockCheckColumm.toNat) (max (1 : INT32U).toNat 1) = 1 := by
    decide
  rw [one, column] at read
  have byte : AddrRead.memory (nandFlashPageReadFromAddr chip block page
      nandFlashInvalidblockCheckColumm 0 1) (fun _ => data) 0 =
      marker chip (rowOfPage block.toNat page.toNat) := by
    rw [read, AddrRead.memory_eq]
    rfl
  refine ⟨after, ?_, kept⟩
  rw [checkPages, byte, read]
  by_cases marked : marker chip (rowOfPage block.toNat page.toNat) = 0xFF
  · simp only [marked, ne_eq, not_true_eq_false, if_false]
  · simp only [marked, ne_eq, not_false_eq_true, if_true]

/-- Both pages of the check are in the same row. -/
theorem checkBad_eq_false_iff (chip : Chip) {block : INT32U} (bound : block.toNat < 4096) :
    (yaffsNandDrvCheckBad chip block).1 = false ↔ marker chip (33 * block.toNat) ≠ 0xFF := by
  have first : rowOfPage block.toNat (0 : INT32U).toNat = 33 * block.toNat := by
    have zero : (0 : INT32U).toNat = 0 := rfl
    unfold rowOfPage
    omega
  have second : rowOfPage block.toNat (1 : INT32U).toNat = 33 * block.toNat := by
    have one : (1 : INT32U).toNat = 1 := rfl
    unfold rowOfPage
    omega
  obtain ⟨mid, check, kept⟩ := checkPages_cons chip [1] 0 bound (by decide : (0 : INT32U).toNat < 4096)
  obtain ⟨after, check', -⟩ := checkPages_cons mid [] 0xFF bound
    (by decide : (1 : INT32U).toNat < 4096)
  have same : marker mid (33 * block.toNat) = marker chip (33 * block.toNat) := by
    unfold marker
    rw [kept]
  rw [first] at check
  rw [second, same] at check'
  unfold yaffsNandDrvCheckBad nandFlashValidBlockCheck
  rw [check, check']
  split
  · case isTrue marked => exact iff_of_true rfl marked
  · case isFalse unmarked => exact iff_of_false (fun fails => nomatch fails) unmarked

/-- Marking changes no cell, and reports success. -/
theorem markBad_eq (chip : Chip) {block : INT32U} (bound : block.toNat < 4096) :
    ∃ after, yaffsNandDrvMarkBad chip block = (1, after) ∧ after.cells = chip.cells := by
  have chunk : (block * 64).toNat < numRows := by
    have size : (64 : INT32U).toNat = 64 := rfl
    rw [BitVec.toNat_mul, size]
    unfold numRows
    omega
  obtain ⟨after, read, kept⟩ := nandFlashPageReadWithSpare_eq chip (block * 64) false chunk
  refine ⟨after, ?_, kept⟩
  unfold yaffsNandDrvMarkBad
  simp only [read]

/-- The check agrees with the markers of the block exactly when row `33 * block` does; marking
succeeds exactly for a block that is marked in that row already. -/
theorem badBlocks_iff (chip : Chip) {block : INT32U} (bound : block.toNat < 4096) :
    (ChecksMarkers chip block ↔
      (marker chip (33 * block.toNat) ≠ 0xFF ↔
        marker chip (64 * block.toNat) ≠ 0xFF ∨ marker chip (64 * block.toNat + 1) ≠ 0xFF)) ∧
    (MarksBlock chip block ↔ marker chip (33 * block.toNat) ≠ 0xFF) := by
  obtain ⟨after, marks, kept⟩ := markBad_eq chip bound
  have same : ∀ other : INT32U, other.toNat < 4096 →
      ((yaffsNandDrvCheckBad after other).1 = false ↔ (yaffsNandDrvCheckBad chip other).1 = false) := by
    intro other bound'
    rw [checkBad_eq_false_iff after bound', checkBad_eq_false_iff chip bound', marker, kept, marker]
  constructor
  · unfold ChecksMarkers
    rw [checkBad_eq_false_iff chip bound]
  · unfold MarksBlock
    simp only [marks, true_implies]
    rw [same block bound, checkBad_eq_false_iff chip bound]
    refine and_iff_left fun other bound' _ => ?_
    exact Bool.eq_iff_iff.mpr (not_iff_not.mp (by
      rw [Bool.not_eq_true, Bool.not_eq_true]
      exact same other bound'))

/-- A part with all cells set but spare byte 0 of one row. -/
def markedRow (r : Nat) : Chip where
  cells := fun r' c => if r' = r ∧ c = 2048 then 0 else 0xFF
  mode := .idle
  cycle := 0
  column := 0
  row := 0
  register := fun _ => 0xFF
  failed := false
  verdict := .pass

theorem badBlocks_sample :
    (ChecksMarkers (markedRow 64) 1 ↔
      (marker (markedRow 64) 33 ≠ 0xFF ↔
        marker (markedRow 64) 64 ≠ 0xFF ∨ marker (markedRow 64) 65 ≠ 0xFF)) ∧
    (MarksBlock (markedRow 64) 1 ↔ marker (markedRow 64) 33 ≠ 0xFF) :=
  badBlocks_iff (markedRow 64) (by decide : (1 : INT32U).toNat < 4096)

/-- A marker in the first page of block 1 is not seen, and marking block 1 leaves it good. -/
theorem marker_unseen : ¬ ChecksMarkers (markedRow 64) 1 ∧ ¬ MarksBlock (markedRow 64) 1 := by
  have good := checkBad_eq_false_iff (markedRow 64) (by decide : (1 : INT32U).toNat < 4096)
  constructor
  · intro checks
    exact absurd (good.mp (checks.mpr (by decide))) (by decide)
  · intro marked
    obtain ⟨after, marks, kept⟩ := markBad_eq (markedRow 64) (by decide : (1 : INT32U).toNat < 4096)
    have bad := (marked (by rw [marks])).1
    rw [marks, checkBad_eq_false_iff after (by decide), marker, kept] at bad
    exact absurd bad (by decide)

end GasSub.Guarantees.BadBlocks
