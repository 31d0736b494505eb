import GasSub.Guarantees.FlashStore
import GasSub.Source.EccRepair

/-!
# Chunks read back with wrong bits

Any run of chunk writes to distinct erased rows and, after it, at most one wrong
data bit in each 256-byte block of a row. A read repairs block after block: the
bytes before the block are those written, the bytes after it those the part holds.
-/
namespace GasSub.Guarantees.ChunkEcc
open GasSub.Source GasSub.Guarantees.FlashStore

/-! ### Wrong bits -/

/-- The wrong bit of each block of a page by its byte and its place there, if there is one. -/
abbrev Flips := Nat → Option (Fin 256 × Fin 8)

/-- Byte `n` of a block as the part holds it. -/
def struck (flip : Option (Fin 256 × Fin 8)) (n : Nat) (byte : INT8U) : INT8U :=
  match flip with
  | none => byte
  | some (i, j) => if n = i then flipBit byte j else byte

def struckBlock (flip : Option (Fin 256 × Fin 8)) (block : List INT8U) : List INT8U :=
  match flip with
  | none => block
  | some (i, j) => flipAt block i j

theorem getElem?_struckBlock (flip : Option (Fin 256 × Fin 8)) (block : List INT8U) (n : Nat) :
    (struckBlock flip block)[n]? = (block[n]?).map (struck flip n) := by
  cases flip with
  | none => exact (Option.map_id' ..).symm
  | some place =>
    obtain ⟨i, j⟩ := place
    rw [struckBlock, flipAt, List.getElem?_modify]
    exact congrArg (Option.map · block[n]?) (funext fun byte => if_congr eq_comm rfl rfl)

theorem struck_past (flip : Option (Fin 256 × Fin 8)) {n : Nat} (past : 256 ≤ n) (byte : INT8U) :
    struck flip n byte = byte := by
  cases flip with
  | none => rfl
  | some place => exact if_neg (by have inside := place.1.isLt; omega)

/-- A block with at most one wrong bit is repaired. -/
theorem yaffsEccCorrect_struckBlock (flip : Option (Fin 256 × Fin 8)) {block : List INT8U}
    (size : 256 ≤ block.length) :
    yaffsEccCorrect (struckBlock flip block) (yaffsEccCalc block)
        (yaffsEccCalc (struckBlock flip block)) =
      { ret := if flip.isSome then 1 else 0, data := block, readEcc := yaffsEccCalc block } := by
  cases flip with
  | none => exact yaffsEccCorrect_same block (yaffsEccCalc block)
  | some place =>
    exact yaffsEccCorrect_flipAt place.1 place.2 (Nat.lt_of_lt_of_le place.1.isLt size)

/-! ### Repairing a page -/

/-- `read` is the page `data` with the wrong bits. -/
def Disturbs (flips : Flips) (data read : List INT8U) : Prop :=
  ∀ c, read[c]? = (data[c]?).map (struck (flips (c / 256)) (c % 256))

/-- The page when its first `k` blocks are repaired. -/
def repaired (data read : List INT8U) (k : Nat) : List INT8U :=
  data.take (256 * k) ++ read.drop (256 * k)

def resultOf (flips : Flips) (count : Nat) : EccResult :=
  if (List.range count).any fun k => (flips k).isSome then .fixed else .noError

theorem resultOf_succ (flips : Flips) (k : Nat) :
    resultOf flips (k + 1) = if (flips k).isSome then .fixed else resultOf flips k := by
  simp only [resultOf, List.range_succ, List.any_append, List.any_cons, List.any_nil,
    Bool.or_false]
  cases (flips k).isSome with
  | true => rw [Bool.or_true]; rfl
  | false => rw [Bool.or_false, if_neg Bool.false_ne_true]

theorem resultOf_clean {flips : Flips} {count : Nat} (none : ∀ k < count, flips k = none) :
    resultOf flips count = .noError := by
  refine if_neg fun some => ?_
  obtain ⟨k, member, isSome⟩ := List.any_eq_true.mp some
  rw [none k (List.mem_range.mp member)] at isSome
  cases isSome

theorem resultOf_mended {flips : Flips} {count : Nat} (some : ∃ k < count, flips k ≠ none) :
    resultOf flips count = .fixed := by
  obtain ⟨k, inside, wrong⟩ := some
  exact if_pos (List.any_eq_true.mpr
    ⟨k, List.mem_range.mpr inside, Option.isSome_iff_ne_none.mpr wrong⟩)

section
variable {flips : Flips} {data read : List INT8U} {k : Nat}

theorem drop_repaired (read : List INT8U) (size : data.length = 2048) (bound : k ≤ 8) :
    (repaired data read k).drop (256 * k) = read.drop (256 * k) :=
  List.drop_left' (by rw [List.length_take]; omega)

theorem take_repaired (read : List INT8U) (size : data.length = 2048) (bound : k ≤ 8) :
    (repaired data read k).take (256 * k) = data.take (256 * k) :=
  List.take_left' (by rw [List.length_take]; omega)

theorem getElem?_repaired (size : data.length = 2048) (bound : k ≤ 8) (c : Nat) :
    (repaired data read k)[c]? = if c < 256 * k then data[c]? else read[c]? := by
  have length : (data.take (256 * k)).length = 256 * k := by
    rw [List.length_take]
    omega
  by_cases before : c < 256 * k
  · rw [repaired, List.getElem?_append_left (by omega), List.getElem?_take_of_lt before,
      if_pos before]
  · have place : 256 * k + (c - 256 * k) = c := by omega
    rw [repaired, List.getElem?_append_right (by omega), length, List.getElem?_drop, place,
      if_neg before]

/-- What is read from block `k` on is the block with its wrong bit and the blocks after it. -/
theorem drop_read (disturbs : Disturbs flips data read) (size : data.length = 2048)
    (block : k < 8) :
    read.drop (256 * k) = struckBlock (flips k) ((repaired data read (k + 1)).drop (256 * k)) := by
  apply List.ext_getElem?
  intro n
  rw [getElem?_struckBlock, List.getElem?_drop, List.getElem?_drop,
    getElem?_repaired size (by omega)]
  rcases Nat.lt_or_ge n 256 with inside | past
  · have quotient : (256 * k + n) / 256 = k := by omega
    have remainder : (256 * k + n) % 256 = n := by omega
    rw [if_pos (by omega), disturbs, quotient, remainder]
  · rw [if_neg (by omega), funext (struck_past (flips k) past)]
    exact (Option.map_id' ..).symm

/-- The stored code of block `k` is the code of the block as it is when repaired. -/
theorem code_repaired (size : data.length = 2048) (block : k < 8) :
    yaffsEccCalc ((repaired data read (k + 1)).drop (256 * k)) =
      yaffsEccCalc (data.drop (256 * k)) := by
  apply yaffsEccCalc_congr
  intro i inside
  rw [List.getD_eq_getElem?_getD, List.getD_eq_getElem?_getD, List.getElem?_drop,
    List.getElem?_drop, getElem?_repaired size (by omega), if_pos (by omega)]

theorem take_repaired_succ (read : List INT8U) (size : data.length = 2048) (block : k < 8) :
    (repaired data read (k + 1)).take (256 * k) = data.take (256 * k) := by
  have length : (data.take (256 * (k + 1))).length = 256 * (k + 1) := by
    rw [List.length_take]
    omega
  rw [repaired, List.take_append_of_le_length (by omega), List.take_take, Nat.min_eq_left (by omega)]

theorem result_repaired (flips : Flips) (k : Nat) :
    (if (if (flips k).isSome then 1 else 0 : Int) < 0 then EccResult.unfixed
      else if 0 < (if (flips k).isSome then 1 else 0 : Int) ∧ resultOf flips k = .noError then .fixed
      else resultOf flips k) = resultOf flips (k + 1) := by
  rw [resultOf_succ]
  cases (flips k).isSome with
  | true =>
    unfold resultOf
    cases (List.range k).any fun k => (flips k).isSome <;> rfl
  | false => rfl

theorem correct_repaired (disturbs : Disturbs flips data read) (size : data.length = 2048)
    (oob : List INT8U) (block : k < 8) :
    EccPass.correct ⟨repaired data read k, (spareImage data oob).toList, resultOf flips k⟩ k =
      ⟨repaired data read (k + 1), (spareImage data oob).toList, resultOf flips (k + 1)⟩ := by
  have enough : 256 ≤ ((repaired data read (k + 1)).drop (256 * k)).length := by
    rw [repaired, List.length_drop, List.length_append, List.length_take]
    omega
  have held := (drop_repaired read size (Nat.le_of_lt block)).trans
    (drop_read disturbs size block)
  have corrected := yaffsEccCorrect_struckBlock (flips k) enough
  rw [← held, code_repaired size block] at corrected
  have before := (take_repaired read size (Nat.le_of_lt block)).trans
    (take_repaired_succ read size block).symm
  have done := EccPass.correct_stored
    ⟨repaired data read k, (spareImage data oob).toList, resultOf flips k⟩ k
    (yaffsEccCalc (data.drop (256 * k))) (slice_spareImage data oob k block) corrected
  simp only [before, List.take_append_drop, result_repaired] at done
  exact done

/-- Correcting the first blocks of a page repairs them. -/
theorem foldl_correct_repaired (disturbs : Disturbs flips data read) (size : data.length = 2048)
    (oob : List INT8U) {count : Nat} (bound : count ≤ 8) :
    (List.range count).foldl EccPass.correct ⟨read, (spareImage data oob).toList, .noError⟩ =
      ⟨repaired data read count, (spareImage data oob).toList, resultOf flips count⟩ := by
  induction count with
  | zero => rfl
  | succ count ih =>
    rw [List.range_succ, List.foldl_append, ih (Nat.le_of_succ_le bound), List.foldl_cons,
      List.foldl_nil, correct_repaired disturbs size oob bound]

theorem repaired_all (disturbs : Disturbs flips data read) (size : data.length = 2048) :
    repaired data read 8 = data := by
  have length : read.length ≤ 256 * 8 := by
    have past := disturbs 2048
    rw [List.getElem?_eq_none (Nat.le_of_eq size)] at past
    exact List.getElem?_eq_none_iff.mp past
  rw [repaired, List.drop_eq_nil_of_le length, List.append_nil,
    List.take_of_length_le (Nat.le_of_eq size)]

end

/-! ### Reading a disturbed chunk -/

/-- The cells after `before` but for the wrong bits in the data bytes of every row. -/
def Disturbed (flips : Nat → Flips) (before after : Chip) : Prop :=
  ∀ r < numRows, ∀ c < 2112, after.cells r c =
    if c < 2048 then struck (flips r (c / 256)) (c % 256) (before.cells r c)
    else before.cells r c

/-- The data bytes of a disturbed row. -/
def readData (chip : Chip) (r : Nat) : List INT8U :=
  (List.range nandFlashRwPageSize).map (chip.cells r)

theorem readData_disturbs {flips : Nat → Flips} {before after : Chip} {r : Nat}
    {data oob : List INT8U} (disturbed : Disturbed flips before after) (bound : r < numRows)
    (size : data.length = 2048) (held : before.HoldsChunk r data oob) :
    Disturbs (flips r) data (readData after r) := by
  have pageSize : nandFlashRwPageSize = 2048 := rfl
  intro c
  rw [readData, pageSize, List.getElem?_map]
  rcases Nat.lt_or_ge c 2048 with inside | past
  · have cell := disturbed r bound c (by omega)
    have image := held c (by omega)
    rw [pageImage, if_pos (by omega), List.getElem?_eq_getElem (by omega)] at image
    rw [if_pos inside, image] at cell
    rw [List.getElem?_range inside, List.getElem?_eq_getElem (by omega), Option.map_some, cell]
    rfl
  · rw [List.getElem?_eq_none (by rw [List.length_range]; exact past),
      List.getElem?_eq_none (by omega)]
    rfl

/-- The wrong bits leave the spare area of a row as it was. -/
theorem readSpare_disturbed {flips : Nat → Flips} {before after : Chip} {r : Nat}
    {data oob : List INT8U} (disturbed : Disturbed flips before after) (bound : r < numRows)
    (held : before.HoldsChunk r data oob) :
    (List.range nandFlashSpareSize).map (fun i => after.cells r (nandFlashRwPageSize + i)) =
      (spareImage data oob).toList := by
  have pageSize : nandFlashRwPageSize = 2048 := rfl
  have spareSize : nandFlashSpareSize = 64 := rfl
  refine Eq.trans ?_ (map_pageImage_spare held Vector.length_toList)
  apply List.map_congr_left
  intro i member
  have inside := List.mem_range.mp member
  rw [disturbed r bound _ (by omega), if_neg (by omega)]

theorem yaffsNandDrvReadChunk_disturbed {flips : Nat → Flips} {before chip : Chip}
    (nandChunk : INT32U) {data oob : List INT8U} (wantsData : Bool) (oobLen : Option Nat)
    (disturbed : Disturbed flips before chip) (bound : nandChunk.toNat < numRows)
    (dataSize : data.length = 2048) (oobSize : oob.length ≤ 38)
    (held : before.HoldsChunk nandChunk.toNat data oob) :
    ∃ after, yaffsNandDrvReadChunk chip nandChunk wantsData oobLen =
        { ok := true
          data := if wantsData then data else []
          oob := match oobLen with
            | none => []
            | some len => (paddedOob oob).take len
          eccResult := if wantsData then resultOf (flips nandChunk.toNat) 8 else .noError
          chip := after } ∧
      after.cells = chip.cells := by
  have disturbs := readData_disturbs disturbed bound dataSize held
  have corrected := foldl_correct_repaired disturbs dataSize oob (Nat.le_refl 8)
  rw [repaired_all disturbs dataSize] at corrected
  exact yaffsNandDrvReadChunk_eq chip nandChunk wantsData oobLen bound oobSize
    (readSpare_disturbed disturbed bound held) corrected

/-! ### Runs of writes -/

structure ChunkWrite where
  chunk : Fin 262144
  data : Vector INT8U 2048
  oob : Oob
  verdict : Outcome

def ChunkWrite.event (w : ChunkWrite) : Event :=
  ⟨.writeChunk w.chunk (some w.data) (some w.oob), w.verdict⟩

def ChunkWrite.HeldBy (w : ChunkWrite) (chip : Chip) : Prop :=
  chip.HoldsChunk w.chunk w.data.toList w.oob.bytes

/-- A write to an erased row returns, programs the row and leaves the others alone. -/
theorem write_step (s : Store) (w : ChunkWrite) (erased : Erased s.chip w.chunk) :
    ∃ t, step s w.event = some t ∧
      (∀ r : Nat, r ≠ w.chunk → t.chip.cells r = s.chip.cells r) ∧
      (w.verdict.passes = true → w.HeldBy t.chip) := by
  obtain ⟨result, written, settled⟩ := write_settled s w.event w.chunk w.data w.oob
  refine ⟨_, step_write written, settled.frame, fun passes c inside => ?_⟩
  rw [settled.done passes w.chunk rfl]
  simp only [erased c inside]
  exact BitVec.allOnes_and

/-- A run of writes to distinct erased rows returns, and every row the part managed to
program holds its chunk. -/
theorem writes_run (writes : List ChunkWrite) (s : Store)
    (distinct : (writes.map ChunkWrite.chunk).Nodup)
    (erased : ∀ w ∈ writes, Erased s.chip w.chunk) :
    ∃ t, (writes.map ChunkWrite.event).foldlM step s = some t ∧
      (∀ r : Nat, (∀ w ∈ writes, r ≠ w.chunk) → t.chip.cells r = s.chip.cells r) ∧
      ∀ w ∈ writes, w.verdict.passes = true → w.HeldBy t.chip := by
  induction writes generalizing s with
  | nil => exact ⟨s, rfl, fun _ _ => rfl, fun w member => by cases member⟩
  | cons w rest ih =>
    rw [List.map_cons, List.nodup_cons] at distinct
    obtain ⟨other, distinct⟩ := distinct
    have apart : ∀ v ∈ rest, (v.chunk : Nat) ≠ w.chunk := by
      intro v member same
      have chunk : v.chunk = w.chunk := Fin.ext same
      exact other (chunk ▸ List.mem_map_of_mem member)
    obtain ⟨t, taken, frame, programmed⟩ := write_step s w (erased w (List.mem_cons_self ..))
    have still : ∀ v ∈ rest, Erased t.chip v.chunk := by
      intro v member c inside
      rw [frame v.chunk (apart v member)]
      exact erased v (List.mem_cons_of_mem w member) c inside
    obtain ⟨u, run, later, holds⟩ := ih t distinct still
    refine ⟨u, ?_, fun r outside => ?_, fun v member passes => ?_⟩
    · rw [List.map_cons, List.foldlM_cons, taken]
      exact run
    · rw [later r fun v member => outside v (List.mem_cons_of_mem w member),
        frame r (outside w (List.mem_cons_self ..))]
    · rcases List.mem_cons.mp member with first | member
      · subst first
        intro c inside
        rw [later v.chunk fun x member same => apart x member same.symm]
        exact programmed passes c inside
      · exact holds v member passes

/-! ### Every chunk is read back -/

def readBack (chip : Chip) (w : ChunkWrite) (wantsData : Bool) : ChunkRead :=
  yaffsNandDrvReadChunk chip (argument w.chunk) wantsData (some w.oob.bytes.length)

/-- What was written comes back, with the data and without it; the result tells whether a
bit was wrong. -/
structure ReadsBack (chip : Chip) (flips : Flips) (w : ChunkWrite) : Prop where
  ok : ∀ wantsData, (readBack chip w wantsData).ok = true
  data : (readBack chip w true).data = w.data.toList
  oob : ∀ wantsData, (readBack chip w wantsData).oob = w.oob.bytes
  clean : (∀ k < 8, flips k = none) → (readBack chip w true).eccResult = .noError
  mended : (∃ k < 8, flips k ≠ none) → (readBack chip w true).eccResult = .fixed
  kept : ∀ wantsData, (readBack chip w wantsData).chip.cells = chip.cells

theorem readsBack_of_held {flips : Nat → Flips} {before chip : Chip} {w : ChunkWrite}
    (disturbed : Disturbed flips before chip) (held : w.HeldBy before) :
    ReadsBack chip (flips w.chunk) w := by
  have number := toNat_argument w.chunk (by decide)
  have bound : (argument w.chunk).toNat < numRows := by
    rw [number]
    exact w.chunk.isLt
  have read := fun wantsData => yaffsNandDrvReadChunk_disturbed (argument w.chunk) wantsData
    (some w.oob.bytes.length) disturbed bound Vector.length_toList w.oob.fits
    (by rw [number]; exact held)
  have tags : (paddedOob w.oob.bytes).take w.oob.bytes.length = w.oob.bytes := List.take_left
  simp only [number, tags] at read
  refine ⟨fun wantsData => ?ok, ?data, fun wantsData => ?oob, fun none => ?clean,
    fun some => ?mended, fun wantsData => ?kept⟩
  case ok =>
    obtain ⟨after, result, -⟩ := read wantsData
    rw [readBack, result]
  case data =>
    obtain ⟨after, result, -⟩ := read true
    rw [readBack, result]
    rfl
  case oob =>
    obtain ⟨after, result, -⟩ := read wantsData
    rw [readBack, result]
  case clean =>
    obtain ⟨after, result, -⟩ := read true
    rw [readBack, result]
    exact resultOf_clean none
  case mended =>
    obtain ⟨after, result, -⟩ := read true
    rw [readBack, result]
    exact resultOf_mended some
  case kept =>
    obtain ⟨after, result, kept⟩ := read wantsData
    rw [readBack, result]
    exact kept

/-- After any run of writes to distinct erased rows every chunk that the part managed to
program is read back, whichever bits of the rows are wrong, one to a block at most. -/
theorem chunks_repaired (chip : Chip) (writes : List ChunkWrite)
    (distinct : (writes.map ChunkWrite.chunk).Nodup)
    (erased : ∀ w ∈ writes, Erased chip w.chunk) :
    ∃ t, (writes.map ChunkWrite.event).foldlM step (Store.fresh chip) = some t ∧
      ∀ flips reader, Disturbed flips t.chip reader →
        ∀ w ∈ writes, w.verdict.passes = true → ReadsBack reader (flips w.chunk) w := by
  obtain ⟨t, run, -, held⟩ := writes_run writes (Store.fresh chip) distinct erased
  refine ⟨t, run, fun flips reader disturbed w member passes => ?_⟩
  exact readsBack_of_held disturbed (held w member passes)

/-- Two chunks of an erased part. -/
theorem chunks_repaired_erased :
    let first : ChunkWrite :=
      { chunk := 7, data := Vector.replicate 2048 0x5A, oob := ⟨[1, 2, 3, 4], by decide⟩
        verdict := .pass }
    let second : ChunkWrite :=
      { chunk := 3, data := Vector.replicate 2048 0xC3, oob := ⟨[5], by decide⟩
        verdict := .pass }
    ∃ t, ([first, second].map ChunkWrite.event).foldlM step (Store.fresh (uniform 0xFF)) =
        some t ∧
      ∀ flips reader, Disturbed flips t.chip reader →
        ∀ w ∈ [first, second], w.verdict.passes = true → ReadsBack reader (flips w.chunk) w := by
  intro first second
  have distinct : ([7, 3] : List (Fin 262144)).Nodup := by decide
  exact chunks_repaired (uniform 0xFF) [first, second] distinct fun _ _ _ _ => rfl

end GasSub.Guarantees.ChunkEcc
