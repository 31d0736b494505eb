import GasSub.Library.BufferFill
import GasSub.Source.NandAddress
import GasSub.Source.YaffsEcc

/-!
# The chunk driver

`yaffs_nand_drv.c` with 2048 data bytes and 64 spare bytes per page: the spare
area holds the bad-block marker in its first two bytes, the codes of the eight
256-byte blocks from byte 2 on and the tags from byte 26 on. The driver's own
spare buffer is filled anew by every call before it is used.
-/
namespace GasSub.Source
open GasSub.Library.BufferFill

abbrev SpareBuffer := Vector INT8U 64

/-- `enum yaffs_ecc_result`. -/
inductive EccResult where
  | unknown | noError | fixed | unfixed
  deriving DecidableEq, Repr

/-- The codes of the blocks `data + 0`, `data + 256`, … written from byte 2 on. -/
def storeEcc (data : List INT8U) (buffer : SpareBuffer) (k : Nat) : SpareBuffer :=
  fillFrom buffer (2 + 3 * k) (yaffsEccCalc (data.drop (256 * k))).toList

/-- `yaffs_nand_drv_WriteChunk`: whether it returns `YAFFS_OK`, and the part after it. -/
def yaffsNandDrvWriteChunk (chip : Chip) (nandChunk : INT32U) (data oob : Option (List INT8U)) :
    Option (Bool × Chip) :=
  match data, oob with
  | some data, some oob =>
    let buffer : SpareBuffer := Vector.replicate 64 0xFF
    let buffer := (List.range 8).foldl (storeEcc data) buffer
    let buffer := fillFrom buffer 26 oob
    nandFlashPageProgramWithSpare chip nandChunk (some data) (some buffer.toList)
  | _, _ => some (false, chip)

/-- The data, the spare buffer and the result while the blocks are corrected. -/
structure EccPass where
  data : List INT8U
  buffer : List INT8U
  eccResult : EccResult

/-- Block `k` is checked against its code. -/
def EccPass.correct (pass : EccPass) (k : Nat) : EccPass :=
  let block := pass.data.drop (256 * k)
  let stored : Ecc := Vector.ofFn fun j => pass.buffer.getD (2 + 3 * k + j) 0
  let corrected := yaffsEccCorrect block stored (yaffsEccCalc block)
  { data := pass.data.take (256 * k) ++ corrected.data
    buffer := pass.buffer.take (2 + 3 * k) ++ corrected.readEcc.toList ++
      pass.buffer.drop (2 + 3 * k + 3)
    eccResult :=
      if corrected.ret < 0 then .unfixed
      else if 0 < corrected.ret ∧ pass.eccResult = .noError then .fixed
      else pass.eccResult }

/-- What a chunk read returns and leaves in the buffers asked for. -/
structure ChunkRead where
  ok : Bool
  data : List INT8U
  oob : List INT8U
  eccResult : EccResult
  chip : Chip

/-- `yaffs_nand_drv_ReadChunk`; `oobLen` is `none` for a null `oob`. -/
def yaffsNandDrvReadChunk (chip : Chip) (nandChunk : INT32U) (wantsData : Bool)
    (oobLen : Option Nat) : ChunkRead :=
  let page := nandFlashPageReadWithSpare chip nandChunk wantsData true
  if page.ret < 0 then
    { ok := false, data := page.data, oob := [], eccResult := .unknown, chip := page.chip }
  else
    let oob := match oobLen with
      | none => []
      | some len => (page.spare.drop 26).take len
    let pass := EccPass.mk page.data page.spare .noError
    let pass := if wantsData then (List.range 8).foldl EccPass.correct pass else pass
    { ok := true, data := pass.data, oob := oob, eccResult := pass.eccResult, chip := page.chip }

def yaffsNandDrvEraseBlock (chip : Chip) (blockNo : INT32U) : Bool × Chip :=
  nandFlashBlockErase chip blockNo

/-- `yaffs_nand_drv_MarkBad`, whose last call reads the page it was to program; the two bytes
`Y` prepared in the buffer are overwritten by the read. -/
def yaffsNandDrvMarkBad (chip : Chip) (blockNo : INT32U) : Int × Chip :=
  let nandChunk := blockNo * 64
  let page := nandFlashPageReadWithSpare chip nandChunk false true
  (page.ret, page.chip)

def yaffsNandDrvCheckBad (chip : Chip) (blockNo : INT32U) : Bool × Chip :=
  nandFlashValidBlockCheck chip blockNo

/-! ### The spare area of a written chunk -/

/-- The codes of a page, block after block. -/
def eccBytes (data : List INT8U) (count : Nat) : List INT8U :=
  (List.range count).flatMap fun k => (yaffsEccCalc (data.drop (256 * k))).toList

theorem eccBytes_succ (data : List INT8U) (count : Nat) :
    eccBytes data (count + 1) =
      eccBytes data count ++ (yaffsEccCalc (data.drop (256 * count))).toList := by
  simp only [eccBytes, List.range_succ, List.flatMap_append, List.flatMap_cons, List.flatMap_nil,
    List.append_nil]

theorem length_eccBytes (data : List INT8U) (count : Nat) :
    (eccBytes data count).length = 3 * count := by
  induction count with
  | zero => rfl
  | succ count ih =>
    rw [eccBytes_succ, List.length_append, ih, Vector.length_toList]
    omega

/-- The code of block `k` stands at its place among the codes. -/
theorem getElem?_eccBytes (data : List INT8U) (count k j : Nat) (block : k < count) (byte : j < 3) :
    (eccBytes data count)[3 * k + j]? = some (yaffsEccCalc (data.drop (256 * k)))[j] := by
  induction count with
  | zero => omega
  | succ count ih =>
    have length := length_eccBytes data count
    rw [eccBytes_succ]
    rcases Nat.lt_succ_iff_lt_or_eq.mp block with earlier | last
    · rw [List.getElem?_append_left (by omega)]
      exact ih earlier
    · subst last
      rw [List.getElem?_append_right (by omega), length, Nat.add_sub_cancel_left,
        Vector.getElem?_toList, Vector.getElem?_eq_getElem byte]

/-- The spare area of a written chunk: the codes and the tags from byte 2 on. -/
def spareImage (data oob : List INT8U) : SpareBuffer :=
  fillFrom (Vector.replicate 64 0xFF) 2 (eccBytes data 8 ++ oob)

theorem foldl_storeEcc (data : List INT8U) (buffer : SpareBuffer) (count : Nat) :
    (List.range count).foldl (storeEcc data) buffer = fillFrom buffer 2 (eccBytes data count) := by
  induction count with
  | zero => rfl
  | succ count ih =>
    rw [List.range_succ, List.foldl_append, ih, eccBytes_succ, fillFrom_append, length_eccBytes]
    rfl

/-- A chunk write programs the data with the marker, the codes and the tags. -/
theorem yaffsNandDrvWriteChunk_eq (chip : Chip) (nandChunk : INT32U) (data oob : List INT8U) :
    yaffsNandDrvWriteChunk chip nandChunk (some data) (some oob) =
      nandFlashPageProgramWithSpare chip nandChunk (some data)
        (some (spareImage data oob).toList) := by
  have codes : 2 + (eccBytes data 8).length = 26 := by rw [length_eccBytes]
  unfold yaffsNandDrvWriteChunk spareImage
  simp only [foldl_storeEcc, fillFrom_append, codes]

theorem getElem?_spareImage (data oob : List INT8U) (j : Nat) (inside : j < 64) :
    (spareImage data oob).toList[j]? =
      some ((if 2 ≤ j then (eccBytes data 8 ++ oob)[j - 2]? else none).getD 0xFF) := by
  have blank : (Vector.replicate 64 (0xFF : INT8U))[j] = 0xFF := Vector.getElem_replicate inside
  unfold spareImage
  rw [Vector.getElem?_toList, Vector.getElem?_eq_getElem inside, getElem_fillFrom, blank]

/-- The bad-block marker of a written chunk stays FF. -/
theorem head?_spareImage (data oob : List INT8U) :
    (spareImage data oob).toList.head? = some 0xFF := by
  rw [List.head?_eq_getElem?, getElem?_spareImage data oob 0 (by decide)]
  rfl

/-- Block `k` of a written chunk finds its code in the spare area. -/
theorem slice_spareImage (data oob : List INT8U) (k : Nat) (block : k < 8) :
    ((spareImage data oob).toList.drop (2 + 3 * k)).take 3 =
      (yaffsEccCalc (data.drop (256 * k))).toList := by
  have length := length_eccBytes data 8
  apply List.ext_getElem?
  intro j
  rcases Nat.lt_or_ge j 3 with byte | past
  · have place : 2 + 3 * k + j - 2 = 3 * k + j := by omega
    rw [List.getElem?_take_of_lt byte, List.getElem?_drop,
      getElem?_spareImage data oob _ (by omega), if_pos (by omega), place,
      List.getElem?_append_left (by omega), getElem?_eccBytes data 8 k j block byte,
      Vector.getElem?_toList, Vector.getElem?_eq_getElem byte]
    rfl
  · rw [List.getElem?_eq_none (by rw [List.length_take]; omega),
      List.getElem?_eq_none (by rw [Vector.length_toList]; omega)]

/-- The tags of a written chunk, padded with FF to the end of the spare area. -/
def paddedOob (oob : List INT8U) : List INT8U := oob ++ List.replicate (38 - oob.length) 0xFF

theorem drop_spareImage (data oob : List INT8U) (fits : oob.length ≤ 38) :
    (spareImage data oob).toList.drop 26 = paddedOob oob := by
  have codes := length_eccBytes data 8
  have length : (paddedOob oob).length = 38 := by
    unfold paddedOob
    rw [List.length_append, List.length_replicate]
    omega
  apply List.ext_getElem?
  intro i
  rcases Nat.lt_or_ge i 38 with inside | past
  · have place : 26 + i - 2 - (eccBytes data 8).length = i := by omega
    rw [List.getElem?_drop, getElem?_spareImage data oob _ (by omega), if_pos (by omega),
      List.getElem?_append_right (by omega), place]
    unfold paddedOob
    rcases Nat.lt_or_ge i oob.length with written | padding
    · rw [List.getElem?_append_left written, List.getElem?_eq_getElem written]
      rfl
    · rw [List.getElem?_append_right padding, List.getElem?_eq_none padding,
        List.getElem?_replicate, if_pos (by omega)]
      rfl
  · rw [List.getElem?_eq_none (by rw [List.length_drop, Vector.length_toList]; omega),
      List.getElem?_eq_none (by omega)]

/-! ### Reading a written chunk -/

/-- A correction that leaves the stored code as it is changes the block only. -/
theorem EccPass.correct_stored (pass : EccPass) (k : Nat) (code : Ecc) {ret : Int}
    {block : List INT8U} (stored : (pass.buffer.drop (2 + 3 * k)).take 3 = code.toList)
    (corrected : yaffsEccCorrect (pass.data.drop (256 * k)) code
      (yaffsEccCalc (pass.data.drop (256 * k))) = { ret := ret, data := block, readEcc := code }) :
    pass.correct k =
      { data := pass.data.take (256 * k) ++ block
        buffer := pass.buffer
        eccResult :=
          if ret < 0 then .unfixed
          else if 0 < ret ∧ pass.eccResult = .noError then .fixed
          else pass.eccResult } := by
  obtain ⟨data, buffer, eccResult⟩ := pass
  simp only at stored corrected
  have read : (Vector.ofFn fun j : Fin 3 => buffer.getD (2 + 3 * k + j) 0) = code := by
    apply Vector.ext
    intro j byte
    have here := congrArg (fun bytes : List INT8U => bytes[j]?) stored
    simp only [List.getElem?_take_of_lt byte, List.getElem?_drop, Vector.getElem?_toList,
      Vector.getElem?_eq_getElem byte] at here
    rw [Vector.getElem_ofFn, List.getD_eq_getElem?_getD, here]
    rfl
  have codes : buffer.take (2 + 3 * k) ++ code.toList ++ buffer.drop (2 + 3 * k + 3) = buffer := by
    have tail : buffer.drop (2 + 3 * k + 3) = (buffer.drop (2 + 3 * k)).drop 3 :=
      List.drop_drop.symm
    rw [← stored, List.append_assoc, tail, List.take_append_drop, List.take_append_drop]
  simp only [EccPass.correct, read, corrected, codes]

/-- A block whose stored code agrees goes through the correction unchanged. -/
theorem EccPass.correct_eq (pass : EccPass) (k : Nat)
    (agrees : (pass.buffer.drop (2 + 3 * k)).take 3 =
      (yaffsEccCalc (pass.data.drop (256 * k))).toList) :
    pass.correct k = pass := by
  rw [EccPass.correct_stored pass k _ agrees (yaffsEccCorrect_same ..), List.take_append_drop]
  rfl

theorem foldl_correct_written (data oob : List INT8U) (blocks : List Nat)
    (inside : ∀ k ∈ blocks, k < 8) :
    blocks.foldl EccPass.correct (EccPass.mk data (spareImage data oob).toList .noError) =
      EccPass.mk data (spareImage data oob).toList .noError := by
  induction blocks with
  | nil => rfl
  | cons k rest ih =>
    have agrees := slice_spareImage data oob k (inside k (List.mem_cons_self ..))
    rw [List.foldl_cons, EccPass.correct_eq _ k agrees]
    exact ih fun l member => inside l (List.mem_cons_of_mem k member)

/-- Row `r` holds a chunk written with `data` and `oob`. -/
def Chip.HoldsChunk (chip : Chip) (r : Nat) (data oob : List INT8U) : Prop :=
  ∀ c < 2112, chip.cells r c = pageImage data (spareImage data oob).toList c

/-- The data bytes of a row that holds a page image. -/
theorem map_pageImage_data {cells : Nat → INT8U} {data spare : List INT8U}
    (held : ∀ c < 2112, cells c = pageImage data spare c)
    (dataSize : data.length = nandFlashRwPageSize) :
    (List.range nandFlashRwPageSize).map cells = data := by
  have size : nandFlashRwPageSize = 2048 := rfl
  apply List.ext_getElem
  · rw [List.length_map, List.length_range, dataSize]
  · intro c _ inside
    have image := held c (by omega)
    unfold pageImage at image
    rw [if_pos (by omega), List.getElem?_eq_getElem inside] at image
    rw [List.getElem_map, List.getElem_range, image]
    rfl

/-- The spare bytes of a row that holds a page image. -/
theorem map_pageImage_spare {cells : Nat → INT8U} {data spare : List INT8U}
    (held : ∀ c < 2112, cells c = pageImage data spare c)
    (spareSize : spare.length = nandFlashSpareSize) :
    (List.range nandFlashSpareSize).map (fun i => cells (nandFlashRwPageSize + i)) = spare := by
  have size : nandFlashRwPageSize = 2048 := rfl
  have size' : nandFlashSpareSize = 64 := rfl
  apply List.ext_getElem
  · rw [List.length_map, List.length_range, spareSize]
  · intro i _ inside
    have image := held (nandFlashRwPageSize + i) (by omega)
    unfold pageImage at image
    rw [if_neg (by omega), Nat.add_sub_cancel_left, List.getElem?_eq_getElem inside] at image
    rw [List.getElem_map, List.getElem_range, image]
    rfl

/-- A read returns the tags of the spare area, and the data as the corrections leave them. -/
theorem yaffsNandDrvReadChunk_eq (chip : Chip) (nandChunk : INT32U) {data oob : List INT8U}
    {eccResult : EccResult} (wantsData : Bool) (oobLen : Option Nat)
    (bound : nandChunk.toNat < numRows) (oobSize : oob.length ≤ 38)
    (spareRead : (List.range nandFlashSpareSize).map
        (fun i => chip.cells nandChunk.toNat (nandFlashRwPageSize + i)) =
      (spareImage data oob).toList)
    (corrected : (List.range 8).foldl EccPass.correct
        ⟨(List.range nandFlashRwPageSize).map (chip.cells nandChunk.toNat),
          (spareImage data oob).toList, .noError⟩ =
      ⟨data, (spareImage data oob).toList, eccResult⟩) :
    ∃ after, yaffsNandDrvReadChunk chip nandChunk wantsData oobLen =
        { ok := true
          data := if wantsData then data else []
          oob := match oobLen with
            | none => []
            | some len => (paddedOob oob).take len
          eccResult := if wantsData then eccResult else .noError
          chip := after } ∧
      after.cells = chip.cells := by
  obtain ⟨after, read, kept⟩ := nandFlashPageReadWithSpare_eq chip nandChunk wantsData bound
  refine ⟨after, ?_, kept⟩
  rw [spareRead] at read
  unfold yaffsNandDrvReadChunk
  rw [read]
  cases wantsData with
  | true =>
    simp only [if_true, corrected, drop_spareImage data oob oobSize]
    rfl
  | false =>
    simp only [drop_spareImage data oob oobSize]
    rfl

/-- A chunk that its row holds is read back as it was written, without an error. -/
theorem yaffsNandDrvReadChunk_written (chip : Chip) (nandChunk : INT32U) (data oob : List INT8U)
    (wantsData : Bool) (oobLen : Option Nat) (bound : nandChunk.toNat < numRows)
    (dataSize : data.length = nandFlashRwPageSize) (oobSize : oob.length ≤ 38)
    (held : chip.HoldsChunk nandChunk.toNat data oob) :
    ∃ after, yaffsNandDrvReadChunk chip nandChunk wantsData oobLen =
        { ok := true
          data := if wantsData then data else []
          oob := match oobLen with
            | none => []
            | some len => (paddedOob oob).take len
          eccResult := .noError
          chip := after } ∧
      after.cells = chip.cells := by
  have dataRead := map_pageImage_data held dataSize
  have spareRead := map_pageImage_spare held Vector.length_toList
  have corrected : (List.range 8).foldl EccPass.correct
        ⟨(List.range nandFlashRwPageSize).map (chip.cells nandChunk.toNat),
          (spareImage data oob).toList, .noError⟩ =
      ⟨data, (spareImage data oob).toList, .noError⟩ := by
    rw [dataRead]
    exact foldl_correct_written data oob (List.range 8) fun k => List.mem_range.mp
  obtain ⟨after, read, kept⟩ := yaffsNandDrvReadChunk_eq chip nandChunk wantsData oobLen bound
    oobSize spareRead corrected
  rw [ite_self] at read
  exact ⟨after, read, kept⟩

end GasSub.Source
