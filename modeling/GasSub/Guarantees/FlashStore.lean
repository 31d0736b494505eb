import GasSub.Library.Run
import GasSub.Source.YaffsNandDrv

/-!
# The chunk store over the flash part

Any sequence of chunk writes, chunk reads and block erases on any flash content;
with each call goes how the part ends the program or erase it starts. Beside the
part stands what the calls promise: the last chunk written to each row since its
block was last erased. The erase takes its row from a byte address with pages of
2112 bytes, so block `b` erases the block of row `33 * b`: the store keeps its
promises as long as the blocks so erased hold nothing.
-/
namespace GasSub.Guarantees.FlashStore
open GasSub.Source GasSub.Library.Run

/-- The tags written with a chunk. -/
structure Oob where
  bytes : List INT8U
  fits : bytes.length ≤ 38

inductive Call where
  | writeChunk (chunk : Fin 262144) (data : Option (Vector INT8U 2048)) (oob : Option Oob)
  | readChunk (chunk : Fin 262144) (wantsData : Bool) (oobLen : Option (Fin 39))
  | eraseBlock (block : Fin 4096)

/-- A call and how the part ends what the call starts. -/
structure Event where
  call : Call
  verdict : Outcome

/-- The last chunk written to a row; `programmed` tells whether the part managed to. -/
structure Written where
  data : Vector INT8U 2048
  oob : Oob
  programmed : Bool

structure Store where
  chip : Chip
  written : Nat → Option Written

def Store.fresh (chip : Chip) : Store := { chip := chip, written := fun _ => none }

def argument {n : Nat} (i : Fin n) : INT32U := BitVec.ofNat 32 i

/-- The part as the call finds it. -/
def Store.ready (s : Store) (e : Event) : Chip := { s.chip with verdict := e.verdict }

def Store.write (s : Store) (e : Event) (chunk : Fin 262144) (data : Option (Vector INT8U 2048))
    (oob : Option Oob) : Option (Bool × Chip) :=
  yaffsNandDrvWriteChunk (s.ready e) (argument chunk) (data.map Vector.toList)
    (oob.map Oob.bytes)

def Store.read (s : Store) (e : Event) (chunk : Fin 262144) (wantsData : Bool)
    (oobLen : Option (Fin 39)) : ChunkRead :=
  yaffsNandDrvReadChunk (s.ready e) (argument chunk) wantsData (oobLen.map Fin.val)

def Store.erase (s : Store) (e : Event) (block : Fin 4096) : Bool × Chip :=
  yaffsNandDrvEraseBlock (s.ready e) (argument block)

/-- A chunk handed over in full replaces what was written before. -/
def record (written : Nat → Option Written) (chunk : Nat) (data : Option (Vector INT8U 2048))
    (oob : Option Oob) (programmed : Bool) : Nat → Option Written :=
  match data, oob with
  | some data, some oob => Function.update written chunk (some { data, oob, programmed })
  | _, _ => written

def step (s : Store) (e : Event) : Option Store :=
  match e.call with
  | .writeChunk chunk data oob =>
    (s.write e chunk data oob).map fun result =>
      { chip := result.2
        written := record s.written chunk data oob e.verdict.passes }
  | .readChunk chunk wantsData oobLen =>
    some { s with chip := (s.read e chunk wantsData oobLen).chip }
  | .eraseBlock block =>
    some
      { chip := (s.erase e block).2
        written := fun r => if r / rowsPerBlock = block then none else s.written r }

/-! ### What the store promises -/

def Erased (chip : Chip) (r : Nat) : Prop := ∀ c < 2112, chip.cells r c = 0xFF

def SameRow (chip chip' : Chip) (r : Nat) : Prop := ∀ c < 2112, chip.cells r c = chip'.cells r c

/-- An erase reported as done clears exactly the block asked for; a write touches its
own chunk only; a read returns the last chunk written since the last erase. -/
def Meets (s : Store) (e : Event) : Prop :=
  match e.call with
  | .writeChunk chunk data oob =>
    ∃ result, s.write e chunk data oob = some result ∧
      ∀ r < numRows, r ≠ chunk → SameRow result.2 s.chip r
  | .readChunk chunk wantsData oobLen =>
    ∀ w, s.written chunk = some w →
      let result := s.read e chunk wantsData oobLen
      result.ok = true ∧ result.eccResult = .noError ∧
        (wantsData = true → result.data = w.data.toList) ∧
        ∀ len, oobLen = some len → result.oob = (paddedOob w.oob.bytes).take len
  | .eraseBlock block =>
    (s.erase e block).1 = true →
      ∀ r < numRows, (r / rowsPerBlock = block → Erased (s.erase e block).2 r) ∧
        (r / rowsPerBlock ≠ block → SameRow (s.erase e block).2 s.chip r)

/-- The block that an erase of `block` reaches. -/
def reached (block : Fin 4096) : Nat := 33 * block / rowsPerBlock

/-- An erase that the part completes is of block 0, or the block asked for and the
block reached hold nothing already; one that fails reaches no chunk of another
block. A program finds a 1 wherever it needs one. A chunk that the part failed to
program is not read. -/
def Sound (s : Store) (e : Event) : Prop :=
  match e.call with
  | .writeChunk chunk (some data) (some oob) =>
    e.verdict.passes = true → ∀ c < 2112,
      s.chip.cells chunk c &&& pageImage data.toList (spareImage data.toList oob.bytes).toList c =
        pageImage data.toList (spareImage data.toList oob.bytes).toList c
  | .writeChunk _ _ _ => True
  | .readChunk chunk _ _ => ∀ w, s.written chunk = some w → w.programmed = true
  | .eraseBlock block =>
    if e.verdict.passes then
      block.val = 0 ∨ ∀ r < numRows,
        r / rowsPerBlock = block ∨ r / rowsPerBlock = reached block → Erased s.chip r
    else
      ∀ r < numRows, r / rowsPerBlock = reached block → r / rowsPerBlock ≠ block →
        s.written r = none

/-- Every chunk written and not erased since is in its row. -/
def Consistent (s : Store) : Prop :=
  ∀ r < numRows, ∀ w, s.written r = some w → w.programmed = true →
    s.chip.HoldsChunk r w.data.toList w.oob.bytes

theorem toNat_argument {n : Nat} (i : Fin n) (fits : n ≤ 2 ^ 32) : (argument i).toNat = i := by
  unfold argument
  rw [BitVec.toNat_ofNat]
  exact Nat.mod_eq_of_lt (Nat.lt_of_lt_of_le i.isLt fits)

/-! ### Erases -/

theorem erase_settled (s : Store) (e : Event) (block : Fin 4096) :
    (s.erase e block).1 = e.verdict.passes ∧
      Settled (s.ready e) (s.erase e block).2 (fun r => r / rowsPerBlock = reached block)
        fun _ _ => 0xFF := by
  have number := toNat_argument block (by decide)
  obtain ⟨after, erased, settled⟩ := nandFlashBlockErase_settled (s.ready e) (argument block)
    (by rw [number]; exact block.isLt)
  have result : s.erase e block = (!after.failed, after) := erased
  rw [number] at settled
  rw [result]
  refine ⟨?_, settled⟩
  rw [settled.status, Bool.not_not]
  rfl

/-- Only block 0 is reached by its own erase. -/
theorem reached_lt (block : Fin 4096) (later : block.val ≠ 0) : reached block < block := by
  unfold reached rowsPerBlock
  omega

theorem reached_zero (block : Fin 4096) (first : block.val = 0) : reached block = block := by
  unfold reached rowsPerBlock
  omega

/-- An erase that the part completes does what it promises exactly when it is of block 0
or both blocks concerned hold nothing already. -/
theorem meets_erase_iff (s : Store) (block : Fin 4096) (verdict : Outcome)
    (passes : verdict.passes = true) :
    Meets s ⟨.eraseBlock block, verdict⟩ ↔ block.val = 0 ∨ ∀ r < numRows,
      r / rowsPerBlock = block ∨ r / rowsPerBlock = reached block → Erased s.chip r := by
  obtain ⟨status, settled⟩ := erase_settled s ⟨.eraseBlock block, verdict⟩ block
  have done := settled.done passes
  simp only [Meets, status, passes, forall_const]
  constructor
  · intro clears
    by_cases first : block.val = 0
    · exact Or.inl first
    · have apart := reached_lt block first
      refine Or.inr fun r bound concerned c inside => ?_
      cases concerned with
      | inl asked =>
        have cleared := (clears r bound).1 asked c inside
        rw [settled.frame r (by omega)] at cleared
        exact cleared
      | inr hit =>
        have same := (clears r bound).2 (by omega) c inside
        rw [done r hit] at same
        exact same.symm
  · intro sound r bound
    have hit : r / rowsPerBlock = reached block →
        r / rowsPerBlock ≠ block → Erased s.chip r := by
      intro hit other
      cases sound with
      | inl first => exact absurd (hit.trans (reached_zero block first)) other
      | inr empty => exact empty r bound (Or.inr hit)
    constructor
    · intro asked c inside
      by_cases same : r / rowsPerBlock = reached block
      · rw [done r same]
      · rw [settled.frame r same]
        cases sound with
        | inl first => exact absurd (asked.trans (reached_zero block first).symm) same
        | inr empty => exact empty r bound (Or.inl asked) c inside
    · intro other c inside
      by_cases same : r / rowsPerBlock = reached block
      · rw [done r same]
        exact (hit same other c inside).symm
      · rw [settled.frame r same]
        rfl

/-! ### One call -/

theorem holdsChunk_of_sameRow {chip chip' : Chip} {r : Nat} {data oob : List INT8U}
    (same : SameRow chip' chip r) (held : chip.HoldsChunk r data oob) :
    chip'.HoldsChunk r data oob := by
  intro c inside
  rw [same c inside]
  exact held c inside

theorem eraseBlock_step (s : Store) (block : Fin 4096) (verdict : Outcome)
    (consistent : Consistent s) (sound : Sound s ⟨.eraseBlock block, verdict⟩) :
    Meets s ⟨.eraseBlock block, verdict⟩ ∧
      ∃ t, step s ⟨.eraseBlock block, verdict⟩ = some t ∧ Consistent t := by
  obtain ⟨status, settled⟩ := erase_settled s ⟨.eraseBlock block, verdict⟩ block
  simp only [Sound] at sound
  -- A chunk still written lies outside the block asked for, and its row is as it was.
  have kept : Meets s ⟨.eraseBlock block, verdict⟩ ∧
      ∀ r < numRows, ∀ w, s.written r = some w → r / rowsPerBlock ≠ block →
        SameRow (s.erase ⟨.eraseBlock block, verdict⟩ block).2 s.chip r := by
    cases passes : verdict.passes with
    | true =>
      rw [if_pos passes] at sound
      have meets := (meets_erase_iff s block verdict passes).mpr sound
      exact ⟨meets, fun r bound w _ other => (meets (status.trans passes) r bound).2 other⟩
    | false =>
      rw [if_neg (by rw [passes]; decide)] at sound
      refine ⟨fun ok => ?_, fun r bound w here other c _ => ?_⟩
      · rw [status, passes] at ok
        cases ok
      · have outside : r / rowsPerBlock ≠ reached block := by
          intro hit
          rw [sound r bound hit other] at here
          cases here
        rw [settled.frame r outside]
        rfl
  refine ⟨kept.1, _, rfl, fun r bound w here programmed => ?_⟩
  simp only at here
  split at here
  · cases here
  · rename_i other
    exact holdsChunk_of_sameRow (kept.2 r bound w here other) (consistent r bound w here programmed)

theorem write_settled (s : Store) (e : Event) (chunk : Fin 262144) (data : Vector INT8U 2048)
    (oob : Oob) :
    ∃ result, s.write e chunk (some data) (some oob) = some result ∧
      Settled (s.ready e) result.2 (fun r => r = chunk) fun r c =>
        s.chip.cells r c &&&
          pageImage data.toList (spareImage data.toList oob.bytes).toList c := by
  have number := toNat_argument chunk (by decide)
  have image := yaffsNandDrvWriteChunk_eq (s.ready e) (argument chunk) data.toList oob.bytes
  obtain ⟨after, programmed, settled⟩ := nandFlashPageProgramWithSpare_settled (s.ready e)
    (argument chunk) data.toList (spareImage data.toList oob.bytes).toList
    (by rw [number]; exact chunk.isLt) Vector.length_toList Vector.length_toList
    (head?_spareImage data.toList oob.bytes)
  rw [number] at settled
  exact ⟨_, image.trans programmed, settled⟩

/-- A null buffer is refused before the part is touched. -/
theorem write_refused (s : Store) (e : Event) (chunk : Fin 262144)
    (data : Option (Vector INT8U 2048)) (oob : Option Oob) (missing : data = none ∨ oob = none) :
    s.write e chunk data oob = some (false, s.ready e) ∧
      ∀ programmed, record s.written chunk data oob programmed = s.written := by
  cases missing with
  | inl noData =>
    subst noData
    exact ⟨rfl, fun _ => rfl⟩
  | inr noOob =>
    subst noOob
    cases data <;> exact ⟨rfl, fun _ => rfl⟩

theorem step_write {s : Store} {chunk : Fin 262144} {data : Option (Vector INT8U 2048)}
    {oob : Option Oob} {verdict : Outcome} {result : Bool × Chip}
    (written : s.write ⟨.writeChunk chunk data oob, verdict⟩ chunk data oob = some result) :
    step s ⟨.writeChunk chunk data oob, verdict⟩ =
      some { chip := result.2, written := record s.written chunk data oob verdict.passes } := by
  simp only [step, written, Option.map_some]

theorem refused_step (s : Store) (chunk : Fin 262144) (data : Option (Vector INT8U 2048))
    (oob : Option Oob) (verdict : Outcome) (consistent : Consistent s)
    (missing : data = none ∨ oob = none) :
    Meets s ⟨.writeChunk chunk data oob, verdict⟩ ∧
      ∃ t, step s ⟨.writeChunk chunk data oob, verdict⟩ = some t ∧ Consistent t := by
  obtain ⟨result, unrecorded⟩ :=
    write_refused s ⟨.writeChunk chunk data oob, verdict⟩ chunk data oob missing
  refine ⟨⟨_, result, fun r _ _ c _ => rfl⟩, _, step_write result, ?_⟩
  rw [unrecorded]
  exact consistent

theorem writeChunk_step (s : Store) (chunk : Fin 262144) (data : Vector INT8U 2048) (oob : Oob)
    (verdict : Outcome) (consistent : Consistent s)
    (sound : Sound s ⟨.writeChunk chunk (some data) (some oob), verdict⟩) :
    Meets s ⟨.writeChunk chunk (some data) (some oob), verdict⟩ ∧
      ∃ t, step s ⟨.writeChunk chunk (some data) (some oob), verdict⟩ = some t ∧
        Consistent t := by
  obtain ⟨result, written, settled⟩ :=
    write_settled s ⟨.writeChunk chunk (some data) (some oob), verdict⟩ chunk data oob
  have others : ∀ r : Nat, r ≠ chunk → SameRow result.2 s.chip r := by
    intro r other c _
    rw [settled.frame r other]
    rfl
  refine ⟨⟨result, written, fun r _ other => others r other⟩, _, step_write written, ?_⟩
  intro r bound w here programmed
  simp only [record] at here
  by_cases same : r = chunk
  · subst same
    rw [Function.update_self, Option.some.injEq] at here
    subst here
    intro c inside
    rw [settled.done programmed chunk rfl]
    exact sound programmed c inside
  · rw [Function.update_of_ne same] at here
    exact holdsChunk_of_sameRow (others r same) (consistent r bound w here programmed)

/-- Reading leaves every row as it was. -/
theorem read_cells (s : Store) (e : Event) (chunk : Fin 262144) (wantsData : Bool)
    (oobLen : Option (Fin 39)) : (s.read e chunk wantsData oobLen).chip.cells = s.chip.cells := by
  have number := toNat_argument chunk (by decide)
  obtain ⟨after, read, kept⟩ := nandFlashPageReadWithSpare_eq (s.ready e) (argument chunk) wantsData
    (by rw [number]; exact chunk.isLt)
  have part : (s.read e chunk wantsData oobLen).chip = after := by
    unfold Store.read yaffsNandDrvReadChunk
    rw [read]
    rfl
  rw [part, kept]
  rfl

theorem readChunk_step (s : Store) (chunk : Fin 262144) (wantsData : Bool)
    (oobLen : Option (Fin 39)) (verdict : Outcome) (consistent : Consistent s)
    (sound : Sound s ⟨.readChunk chunk wantsData oobLen, verdict⟩) :
    Meets s ⟨.readChunk chunk wantsData oobLen, verdict⟩ ∧
      ∃ t, step s ⟨.readChunk chunk wantsData oobLen, verdict⟩ = some t ∧ Consistent t := by
  have number := toNat_argument chunk (by decide)
  constructor
  · intro w here
    have held := consistent chunk chunk.isLt w here (sound w here)
    rw [← number] at held
    obtain ⟨after, read, -⟩ := yaffsNandDrvReadChunk_written
      (s.ready ⟨.readChunk chunk wantsData oobLen, verdict⟩) (argument chunk) w.data.toList
      w.oob.bytes wantsData (oobLen.map Fin.val) (by rw [number]; exact chunk.isLt)
      Vector.length_toList w.oob.fits held
    unfold Store.read
    rw [read]
    refine ⟨rfl, rfl, fun asked => if_pos asked, fun len given => ?_⟩
    subst given
    rfl
  · refine ⟨_, rfl, fun r bound w here programmed c inside => ?_⟩
    rw [read_cells]
    exact consistent r bound w here programmed c inside

/-- One sound call does what it promises and keeps the rows in step with the promises. -/
theorem sound_step (s : Store) (e : Event) (consistent : Consistent s) (sound : Sound s e) :
    Meets s e ∧ ∃ t, step s e = some t ∧ Consistent t := by
  obtain ⟨call, verdict⟩ := e
  cases call with
  | writeChunk chunk data oob =>
    cases data with
    | none => exact refused_step s chunk none oob verdict consistent (Or.inl rfl)
    | some data =>
      cases oob with
      | none => exact refused_step s chunk (some data) none verdict consistent (Or.inr rfl)
      | some oob => exact writeChunk_step s chunk data oob verdict consistent sound
  | readChunk chunk wantsData oobLen =>
    exact readChunk_step s chunk wantsData oobLen verdict consistent sound
  | eraseBlock block => exact eraseBlock_step s block verdict consistent sound

/-! ### Every run -/

/-- On any flash content, a run of sound calls keeps all its promises. -/
theorem store_meets (chip : Chip) (events : List Event)
    (sound : EachStep step Sound (Store.fresh chip) events) :
    Always step Consistent (Store.fresh chip) events ∧
      EachStep step Meets (Store.fresh chip) events := by
  have start : Consistent (Store.fresh chip) := by
    intro r _ w here
    cases here
  exact always_and_eachStep sound_step start sound

/-- A part whose cells all hold `byte`. -/
def uniform (byte : INT8U) : Chip where
  cells := fun _ _ => byte
  mode := .idle
  cycle := 0
  column := 0
  row := 0
  register := fun _ => 0xFF
  failed := false
  verdict := .pass

/-- An erased cell takes any byte. -/
theorem and_of_erased {cell : INT8U} (erased : cell = 0xFF) (byte : INT8U) : cell &&& byte = byte := by
  rw [erased]
  exact BitVec.allOnes_and

/-- On a part full of zeros block 0 is erased, a chunk is written to it and read back with four
bytes of tags, and the block is erased again. -/
theorem store_meets_erased :
    let data : Vector INT8U 2048 := Vector.replicate 2048 0x5A
    let events : List Event :=
      [⟨.eraseBlock 0, .pass⟩, ⟨.writeChunk 7 (some data) (some ⟨[1, 2, 3, 4], by decide⟩), .pass⟩,
        ⟨.readChunk 7 true (some 4), .pass⟩, ⟨.eraseBlock 0, .pass⟩]
    Always step Consistent (Store.fresh (uniform 0x00)) events ∧
      EachStep step Meets (Store.fresh (uniform 0x00)) events := by
  intro data events
  refine store_meets (uniform 0x00) events ⟨Or.inl rfl, fun s cleared => ⟨fun _ c _ => ?_, ?_⟩⟩
  · obtain rfl := Option.some.inj cleared
    obtain ⟨-, settled⟩ := erase_settled (Store.fresh (uniform 0x00)) ⟨.eraseBlock 0, .pass⟩ 0
    exact and_of_erased (congrFun (settled.done rfl (7 : Fin 262144).val (by decide)) c) _
  intro t taken
  refine ⟨fun w here => ?_, fun _ _ => ⟨Or.inl rfl, fun _ _ => trivial⟩⟩
  simp only [step, Option.map_eq_some_iff] at taken
  obtain ⟨result, -, rfl⟩ := taken
  simp only [record] at here
  rw [Function.update_self, Option.some.injEq] at here
  subst here
  rfl

/-- Erasing block 1 of a part full of zeros is reported as done, clears row 0 and leaves
row 64 as it was. -/
theorem eraseBlock_wrongBlock :
    let before := Store.fresh (uniform 0x00)
    let erase : Event := ⟨.eraseBlock 1, .pass⟩
    (before.erase erase 1).1 = true ∧ (before.erase erase 1).2.cells 64 0 = 0x00 ∧
      (before.erase erase 1).2.cells 0 0 = 0xFF ∧ ¬ EachStep step Meets before [erase] := by
  have status : ((Store.fresh (uniform 0x00)).erase ⟨.eraseBlock 1, .pass⟩ 1).1 = true := by decide
  have missed :
      ((Store.fresh (uniform 0x00)).erase ⟨.eraseBlock 1, .pass⟩ 1).2.cells 64 0 = 0x00 := by
    decide
  refine ⟨status, missed, by decide, fun each => ?_⟩
  have cleared := (each.1 status 64 (by decide)).1 (by decide) 0 (by decide)
  exact absurd (missed.symm.trans cleared) (by decide)

end GasSub.Guarantees.FlashStore
