import GasSub.Source.FtpFileCommands
import Mathlib.Data.List.Induction

/-!
# What STOR writes

`stor_read` on what the data socket gives: chunks and would-blocks in any order, and
the close behind them. Every chunk is written, once and in its turn; a would-block
writes nothing and goes on; the close ends the loop, whatever would come after it.
-/
namespace GasSub.Guarantees.FileUpload
open GasSub.Source GasSub.Source.Hvsftpd GasSub.Library.CharArray

/-! ### The data socket -/

/-- A result of `recv` in front of the close. -/
inductive DataResult where
  | chunk (bytes : List INT8U) (filled : bytes ≠ []) (fits : bytes.length ≤ fileBufSize)
  | wouldBlock

/-- `errno` is `EWOULDBLOCK` after a would-block and 0 after data. -/
def DataResult.received : DataResult → Received
  | .chunk bytes _ _ => ⟨some bytes, false⟩
  | .wouldBlock => ⟨none, true⟩

def DataResult.data : DataResult → Option (List INT8U)
  | .chunk bytes _ _ => some bytes
  | .wouldBlock => none

/-- The connection has been closed by the client. -/
def closing : Received := ⟨some [], false⟩

/-- The chunks in their order. -/
def chunks (results : List DataResult) : List (List INT8U) := results.filterMap DataResult.data

/-- The loop takes the chunks and ends at the close. -/
theorem storLoop_chunks (results : List DataResult) (rest : List Received) :
    storLoop (results.map DataResult.received ++ closing :: rest) = some (chunks results) := by
  induction results with
  | nil => rfl
  | cons result results ih =>
    rw [List.map_cons, List.cons_append, storLoop]
    cases result with
    | chunk bytes filled fits =>
      have read : (socketRead (DataResult.chunk bytes filled fits).received).1 = bytes := rfl
      have waits : (DataResult.chunk bytes filled fits).received.wouldBlock = false := rfl
      rw [read, waits, if_pos (Or.inl filled), if_neg Bool.false_ne_true, ih]
      rfl
    | wouldBlock =>
      have waits : DataResult.wouldBlock.received.wouldBlock = true := rfl
      rw [waits, if_pos (Or.inr rfl), if_pos rfl, ih]
      rfl

/-! ### The file -/

variable {φ : Type}

/-- The files after the blocks have been written one after the other. -/
def written (fs : FileSystem φ) (fd : Nat) (files : φ) (blocks : List (List INT8U)) : φ :=
  blocks.foldl (fs.write · fd ·) files

theorem written_concat (fs : FileSystem φ) (fd : Nat) (files : φ) (blocks : List (List INT8U))
    (block : List INT8U) :
    written fs fd files (blocks ++ [block]) = fs.write (written fs fd files blocks) fd block := by
  rw [written, List.foldl_append]
  rfl

/-- Where every write of the run is complete, the file has the blocks one behind the other. -/
theorem content_written {fs : FileSystem φ} {fd : Nat} {files : φ} {blocks : List (List INT8U)}
    {content : φ → List INT8U} (empty : content files = [])
    (complete : ∀ before block, before ++ [block] <+: blocks →
      content (fs.write (written fs fd files before) fd block) =
        content (written fs fd files before) ++ block) :
    content (written fs fd files blocks) = blocks.flatten := by
  induction blocks using List.reverseRecOn with
  | nil => exact empty
  | append_singleton front block ih =>
    have earlier := ih fun before next part =>
      complete before next (part.trans (List.prefix_append front [block]))
    rw [written_concat, complete front block (List.prefix_refl _), earlier, List.flatten_append,
      List.flatten_singleton]

/-! ### The callback -/

/-- The block of `stor_read` has room for every path. -/
theorem uploadPath_fits (s : Session) {param : Path} (short : param.length ≤ maxPathLen) :
    PathsFit (maxPathLen + fileBufSize) nandDir s.currentDir.text param := by
  have current := s.currentDir.length_text_le
  have root : (trimEnd nandDir).length = 5 := by decide
  have limits : maxPathLen = 128 ∧ fileBufSize = 1024 := ⟨rfl, rfl⟩
  have joined : ∀ r p : Path, (appendPath r p).length ≤ (trimEnd r).length + 1 + p.length := by
    intro r p
    have cut := length_trimStart_le p
    rw [appendPath, List.length_append, List.length_cons]
    omega
  have first := joined nandDir s.currentDir.text
  have second := joined (joinPath nandDir s.currentDir.text) param
  have middle : (trimEnd (joinPath nandDir s.currentDir.text)).length ≤
      (appendPath nandDir s.currentDir.text).length :=
    Nat.le_trans (length_trimEnd_le _) (length_trimEnd_le _)
  constructor <;> omega

/-- `stor_read` with memory and an open file: on any chunks and would-blocks with the
close behind them it ends, the writes to the file are the chunks in their order, each
once, and so the file has all of them where every write is complete; there is one reply
and the data socket is free. -/
theorem storRead_stores (fs : FileSystem φ) (env : Surroundings) (m : Machine φ)
    (rooted : m.session.Rooted) {block : List INT8U}
    (given : env.malloc (maxPathLen + fileBufSize) = some block) {files : φ} {fd : Nat}
    (opened : fs.openFile m.files (m.session.target m.session.param.text) true = (files, some fd))
    {i : Slot} (data : m.session.dataSock = some i) (results : List DataResult)
    (rest : List Received)
    (stream : env.recv = results.map DataResult.received ++ closing :: rest)
    (content : φ → List INT8U) (empty : content files = [])
    (complete : ∀ before block, before ++ [block] <+: chunks results →
      content (fs.write (written fs fd files before) fd block) =
        content (written fs fd files before) ++ block)
    (closed : ∀ files, content (fs.close files fd) = content files) :
    ∃ m', storRead fs env m = some m' ∧
      m'.files = fs.close (written fs fd files (chunks results)) fd ∧
      content m'.files = (chunks results).flatten ∧
      m'.replies = m.replies ++ [.response "226 File received ok"] ∧
      m'.session.dataSock = none ∧ (m'.sockList i).fd = none ∧
      ∀ j, j ≠ i → m'.sockList j = m.sockList j := by
  have short : m.session.param.text.length ≤ maxPathLen := m.session.param.length_text_le
  obtain ⟨out, -, made⟩ := atPath_fits rooted m.session.param.holds.free short
    (Nat.le_add_right _ _) given (uploadPath_fits m.session short)
  have here : (m.call (.openFile (m.session.target m.session.param.text) true)).session.dataSock =
      some i := data
  have same : (m.call (.openFile (m.session.target m.session.param.text) true)).files = m.files := rfl
  have stored : storAt fs env m (m.session.target m.session.param.text) = some (sessionResponse
      { m.call (.openFile (m.session.target m.session.param.text) true) with
        sockList := Function.update m.sockList i { m.sockList i with state := .closed }
        files := fs.close (written fs fd files (chunks results)) fd }
      "226 File received ok") := by
    unfold storAt
    simp only [same, opened, here, stream, storLoop_chunks, Option.bind_eq_bind, Option.bind_some]
    rfl
  have closes : storRead fs env m = sessionClosedata (sessionResponse
      { m.call (.openFile (m.session.target m.session.param.text) true) with
        sockList := Function.update m.sockList i { m.sockList i with state := .closed }
        files := fs.close (written fs fd files (chunks results)) fd }
      "226 File received ok") := by
    unfold storRead
    simp only [made, stored, Option.bind_eq_bind, Option.bind_some]
  refine ⟨_, by rw [closes]; exact congrArg (Option.map _) here, rfl, ?_, rfl, rfl, ?_, ?_⟩
  · exact (closed _).trans (content_written empty complete)
  · simp only [socketFree, Function.update_self]
  · intro j other
    simp only [socketFree, sessionResponse, Function.update_of_ne other]

/-- A file system that holds one file. -/
def oneFile : FileSystem (List INT8U) where
  stat := fun files _ => some ⟨false, files.length⟩
  entries := fun _ _ => none
  openFile := fun files _ create => (if create then [] else files, some 3)
  blocks := fun files _ => [files]
  write := fun files _ block => files ++ block
  close := fun files _ => files
  unlink := fun _ _ => ([], true)
  rmdir := fun files _ => (files, false)
  mkdir := fun files _ => (files, false)
  rename := fun files _ _ => (files, true)
  remount := id

/-- Three bytes in two chunks, with a would-block between them. -/
def threeBytes : List DataResult :=
  [.chunk [0x31, 0x32] (by decide) (by decide), .wouldBlock, .chunk [0x33] (by decide) (by decide)]

/-- A session that is about to store them. -/
def storingThree : Machine (List INT8U) :=
  { Machine.accepted [0x7F] with
    session := { Session.accepted 1 with
      dataSock := some 2
      param := (Terminated.zero 0 maxPathLen).write (asciiBytes "a") } }

theorem storRead_stores_three :
    ∃ m', storRead oneFile
        { Surroundings.plain with
          recv := threeBytes.map DataResult.received ++ [closing, ⟨some [0x34], false⟩] }
        storingThree = some m' ∧
      m'.files = written oneFile 3 [] (chunks threeBytes) ∧ m'.files = [0x31, 0x32, 0x33] ∧
      m'.replies = [.response "226 File received ok"] ∧ m'.session.dataSock = none ∧
      (m'.sockList 2).fd = none ∧ ∀ j, j ≠ 2 → m'.sockList j = storingThree.sockList j :=
  storRead_stores oneFile _ storingThree (rooted_accepted 1) rfl rfl rfl threeBytes
    [⟨some [0x34], false⟩] rfl id rfl (fun _ _ _ => rfl) fun _ => rfl

end GasSub.Guarantees.FileUpload
