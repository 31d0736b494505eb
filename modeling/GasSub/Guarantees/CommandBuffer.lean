import GasSub.Source.FtpSessionMemory

/-!
# The command buffer after one chunk

What `cmd_append` returns for a chunk and leaves in the session, over the bytes of the
chunk alone. A CRLF counts only if it lies in the chunk as a whole; bytes past the
request length are dropped.
-/
namespace GasSub.Guarantees.CommandBuffer
open GasSub.Source GasSub.Source.Hvsftpd
open GasSub.Library.ByteMemory GasSub.Library.CharArray GasSub.Library.Terminator

def crlf : List INT8U := [0x0D, 0x0A]

/-- The bytes before the first CRLF; all of them if there is none. -/
def beforeCrlf (chunk : List INT8U) : List INT8U :=
  match chunk.dropInfix? crlf with
  | some (line, _) => line
  | none => chunk

/-- The call on the session at `s`, whose command buffer holds `text`, returns `ret` and
leaves the memory `after`. -/
structure Appends (m : Memory) (s : Nat) (text chunk : List INT8U) (ret : INT32S)
    (after : Memory) : Prop where
  completes : ret = 1 ↔ crlf <:+: chunk
  holds : Holds 0 (SessionField.cmdBuf.bytes after s) ((text ++ beforeCrlf chunk).take maxRequestLen)
  others : ∀ field, field ≠ .cmdBuf → SessionField.bytes field after s = field.bytes m s
  outside : ∀ a, SessionField.cmdBuf.Outside s a → after a = m a

/-- The loop finds the first CRLF. -/
theorem cmdAppend_eq {text : List INT8U} (free : 0 ∉ text) (short : text.length ≤ maxRequestLen)
    (chunk : List INT8U) :
    ((cmdAppend text chunk).1 = true ↔ crlf <:+: chunk) ∧
      (cmdAppend text chunk).2 = (text ++ beforeCrlf chunk).take maxRequestLen := by
  have appended := cmdAppendLoop_eq text chunk
  rw [List.take_of_length_le short] at appended
  unfold cmdAppend beforeCrlf crlf
  rw [cString_of_nulFree free, appended, ← splitFirst_eq_dropInfix?, ← isSome_splitFirst_iff]
  cases splitFirst 0x0D 0x0A chunk with
  | none => exact ⟨iff_of_false Bool.false_ne_true Bool.false_ne_true, rfl⟩
  | some parts => exact ⟨iff_of_true rfl rfl, rfl⟩

theorem free_beforeCrlf {chunk : List INT8U} (free : 0 ∉ chunk) : 0 ∉ beforeCrlf chunk := by
  unfold beforeCrlf
  cases split : chunk.dropInfix? crlf with
  | none => exact free
  | some parts =>
    obtain ⟨pair, whole, -⟩ := (List.dropInfix?_eq_some_iff.mp split).1
    rw [whole, List.append_assoc, List.mem_append, not_or] at free
    exact free.1

/-- A chunk without NUL is taken up as far as there is room, up to its first CRLF. -/
theorem cmdAppend_appends (m : Memory) (s : Nat) (text chunk : List INT8U)
    (held : Holds 0 (SessionField.cmdBuf.bytes m s) text) (free : 0 ∉ chunk) :
    ∃ ret after, (∀ fuel, text.length < fuel →
        cmdAppendMemory s chunk fuel m = some (ret, after)) ∧
      Appends m s text chunk ret after := by
  obtain ⟨after, runs, overwritten, kept⟩ := cmdAppendMemory_runs held chunk
  obtain ⟨completes, contents⟩ := cmdAppend_eq held.free (length_le_of_holds held) chunk
  have contentsFree : 0 ∉ (cmdAppend text chunk).2 := by
    rw [contents]
    intro member
    rcases List.mem_append.mp (List.mem_of_mem_take member) with old | new
    · exact held.free old
    · exact free_beforeCrlf free new
  refine ⟨_, after, runs, ?_, ?_, fun field => SessionField.bytes_congr kept, kept⟩
  · rw [← completes]
    split
    · case isTrue complete => exact iff_of_true rfl complete
    · case isFalse open_line => exact iff_of_false (by decide) open_line
  · rw [overwritten, ← contents]
    exact holds_overwrite contentsFree

/-- A whole command arrives in a session that has been cleared. -/
theorem cmdAppend_appends_pwd :
    ∃ ret after, (∀ fuel, 0 < fuel →
        cmdAppendMemory 0 (asciiBytes "PWD\r\n") fuel (fun _ => 0) = some (ret, after)) ∧
      Appends (fun _ => 0) 0 [] (asciiBytes "PWD\r\n") ret after :=
  cmdAppend_appends (fun _ => 0) 0 [] (asciiBytes "PWD\r\n") ⟨by decide, _, rfl⟩ (by decide)

end GasSub.Guarantees.CommandBuffer
