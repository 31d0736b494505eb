import GasSub.Library.MemoryText
import GasSub.Source.FtpReading

/-!
# A session in memory

`struct session` of `session.h` as its bytes, and `cmd_append` of `session.c` on them:
a store behind `cmd_buf` would hit `renaming` and what follows. Pointers have four
bytes. The chunk is read as it was at the call.
-/
namespace GasSub.Source.Hvsftpd
open GasSub.Library.ByteMemory GasSub.Library.ByteWord GasSub.Library.CharArray

/-! ### `struct session` -/

inductive SessionField where
  | cmdSock | dataSock | callback | param | rootDir | currentDir | cmdBuf | renaming | addr | port
  deriving DecidableEq, Repr

def SessionField.size : SessionField → Nat
  | .cmdSock => 4
  | .dataSock => 4
  | .callback => 4
  | .param => maxRequestLen + 1
  | .rootDir => maxPathLen + 1
  | .currentDir => maxPathLen + 1
  | .cmdBuf => maxRequestLen + 1
  | .renaming => maxPathLen + 1
  | .addr => 16
  | .port => 2

/-- A byte of padding stands in front of `port`. -/
def SessionField.offset : SessionField → Nat
  | .cmdSock => 0
  | .dataSock => 4
  | .callback => 8
  | .param => 12
  | .rootDir => 141
  | .currentDir => 270
  | .cmdBuf => 399
  | .renaming => 528
  | .addr => 657
  | .port => 674

def SessionField.bytes (field : SessionField) (m : Memory) (s : Nat) : List INT8U :=
  bytesFrom m (s + field.offset) field.size

/-- An address in front of the field of the session at `s`, or behind it. -/
def SessionField.Outside (field : SessionField) (s a : Nat) : Prop :=
  a < s + field.offset ∨ s + field.offset + field.size ≤ a

theorem SessionField.apart_cmdBuf (field : SessionField) (differs : field ≠ .cmdBuf) :
    field.offset + field.size ≤ cmdBuf.offset ∨ cmdBuf.offset + cmdBuf.size ≤ field.offset := by
  cases field <;> first | exact absurd rfl differs | decide

/-- The other fields lie outside of the command buffer. -/
theorem SessionField.bytes_congr {field : SessionField} {m after : Memory} {s : Nat}
    (kept : ∀ a, cmdBuf.Outside s a → after a = m a) (differs : field ≠ .cmdBuf) :
    field.bytes after s = field.bytes m s := by
  have apart := field.apart_cmdBuf differs
  refine bytesFrom_congr fun k inside => kept _ ?_
  unfold Outside
  omega

/-! ### `cmd_append` -/

/-- The loop, with `l` bytes of the command in the array at `cmdBuf`. -/
def cmdAppendFrom (cmdBuf : Nat) : Memory → (l : Nat) → List INT8U → INT32S × Memory
  | m, l, [] => (0, store m (cmdBuf + l) [0])
  | m, l, c :: rest =>
    if c = 0x0D ∧ rest.head? = some 0x0A then (1, store m (cmdBuf + l) [0])
    else if l < maxRequestLen then cmdAppendFrom cmdBuf (store m (cmdBuf + l) [c]) (l + 1) rest
    else cmdAppendFrom cmdBuf m l rest

/-- `cmd_append` on the session at `s`. -/
def cmdAppendMemory (s : Nat) (buf : List INT8U) (fuel : Nat) (m : Memory) :
    Option (INT32S × Memory) :=
  let cmdBuf := s + SessionField.cmdBuf.offset
  (strlen m fuel cmdBuf).map fun l => cmdAppendFrom cmdBuf m l buf

/-- The loop stores what the loop on the text adds to it, and a NUL. -/
theorem cmdAppendFrom_simulates (cmdBuf : Nat) (m : Memory) (text buf : List INT8U) :
    ∃ more, (cmdAppendLoop text buf).2 = text ++ more ∧
      cmdAppendFrom cmdBuf m text.length buf =
        (if (cmdAppendLoop text buf).1 then 1 else 0,
          store m (cmdBuf + text.length) (more ++ [0])) := by
  induction buf generalizing m text with
  | nil => exact ⟨[], (List.append_nil text).symm, rfl⟩
  | cons c rest ih =>
    unfold cmdAppendLoop cmdAppendFrom
    by_cases here : c = 0x0D ∧ rest.head? = some 0x0A
    · simp only [if_pos here]
      exact ⟨[], (List.append_nil text).symm, rfl⟩
    · simp only [if_neg here]
      by_cases room : text.length < maxRequestLen
      · obtain ⟨more, grown, stored⟩ := ih (store m (cmdBuf + text.length) [c]) (text ++ [c])
        have longer : (text ++ [c]).length = text.length + 1 := List.length_append
        rw [longer] at stored
        simp only [if_pos room]
        refine ⟨c :: more, by rw [grown, List.append_assoc]; rfl, stored.trans ?_⟩
        rw [← Nat.add_assoc]
        exact congrArg (Prod.mk _) (store_append m _ [c] (more ++ [0])).symm
      · simp only [if_neg room]
        exact ih m text

variable {m : Memory} {s : Nat} {text : List INT8U}

theorem length_le_of_holds (holds : Holds 0 (SessionField.cmdBuf.bytes m s) text) :
    text.length ≤ maxRequestLen := by
  have inside := holds.length_lt
  rw [SessionField.bytes, length_bytesFrom] at inside
  exact Nat.le_of_lt_succ inside

/-- The call returns, and overwrites the command buffer with what `FtpCommand` says of it. -/
theorem cmdAppendMemory_runs (holds : Holds 0 (SessionField.cmdBuf.bytes m s) text)
    (buf : List INT8U) :
    ∃ after, (∀ fuel, text.length < fuel →
        cmdAppendMemory s buf fuel m = some (if (cmdAppend text buf).1 then 1 else 0, after)) ∧
      SessionField.cmdBuf.bytes after s =
        overwrite 0 (SessionField.cmdBuf.bytes m s) (cmdAppend text buf).2 ∧
      ∀ a, SessionField.cmdBuf.Outside s a → after a = m a := by
  have whole : cString text = text := cString_of_nulFree holds.free
  have bounded := length_cmdAppend (length_le_of_holds holds) buf
  obtain ⟨more, grown, stored⟩ :=
    cmdAppendFrom_simulates (s + SessionField.cmdBuf.offset) m text buf
  unfold cmdAppend at bounded ⊢
  rw [whole] at bounded ⊢
  rw [grown, List.length_append] at bounded
  have size : SessionField.cmdBuf.size = maxRequestLen + 1 := rfl
  refine ⟨store m (s + SessionField.cmdBuf.offset + text.length) (more ++ [0]),
    fun fuel enough => ?_, ?_, fun a outside => ?_⟩
  · rw [cmdAppendMemory]
    simp only [strlen_holds holds enough, Option.map_some, stored]
  · rw [grown]
    exact bytesFrom_store_text holds (Nat.lt_succ_of_le bounded)
  · unfold SessionField.Outside at outside
    refine store_outside _ _ _ _ ?_
    rw [List.length_append, List.length_singleton]
    omega

/-! ### The session of the server -/

/-- The numbers that stand for pointers in memory. -/
structure PointerCode where
  sock : Option Slot → Vector INT8U 4
  callback : Option SessionCallback → Vector INT8U 4

/-- What a field of the session holds, in bytes. -/
def Session.field (code : PointerCode) (session : Session) : SessionField → List INT8U
  | .cmdSock => (code.sock session.cmdSock).toList
  | .dataSock => (code.sock session.dataSock).toList
  | .callback => (code.callback session.callback).toList
  | .param => session.param.symbols
  | .rootDir => session.rootDir.symbols
  | .currentDir => session.currentDir.symbols
  | .cmdBuf => session.cmdBuf.symbols
  | .renaming => session.renamingPath.symbols
  | .addr => session.addr
  | .port => [byteOf session.port 0, byteOf session.port 1]

def Session.LiesAt (code : PointerCode) (session : Session) (m : Memory) (s : Nat) : Prop :=
  ∀ field : SessionField, field.bytes m s = session.field code field

/-- `cmd_append` in memory makes of a session what the server makes of it. -/
theorem cmdAppendMemory_liesAt {code : PointerCode} {session : Session}
    (lies : session.LiesAt code m s) (buf : List INT8U) :
    let appended := cmdAppend session.cmdBuf.text buf
    ∃ after, (∀ fuel, session.cmdBuf.text.length < fuel →
        cmdAppendMemory s buf fuel m = some (if appended.1 then 1 else 0, after)) ∧
      (session.withCommand appended.2).LiesAt code after s := by
  have array : SessionField.cmdBuf.bytes m s = session.cmdBuf.symbols := lies .cmdBuf
  have holds := session.cmdBuf.holds
  rw [← array] at holds
  obtain ⟨after, runs, overwritten, kept⟩ := cmdAppendMemory_runs holds buf
  refine ⟨after, runs, fun field => ?_⟩
  by_cases command : field = .cmdBuf
  · subst command
    have fits : (cmdAppend session.cmdBuf.text buf).2.length ≤ maxPathLen :=
      length_cmdAppend session.cmdBuf.length_text_le buf
    have written : (session.withCommand (cmdAppend session.cmdBuf.text buf).2).cmdBuf.symbols =
        overwrite 0 session.cmdBuf.symbols
          ((cmdAppend session.cmdBuf.text buf).2.take maxPathLen) := rfl
    rw [List.take_of_length_le fits] at written
    rw [overwritten, array]
    exact written.symm
  · rw [SessionField.bytes_congr kept command, lies field]
    cases field <;> first | rfl | exact absurd rfl command

end GasSub.Source.Hvsftpd
