import GasSub.Source.FtpServer
import GasSub.Source.FtpTransfers

/-!
# Commands as the server reads them

`sockRead` of the server against that of `FtpCommand`, which keeps of a session
its command buffer and whether it is in memory. A chunk read on the command
socket does to both the same.
-/
namespace GasSub.Source.Hvsftpd
open GasSub.Library.CharArray GasSub.Library.Terminator

variable {φ : Type} {fs : FileSystem φ} {env : Surroundings} {s t : Server φ}

/-- The session at `a` as `FtpCommand` knows it. -/
def Server.commandSide (s : Server φ) (a : Nat) : FtpSession :=
  match s.sessions a with
  | some session => ⟨session.cmdBuf.text, false⟩
  | none => ⟨[], true⟩

theorem length_cmdAppend {cmdBuf : List INT8U} (short : cmdBuf.length ≤ maxRequestLen)
    (buf : List INT8U) : (cmdAppend cmdBuf buf).2.length ≤ maxRequestLen := by
  have cut : (cString cmdBuf).take maxRequestLen = cString cmdBuf :=
    List.take_of_length_le (Nat.le_trans (List.takeWhile_sublist _).length_le short)
  unfold cmdAppend
  rw [← cut, cmdAppendLoop_eq]
  cases splitFirst 0x0D 0x0A buf with
  | none => exact List.length_take_le _ _
  | some parts => exact List.length_take_le _ _

/-- `strlen` stops at a NUL that was received. -/
theorem text_withCommand (session : Session) {cmd : List INT8U}
    (short : cmd.length ≤ maxRequestLen) :
    (session.withCommand cmd).cmdBuf.text = cString cmd := by
  have whole : cmd.take maxPathLen = cmd := List.take_of_length_le short
  refine (Terminated.text_write_eq session.cmdBuf cmd).trans ?_
  rw [whole]
  rfl

theorem Server.commandSide_live {a : Nat} {session : Session} (live : s.sessions a = some session) :
    s.commandSide a = ⟨session.cmdBuf.text, false⟩ := by
  unfold commandSide
  rw [live]

theorem Server.commandSide_gone {a : Nat} (gone : s.sessions a = none) :
    s.commandSide a = ⟨[], true⟩ := by
  unfold commandSide
  rw [gone]

/-- The command side after a chunk was taken up, as long as the session has not been freed. -/
theorem commandReceived_reads {i : Slot} {a : Nat} {session : Session} {buf : List INT8U}
    (live : s.sessions a = some session) (inUse : (s.sockList i).fd ≠ none)
    (running : (s.sockList i).state ≠ .closed) (full : buf ≠ [])
    (taken : commandReceived fs env s i a buf = some t) :
    let next := (Source.sockRead (s.commandSide a) buf).1
    t.commandSide a = ⟨cString next.cmdBuf, false⟩ ∧
      ((t.sockList i).state = .closed ↔ next.freed = true) := by
  have some' : ¬ (false = true ∨ buf.length = 0) := by
    intro no
    rcases no with no | empty
    · cases no
    · exact full (List.length_eq_zero_iff.mp empty)
  rw [Server.commandSide_live live]
  unfold commandReceived at taken
  rw [live, Option.bind_some] at taken
  unfold Source.sockRead
  simp only [if_neg some']
  dsimp only at taken
  have short := length_cmdAppend session.cmdBuf.length_text_le buf
  split at taken
  · case isTrue completed =>
    obtain ⟨⟨m, status⟩, handled, same⟩ := Option.map_eq_some_iff.mp taken
    have self : m.self = a := cmdDisptach_self handled
    have kept : m.sockList i = s.sockList i := cmdDisptach_inUse handled inUse
    have table := cmdDisptach_status handled
    rw [text_withCommand session short] at table
    have empty : (m.session.withCommand []).cmdBuf.text = cString [] :=
      text_withCommand m.session (Nat.zero_le _)
    have put := s.after_sessions { m with session := m.session.withCommand [] }
    subst self
    dsimp only at put same
    simp only [if_pos completed, ← table, ← empty]
    split at same
    · case isTrue ok =>
      subst same
      refine ⟨Server.commandSide_live put, iff_of_false ?_ ?_⟩
      · exact fun closed => running (kept ▸ closed)
      · exact fun freed => of_decide_eq_true freed ok
    · case isFalse err =>
      subst same
      refine ⟨Server.commandSide_live put, iff_of_true ?_ (decide_eq_true err)⟩
      unfold Server.setState
      dsimp only
      rw [Function.update_self]
  · case isFalse unfinished =>
    cases taken
    simp only [if_neg unfinished]
    refine ⟨?_, iff_of_false running Bool.false_ne_true⟩
    rw [← text_withCommand session short]
    exact Server.commandSide_live (s.after_sessions _)

/-- A session that a chunk makes freed has run its command. -/
theorem cmdBuf_of_freed {f : FtpSession} {buf : List INT8U} (held : f.freed = false)
    (freed : (Source.sockRead f buf).1.freed = true) : (Source.sockRead f buf).1.cmdBuf = [] := by
  unfold Source.sockRead at freed ⊢
  split
  · case isTrue inert =>
    rw [if_pos inert, held] at freed
    cases freed
  · case isFalse takes =>
    rw [if_neg takes] at freed
    dsimp only at freed ⊢
    split
    · rfl
    · case isFalse unfinished =>
      rw [if_neg unfinished, held] at freed
      cases freed

/-- What `FtpCommand` says of a chunk is what the server does with it. -/
theorem sockRead_simulates {o : Occurrence} {i : Slot} {a : Nat} {session : Session}
    {buf : List INT8U} (userData : (s.sockList i).userData = some a)
    (live : s.sessions a = some session) (inUse : (s.sockList i).fd ≠ none)
    (running : (s.sockList i).state ≠ .closed) (received : o.received.result = some buf)
    (full : buf ≠ []) (taken : Hvsftpd.sockRead fs s o i = some t) :
    let next := (Source.sockRead (s.commandSide a) buf).1
    t.commandSide a = ⟨cString next.cmdBuf, next.freed⟩ := by
  have chunk : socketRead o.received = (buf, false) := by
    unfold socketRead
    rw [received]
    simp only [List.isEmpty_eq_false_iff.mpr full]
  unfold Hvsftpd.sockRead chunkReceived at taken
  simp only [chunk, userData, if_neg full, Option.bind_some, Bool.false_eq_true, if_false] at taken
  obtain ⟨after, reads, ends⟩ := Option.bind_eq_some_iff.mp taken
  obtain ⟨side, closes⟩ := commandReceived_reads live inUse running full reads
  dsimp only
  unfold freeClosed at ends
  split at ends
  · case isTrue closed =>
    have freed := closes.mp closed
    have held : (s.commandSide a).freed = false := by rw [Server.commandSide_live live]
    obtain ⟨other, -, same⟩ := Option.map_eq_some_iff.mp ends
    subst same
    rw [cmdBuf_of_freed held freed, freed]
    exact Server.commandSide_gone (Function.update_self _ _ _)
  · case isFalse running =>
    cases ends
    rw [side, Bool.eq_false_iff.mpr fun freed => running (closes.mpr freed)]

end GasSub.Source.Hvsftpd
