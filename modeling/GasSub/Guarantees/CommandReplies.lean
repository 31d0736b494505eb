import GasSub.Source.FtpFileCommands

/-!
# Every command is answered

A command of an FTP session against the replies it leaves behind. LIST, NLST,
RETR and STOR reply only once they have a data connection: without a free
socket, a descriptor or a connection nothing is written. The other commands
reply unless a path they join runs out of its memory.
-/
namespace GasSub.Guarantees.CommandReplies
open GasSub.Source GasSub.Source.Hvsftpd GasSub.Library.CharArray

variable {φ : Type}

/-- The command in the buffer of the session ends, with a reply more. -/
def Replied (fs : FileSystem φ) (env : Surroundings) (m : Machine φ) : Prop :=
  ∃ m' status, Hvsftpd.cmdDisptach fs env m.session.cmdBuf.text m = some (m', status) ∧
    ∃ reply rest, m'.replies = m.replies ++ reply :: rest

/-- The condition: a command that needs a data connection can have one, any other stays
inside memory. -/
def CanReply (env : Surroundings) (m : Machine φ) : Prop :=
  ∀ handler, cmdHandler m.session.cmdBuf.text = some handler →
    if opensData handler then ConnectsFor env m
    else FitsMemory env m.session m.session.commandLine.param handler

/-- A command with a data connection replies exactly when it can have one. -/
theorem replied_opens_iff {fs : FileSystem φ} {env : Surroundings} {m : Machine φ}
    {handler : FtpHandler} (names : cmdHandler m.session.cmdBuf.text = some handler)
    (opens : opensData handler = true) : Replied fs env m ↔ ConnectsFor env m := by
  obtain ⟨m', handled, opened, unopened⟩ :=
    handle_opens fs env m m.session.commandLine.param opens
  have dispatched : Hvsftpd.cmdDisptach fs env m.session.cmdBuf.text m = some (m', handler.status) :=
    (cmdDisptach_handler names).trans handled
  constructor
  · rintro ⟨out, status, taken, reply, rest, replied⟩
    by_contra refused
    rw [dispatched] at taken
    cases taken
    rw [(unopened refused).silent] at replied
    exact List.cons_ne_nil _ _ (List.append_right_eq_self.mp replied.symm)
  · intro connects
    obtain ⟨i, slot⟩ := opened connects
    exact ⟨m', _, dispatched, _, [], slot.replied⟩

/-- Every other command replies exactly when it stays inside memory. -/
theorem replied_silent_iff {fs : FileSystem φ} {env : Surroundings} {m : Machine φ}
    (rooted : m.session.Rooted) {handler : FtpHandler}
    (names : cmdHandler m.session.cmdBuf.text = some handler)
    (silent : opensData handler = false) :
    Replied fs env m ↔ FitsMemory env m.session m.session.commandLine.param handler := by
  have dispatched : Hvsftpd.cmdDisptach fs env m.session.cmdBuf.text m =
      handle fs env m m.session.commandLine.param handler := cmdDisptach_handler names
  rw [← handle_defined_iff fs env rooted m.session.commandLine.nulFree_param
    m.session.commandLine.length_param handler]
  constructor
  · rintro ⟨out, status, taken, -⟩
    rw [← dispatched, taken]
    rfl
  · intro defined
    obtain ⟨⟨m', status⟩, handled⟩ := Option.isSome_iff_exists.mp defined
    obtain ⟨⟨⟨reply, replied⟩, -⟩, -⟩ := handle_answered silent handled
    exact ⟨m', status, dispatched.trans handled, reply, [], replied⟩

theorem replied_unknown {fs : FileSystem φ} {env : Surroundings} {m : Machine φ}
    (unknown : cmdHandler m.session.cmdBuf.text = none) : Replied fs env m := by
  unfold Replied Hvsftpd.cmdDisptach
  simp only [unknown]
  exact ⟨_, _, rfl, _, [], rfl⟩

/-- Of every state of a session and every command line, the command is answered exactly
under the condition. -/
theorem replied_iff (fs : FileSystem φ) (env : Surroundings) (m : Machine φ)
    (rooted : m.session.Rooted) : Replied fs env m ↔ CanReply env m := by
  unfold CanReply
  cases names : cmdHandler m.session.cmdBuf.text with
  | none =>
    refine ⟨fun _ handler known => ?_, fun _ => replied_unknown names⟩
    cases known
  | some handler =>
    simp only [Option.some.injEq, forall_eq']
    cases opens : opensData handler with
    | true =>
      rw [replied_opens_iff names opens]
      exact Iff.rfl
    | false =>
      rw [replied_silent_iff rooted names opens]
      exact Iff.rfl

/-- A session that has just read `line`. -/
def hasRead (line : String) : Machine (List Path) :=
  let m := Machine.accepted []
  { m with session := { m.session with cmdBuf := m.session.cmdBuf.write (asciiBytes line) } }

theorem replied_iff_retr :
    Replied FileSystem.names Surroundings.plain (hasRead "RETR a") ↔
      CanReply Surroundings.plain (hasRead "RETR a") :=
  replied_iff FileSystem.names Surroundings.plain (hasRead "RETR a") (rooted_accepted 1)

/-- LIST towards an address that refuses the connection leaves no reply. -/
theorem list_silent :
    ¬ Replied FileSystem.names { Surroundings.plain with connect := fun _ _ => false }
      (hasRead "LIST") := by
  have silent : (Hvsftpd.cmdDisptach FileSystem.names
      { Surroundings.plain with connect := fun _ _ => false }
      (hasRead "LIST").session.cmdBuf.text (hasRead "LIST")).map (fun out => out.1.replies) =
        some [] := by decide
  rintro ⟨m', status, taken, reply, rest, replied⟩
  rw [taken] at silent
  have empty : m'.replies = [] := Option.some.inj silent
  rw [empty] at replied
  exact List.cons_ne_nil _ _ (List.append_eq_nil_iff.mp replied.symm).2

end GasSub.Guarantees.CommandReplies
