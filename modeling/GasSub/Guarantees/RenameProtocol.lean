import Mathlib.Data.List.DropRight
import GasSub.Library.Run
import GasSub.Source.FtpFileCommands

/-!
# RNFR and RNTO

The file an RNTO renames against the file the RNFR before it found. `renaming` is
set by a successful RNFR only and cleared by nothing: after a failed RNFR or a
second RNTO it still names the file of an earlier one, and at the start it is the
root directory.
-/
namespace GasSub.Guarantees.RenameProtocol
open GasSub.Source GasSub.Source.Hvsftpd GasSub.Library GasSub.Library.CharArray

/-! ### Names -/

/-- Two paths name one file: they differ in separators at the end only. -/
def SameName (p q : Path) : Prop := p.rdropWhile isSeparator = q.rdropWhile isSeparator

instance (p q : Path) : Decidable (SameName p q) := inferInstanceAs (Decidable (_ = _))

theorem sameName_trimEnd (path : Path) : SameName (trimEnd path) path := by
  unfold SameName
  rcases List.eq_nil_or_concat path with empty | ⟨init, c, whole⟩
  · subst empty
    rfl
  · rw [whole, List.concat_eq_append, trimEnd_append_singleton, List.rdropWhile_concat]
    split
    · rfl
    · case isFalse plain => rw [List.rdropWhile_concat_neg _ _ _ plain]

/-- The name RNFR keeps leads back to the path it was cut from. -/
theorem joinPath_nameUnder {s : Session} (rooted : s.Rooted) (param : Path) :
    joinPath nandDir (s.nameUnder param) = trimEnd (s.target param) := by
  rw [target_eq_append rooted]
  rcases nameUnder_head s param with empty | begins
  · rw [empty]
    decide
  · obtain ⟨rest, whole⟩ : ∃ rest, s.nameUnder param = slash :: rest := by
      cases name : s.nameUnder param with
      | nil => rw [name] at begins; cases begins
      | cons c rest =>
        rw [name] at begins
        cases begins
        exact ⟨rest, rfl⟩
    rw [whole]
    unfold joinPath appendPath
    rw [trimEnd_nandDir]
    rfl

theorem length_target_lt {s : Session} {k : Nat} (rooted : s.Rooted) {param : Path}
    (fits : PathsFit k nandDir s.currentDir.text param) : (s.target param).length < k := by
  have shorter := length_trimEnd_le (appendPath (joinPath nandDir s.currentDir.text) param)
  unfold Session.target
  rw [rooted]
  exact Nat.lt_of_le_of_lt shorter fits.2

theorem oldFits_nameUnder {s : Session} (rooted : s.Rooted) {param : Path}
    (fits : PathsFit maxPathLen nandDir s.currentDir.text param) :
    (appendPath nandDir (s.nameUnder param)).length < maxPathLen := by
  have whole := length_target_lt rooted fits
  rw [target_eq_append rooted, List.length_append] at whole
  unfold appendPath
  rw [trimEnd_nandDir, List.length_append, List.length_cons]
  rcases nameUnder_head s param with empty | begins
  · rw [empty]
    decide
  · cases name : s.nameUnder param with
    | nil => rw [name] at begins; cases begins
    | cons c rest =>
      rw [name] at begins whole
      cases begins
      exact whole

/-! ### A session with its pending name -/

/-- The file of the last successful RNFR that no RNTO has used is kept beside the session. -/
structure RenameState (φ : Type) where
  machine : Machine φ
  pending : Option Path

/-- A command line with its surroundings, and what others did to the files before it. -/
structure Command (φ : Type) where
  env : Surroundings
  meanwhile : φ → φ
  line : CommandLine

variable {φ : Type}

/-- The machine a command starts on. -/
def begins (s : RenameState φ) (e : Command φ) : Machine φ :=
  { s.machine with files := e.meanwhile s.machine.files, replies := [], calls := [] }

@[simp] theorem begins_session (s : RenameState φ) (e : Command φ) :
    (begins s e).session = s.machine.session := rfl

@[simp] theorem begins_calls (s : RenameState φ) (e : Command φ) : (begins s e).calls = [] := rfl

def dispatch (fs : FileSystem φ) (s : RenameState φ) (e : Command φ) :
    Option (Machine φ × HfStatus) :=
  Hvsftpd.cmdDisptach fs e.env e.line.line (begins s e)

def ready : Reply := .response "350 File exists, ready for destination name."

def statted : FileCall → Option Path
  | .stat path => some path
  | _ => none

def isRename : FileCall → Bool
  | .rename _ _ => true
  | _ => false

/-- A successful RNFR names a file, a failed one none, and a rename uses the name. -/
def pendingAfter (handler : Option FtpHandler) (m : Machine φ) (pending : Option Path) :
    Option Path :=
  match handler with
  | some .rnfr => if ready ∈ m.replies then m.calls.head?.bind statted else none
  | some .rnto => if m.calls.any isRename then none else pending
  | _ => pending

def renameStep (fs : FileSystem φ) (s : RenameState φ) (e : Command φ) : Option (RenameState φ) :=
  (dispatch fs s e).map fun out =>
    ⟨out.1, pendingAfter (cmdHandler e.line.line) out.1 s.pending⟩

/-- The command ends; if it is RNTO, it renames the pending file only, and without a
rename leaves the files alone. -/
def RenamesPending (fs : FileSystem φ) (s : RenameState φ) (e : Command φ) : Prop :=
  ∃ m status, dispatch fs s e = some (m, status) ∧
    (cmdHandler e.line.line = some .rnto →
      (∀ old new, .rename old new ∈ m.calls → ∃ p, s.pending = some p ∧ SameName old p) ∧
      ((∀ old new, .rename old new ∉ m.calls) → m.files = (begins s e).files))

/-- The condition: the joined paths fit their memory; the new path of RNTO fits its half
of the block, and without a pending file nothing is found under the name left behind. -/
structure KeepsProtocol (fs : FileSystem φ) (s : RenameState φ) (e : Command φ) : Prop where
  fits : ∀ handler, cmdHandler e.line.line = some handler →
    FitsMemory e.env s.machine.session e.line.param handler
  rnto : cmdHandler e.line.line = some .rnto →
    (e.env.malloc (maxPathLen + maxPathLen)).isSome →
      PathsFit maxPathLen nandDir s.machine.session.currentDir.text e.line.param ∧
      (s.pending = none → fs.stat (begins s e).files
        (joinPath nandDir s.machine.session.renamingPath.text) = none)

/-- What holds between commands: `renaming` fits, and names the pending file if there is one. -/
structure Tracked (s : RenameState φ) : Prop where
  rooted : s.machine.session.Rooted
  oldFits : OldPathFits s.machine.session
  named : ∀ p, s.pending = some p →
    SameName (joinPath nandDir s.machine.session.renamingPath.text) p

/-! ### One command -/

theorem Tracked.of_kept {s : RenameState φ} {m : Machine φ} (tracked : Tracked s)
    (rootDir : m.session.rootDir = s.machine.session.rootDir)
    (renamingPath : m.session.renamingPath = s.machine.session.renamingPath)
    {pending : Option Path} (less : ∀ p, pending = some p → s.pending = some p) :
    Tracked ⟨m, pending⟩ where
  rooted := (congrArg Terminated.text rootDir).trans tracked.rooted
  oldFits := by
    unfold OldPathFits
    rw [renamingPath]
    exact tracked.oldFits
  named := fun p named => by
    rw [renamingPath]
    exact tracked.named p (less p named)

/-- A command other than RNFR that ends keeps what is tracked. -/
theorem tracked_after {fs : FileSystem φ} {s : RenameState φ} {e : Command φ}
    {handler : FtpHandler} (tracked : Tracked s) (names : cmdHandler e.line.line = some handler)
    (other : handler ≠ .rnfr) {m : Machine φ} {status : HfStatus}
    (taken : dispatch fs s e = some (m, status)) :
    Tracked ⟨m, pendingAfter (some handler) m s.pending⟩ := by
  have less : ∀ p, pendingAfter (some handler) m s.pending = some p → s.pending = some p := by
    intro p after
    cases handler with
    | rnfr => exact absurd rfl other
    | rnto =>
      unfold pendingAfter at after
      dsimp only at after
      split at after
      · cases after
      · exact after
    | _ => exact after
  rw [dispatch, cmdDisptach_handler names] at taken
  cases opens : opensData handler with
  | false =>
    obtain ⟨answered, -⟩ := handle_answered opens taken
    exact tracked.of_kept answered.rootDir (answered.renamingPath other) less
  | true =>
    obtain ⟨m', handled, opened, unopened⟩ := handle_opens fs e.env (begins s e)
      (cmdParam e.line.line) opens
    obtain rfl : m' = m := congrArg Prod.fst (Option.some.inj (handled.symm.trans taken))
    by_cases connects : ConnectsFor e.env (begins s e)
    · obtain ⟨i, slot⟩ := opened connects
      exact tracked.of_kept slot.rootDir slot.renamingPath less
    · exact tracked.of_kept (unopened connects).rootDir (unopened connects).renamingPath less

/-- Under the condition every command ends. -/
theorem dispatch_defined {fs : FileSystem φ} {s : RenameState φ} {e : Command φ}
    (tracked : Tracked s) (keeps : KeepsProtocol fs s e) :
    ∃ m status, dispatch fs s e = some (m, status) := by
  cases names : cmdHandler e.line.line with
  | none =>
    unfold dispatch Hvsftpd.cmdDisptach
    simp only [names]
    exact ⟨_, _, rfl⟩
  | some handler =>
    have rooted : (begins s e).session.Rooted := tracked.rooted
    have defined := (handle_defined_iff fs e.env rooted e.line.nulFree_param
      e.line.length_param handler).mpr (keeps.fits handler names)
    obtain ⟨⟨m, status⟩, handled⟩ := Option.isSome_iff_exists.mp defined
    exact ⟨m, status, (cmdDisptach_handler names).trans handled⟩

/-- A failed RNFR leaves no file pending. -/
theorem Tracked.failed {s : RenameState φ} {m : Machine φ} (tracked : Tracked s)
    (same : m.session = s.machine.session) {reply : Reply} (replied : m.replies = [reply])
    (other : reply ≠ ready) : Tracked ⟨m, pendingAfter (some .rnfr) m s.pending⟩ := by
  have silent : ready ∉ m.replies := by
    rw [replied, List.mem_singleton]
    exact fun answered => other answered.symm
  refine tracked.of_kept (congrArg Session.rootDir same) (congrArg Session.renamingPath same)
    fun p pending => ?_
  unfold pendingAfter at pending
  dsimp only at pending
  rw [if_neg silent] at pending
  cases pending

/-- What RNFR leaves: the file it found, or no more than a reply. -/
theorem rnfr_outcome {fs : FileSystem φ} {s : RenameState φ} {e : Command φ}
    (tracked : Tracked s) (names : cmdHandler e.line.line = some .rnfr)
    (fits : FitsMemory e.env s.machine.session e.line.param .rnfr) {m : Machine φ}
    {status : HfStatus} (taken : dispatch fs s e = some (m, status)) :
    (PathsFit maxPathLen nandDir s.machine.session.currentDir.text e.line.param ∧
      m.replies = [ready] ∧ m.calls = [.stat (s.machine.session.target e.line.param)] ∧
      m.session = { s.machine.session with renamingPath :=
        s.machine.session.renamingPath.copy (s.machine.session.nameUnder e.line.param) }) ∨
    (m.session = s.machine.session ∧ ∃ reply, m.replies = [reply] ∧ reply ≠ ready) := by
  have rooted : (begins s e).session.Rooted := tracked.rooted
  have handled : rnfrHandler fs e.env (begins s e) e.line.param = some (m, status) :=
    (cmdDisptach_handler names).symm.trans taken
  cases given : e.env.malloc maxPathLen with
  | none =>
    unfold rnfrHandler atPath at handled
    rw [given] at handled
    cases handled
    exact Or.inr ⟨rfl, _, rfl, by decide⟩
  | some block =>
    have fits' : PathsFit maxPathLen nandDir s.machine.session.currentDir.text e.line.param :=
      fits (by rw [given]; rfl)
    rw [rnfrHandler_eq fs rooted e.line.nulFree_param e.line.length_param given fits'] at handled
    split at handled
    · cases handled
      exact Or.inl ⟨fits', rfl, rfl, rfl⟩
    · cases handled
      exact Or.inr ⟨rfl, _, rfl, Reply.noConfusion⟩

/-- RNFR tracks the file it finds. -/
theorem tracked_rnfr {fs : FileSystem φ} {s : RenameState φ} {e : Command φ}
    (tracked : Tracked s) (names : cmdHandler e.line.line = some .rnfr)
    (fits : FitsMemory e.env s.machine.session e.line.param .rnfr) {m : Machine φ}
    {status : HfStatus} (taken : dispatch fs s e = some (m, status)) :
    Tracked ⟨m, pendingAfter (some .rnfr) m s.pending⟩ := by
  rcases rnfr_outcome tracked names fits taken with ⟨fits, replies, calls, session⟩ |
    ⟨same, reply, replied, other⟩
  · have name : m.session.renamingPath.text = s.machine.session.nameUnder e.line.param := by
      have whole := length_target_lt tracked.rooted fits
      rw [target_eq_append tracked.rooted, List.length_append] at whole
      rw [session]
      refine (Terminated.text_copy _ (nulFree_nameUnder _ e.line.nulFree_param)).trans ?_
      exact List.take_of_length_le (by omega)
    have found : pendingAfter (some .rnfr) m s.pending =
        some (s.machine.session.target e.line.param) := by
      unfold pendingAfter
      dsimp only
      rw [replies, calls, if_pos List.mem_cons_self]
      rfl
    have rooted : m.session.Rooted := by
      rw [session]
      exact tracked.rooted
    refine ⟨rooted, ?_, fun p pending => ?_⟩
    · unfold OldPathFits
      rw [name]
      exact oldFits_nameUnder tracked.rooted fits
    · dsimp only at pending ⊢
      rw [found] at pending
      rw [name, joinPath_nameUnder tracked.rooted, ← Option.some.inj pending]
      exact sameName_trimEnd _
  · exact tracked.failed same replied other

/-- RNTO renames the pending file, or nothing. -/
theorem renamesPending_rnto {fs : FileSystem φ} {s : RenameState φ} {e : Command φ}
    (tracked : Tracked s) (keeps : KeepsProtocol fs s e)
    (names : cmdHandler e.line.line = some .rnto) {m : Machine φ} {status : HfStatus}
    (taken : dispatch fs s e = some (m, status)) :
    (∀ old new, .rename old new ∈ m.calls → ∃ p, s.pending = some p ∧ SameName old p) ∧
      ((∀ old new, .rename old new ∉ m.calls) → m.files = (begins s e).files) := by
  have rooted : (begins s e).session.Rooted := tracked.rooted
  have handled : rntoHandler fs e.env (begins s e) e.line.param = some (m, status) :=
    (cmdDisptach_handler names).symm.trans taken
  cases given : e.env.malloc (maxPathLen + maxPathLen) with
  | none =>
    unfold rntoHandler at handled
    rw [given] at handled
    cases handled
    exact ⟨fun old new called => absurd called List.not_mem_nil, fun _ => rfl⟩
  | some block =>
    obtain ⟨half, gone⟩ := keeps.rnto names (by rw [given]; rfl)
    obtain ⟨oldPath, made, oldEq, -⟩ := rntoHandler_eq fs rooted e.line.nulFree_param
      e.line.length_param given tracked.oldFits (half.mono (Nat.le_add_right _ _))
    have old := oldEq half
    rw [begins_session] at old made
    subst old
    rw [made] at handled
    cases handled
    rw [calls_renameAt, begins_calls, List.nil_append]
    cases found : (begins s e).finds fs (joinPath nandDir s.machine.session.renamingPath.text)
        (fun _ => true) with
    | false =>
      refine ⟨fun old new called => ?_, fun _ => files_renameAt found⟩
      rw [if_neg Bool.false_ne_true, List.mem_singleton] at called
      cases called
    | true =>
      rw [if_pos rfl]
      refine ⟨fun old new called => ?_, fun none' => ?_⟩
      · have same : old = joinPath nandDir s.machine.session.renamingPath.text := by
          rcases List.mem_cons.mp called with first | rest
          · cases first
          · exact (FileCall.rename.inj (List.mem_singleton.mp rest)).1
        cases pending : s.pending with
        | none =>
          unfold Machine.finds at found
          rw [gone pending] at found
          cases found
        | some p => exact ⟨p, rfl, same ▸ tracked.named p pending⟩
      · exact absurd (List.mem_cons_of_mem _ List.mem_cons_self) (none' _ _)

/-! ### Every sequence of commands -/

theorem keeps_step {fs : FileSystem φ} (s : RenameState φ) (e : Command φ) (tracked : Tracked s)
    (keeps : KeepsProtocol fs s e) :
    RenamesPending fs s e ∧ ∃ t, renameStep fs s e = some t ∧ Tracked t := by
  obtain ⟨m, status, taken⟩ := dispatch_defined tracked keeps
  refine ⟨⟨m, status, taken, fun names => renamesPending_rnto tracked keeps names taken⟩, ?_⟩
  have stepped : renameStep fs s e =
      some ⟨m, pendingAfter (cmdHandler e.line.line) m s.pending⟩ := by
    unfold renameStep
    rw [taken]
    rfl
  refine ⟨_, stepped, ?_⟩
  cases names : cmdHandler e.line.line with
  | none =>
    unfold dispatch Hvsftpd.cmdDisptach at taken
    simp only [names] at taken
    have same : m.session = s.machine.session := by
      cases taken
      rfl
    exact tracked.of_kept (congrArg Session.rootDir same) (congrArg Session.renamingPath same)
      fun p pending => pending
  | some handler =>
    by_cases named : handler = .rnfr
    · subst named
      exact tracked_rnfr tracked names (keeps.fits _ names) taken
    · exact tracked_after tracked names named taken

theorem tracked_accepted {s : RenameState φ} {sock : Slot}
    (start : s.machine.session = Session.accepted sock) (idle : s.pending = none) : Tracked s where
  rooted := start ▸ rooted_accepted sock
  oldFits := by
    have empty : (Session.accepted sock).renamingPath = Terminated.zero 0 maxPathLen := rfl
    unfold OldPathFits
    rw [start, empty]
    decide
  named := fun p pending => by
    rw [idle] at pending
    cases pending

/-- In every sequence of commands of a session whose commands meet the condition, every
RNTO renames the pending file only. -/
theorem renames_pending (fs : FileSystem φ) (s : RenameState φ) (sock : Slot)
    (events : List (Command φ)) (start : s.machine.session = Session.accepted sock)
    (idle : s.pending = none)
    (each : Run.EachStep (renameStep fs) (KeepsProtocol fs) s events) :
    Run.EachStep (renameStep fs) (RenamesPending fs) s events :=
  (Run.always_and_eachStep (fun s e tracked keeps => keeps_step s e tracked keeps)
    (tracked_accepted start idle) each).2

/-- A session with the file `/nand/a`. -/
def withFile : RenameState (List Path) := ⟨Machine.accepted [asciiBytes "/nand/a"], none⟩

def command (line : CommandLine) : Command (List Path) := ⟨Surroundings.plain, id, line⟩

def rnfrA : Command (List Path) := command ⟨asciiBytes "RNFR a", by decide, by decide⟩
def rnfrX : Command (List Path) := command ⟨asciiBytes "RNFR x", by decide, by decide⟩
def rntoB : Command (List Path) := command ⟨asciiBytes "RNTO b", by decide, by decide⟩

theorem renames_pending_once :
    Run.EachStep (renameStep FileSystem.names) (RenamesPending FileSystem.names) withFile
      [rnfrA, rntoB] := by
  have first : KeepsProtocol FileSystem.names withFile rnfrA := by
    have names : cmdHandler rnfrA.line.line = some .rnfr := by decide
    refine ⟨fun handler named => ?_, fun other => ?_⟩
    · obtain rfl : FtpHandler.rnfr = handler := Option.some.inj (names.symm.trans named)
      exact fun _ => by decide
    · rw [names] at other
      cases other
  have second : ∀ t, renameStep FileSystem.names withFile rnfrA = some t →
      KeepsProtocol FileSystem.names t rntoB := by
    intro t taken
    have names : cmdHandler rntoB.line.line = some .rnto := by decide
    have after : (renameStep FileSystem.names withFile rnfrA).map (fun t =>
        (t.pending.isSome, t.machine.session.currentDir.text,
          t.machine.session.renamingPath.text)) =
        some (true, asciiBytes "/", asciiBytes "/a") := by decide +kernel
    rw [taken, Option.map_some, Option.some.injEq, Prod.mk.injEq, Prod.mk.injEq] at after
    obtain ⟨pending, directory, renaming'⟩ := after
    refine ⟨fun handler named => ?_, fun _ _ => ⟨?_, fun idle => ?_⟩⟩
    · obtain rfl : FtpHandler.rnto = handler := Option.some.inj (names.symm.trans named)
      refine fun _ => ⟨?_, ?_⟩
      · unfold OldPathFits
        rw [renaming']
        decide
      · rw [directory]
        decide
    · rw [directory]
      decide
    · rw [idle] at pending
      cases pending
  exact renames_pending FileSystem.names withFile 1 [rnfrA, rntoB] rfl rfl
    ⟨first, fun t taken => ⟨second t taken, fun _ _ => trivial⟩⟩

/-- After a failed RNFR an RNTO renames the file of the one before. -/
theorem renames_after_failure :
    ¬ Run.EachStep (renameStep FileSystem.names) (RenamesPending FileSystem.names) withFile
      [rnfrA, rnfrX, rntoB] := by
  intro each
  have facts : ([rnfrA, rnfrX].foldlM (renameStep FileSystem.names) withFile).bind (fun t =>
      (dispatch FileSystem.names t rntoB).map fun out => (t.pending, out.1.calls)) =
      some (none, [.stat (asciiBytes "/nand/a"),
        .rename (asciiBytes "/nand/a") (asciiBytes "/nand/b")]) := by decide +kernel
  obtain ⟨t, reached, facts⟩ := Option.bind_eq_some_iff.mp facts
  obtain ⟨⟨m, status⟩, taken, facts⟩ := Option.map_eq_some_iff.mp facts
  obtain ⟨idle, calls⟩ := Prod.mk.inj facts
  have each' : Run.EachStep (renameStep FileSystem.names) (RenamesPending FileSystem.names) withFile
      ([rnfrA, rnfrX] ++ [rntoB]) := each
  have last : RenamesPending FileSystem.names t rntoB := Run.eachStep_last each' reached
  obtain ⟨m', status', taken', renames⟩ := last
  obtain rfl : m = m' := congrArg Prod.fst (Option.some.inj (taken.symm.trans taken'))
  have renamed : FileCall.rename (asciiBytes "/nand/a") (asciiBytes "/nand/b") ∈ m.calls := by
    rw [show m.calls = _ from calls]
    exact List.mem_cons_of_mem _ List.mem_cons_self
  obtain ⟨p, pending, -⟩ := (renames (by decide)).1 _ _ renamed
  rw [show t.pending = none from idle] at pending
  cases pending

end GasSub.Guarantees.RenameProtocol
