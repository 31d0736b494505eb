import GasSub.Library.Run
import GasSub.Source.FtpEffects

/-!
# The working directory

`current_dir` under CWD commands: a text inside its array that begins with a
slash and ends with one only if it is `"/"`. A relative parameter is appended in
place. One separator is cut from the end of the joined path, so that a second
one stays, an empty parameter takes the slash of the root directory, and the
length of the parts is not tested.
-/
namespace GasSub.Guarantees.WorkingDirectory
open GasSub.Source GasSub.Source.Hvsftpd GasSub.Library GasSub.Library.CharArray

/-! ### Texts -/

structure Directory (text : Path) : Prop where
  rooted : text.head? = some slash
  ends : text.getLast? = some slash → text = [slash]

theorem isSeparator_iff (c : INT8U) : isSeparator c = true ↔ c = backslash ∨ c = slash := by
  unfold isSeparator
  exact decide_eq_true_iff

/-- Without backslashes a directory other than the root keeps its last character. -/
theorem trimEnd_directory {text : Path} (directory : Directory text)
    (turned : backslash ∉ text) : trimEnd text = if text = [slash] then [] else text := by
  by_cases root : text = [slash]
  · subst root
    rfl
  · rw [if_neg root]
    unfold trimEnd
    cases last : text.getLast? with
    | none => rfl
    | some c =>
      have other : isSeparator c = false := by
        rw [Bool.eq_false_iff, ne_eq, isSeparator_iff, not_or]
        refine ⟨fun same => turned ?_, fun same => root (directory.ends (same ▸ last))⟩
        exact same ▸ List.mem_of_getLast? last
      rw [Option.any_some, other]
      exact if_neg Bool.false_ne_true

theorem trimStart_relative {param : Path} (relative : param.head? ≠ some slash)
    (turned : backslash ∉ param) : trimStart param = param := by
  unfold trimStart
  cases first : param.head? with
  | none => rfl
  | some c =>
    have other : isSeparator c = false := by
      rw [Bool.eq_false_iff, ne_eq, isSeparator_iff, not_or]
      refine ⟨fun same => turned ?_, fun same => relative (same ▸ first)⟩
      exact same ▸ List.mem_of_head? first
    rw [Option.any_some, other]
    exact if_neg Bool.false_ne_true

/-- The parameter is absolute and a directory itself. -/
theorem directory_absolute_iff {param : Path} (absolute : param.head? = some slash) :
    Directory param ↔ (param.getLast? = some slash → param = [slash]) :=
  ⟨fun directory => directory.ends, fun ends => ⟨absolute, ends⟩⟩

theorem head?_append_slash {front : Path} (begins : front ≠ [] → front.head? = some slash)
    (rest : Path) : (front ++ slash :: rest).head? = some slash := by
  cases front with
  | nil => rfl
  | cons c front => exact begins (List.cons_ne_nil _ _)

def EndsInTwoSlashes (param : Path) : Prop :=
  param.getLast? = some slash ∧ param.dropLast.getLast? = some slash

instance (param : Path) : Decidable (EndsInTwoSlashes param) := inferInstanceAs (Decidable (_ ∧ _))

/-- A relative parameter leads from a directory to one unless it is empty in the
root directory or ends in two slashes. -/
theorem directory_join_iff {text param : Path} (directory : Directory text)
    (turned : backslash ∉ text) (relative : param.head? ≠ some slash)
    (paramTurned : backslash ∉ param) :
    Directory (joinPath text param) ↔
      (param = [] → text ≠ [slash]) ∧ ¬ EndsInTwoSlashes param := by
  have begins : trimEnd text ≠ [] → (trimEnd text).head? = some slash := by
    rw [trimEnd_directory directory turned]
    split
    · exact fun filled => absurd rfl filled
    · exact fun _ => directory.rooted
  unfold joinPath appendPath
  rw [trimStart_relative relative paramTurned]
  rcases List.eq_nil_or_concat param with empty | ⟨init, d, whole⟩
  · subst empty
    rw [trimEnd_append_singleton, if_pos (by decide), trimEnd_directory directory turned]
    by_cases root : text = [slash]
    · rw [if_pos root]
      exact ⟨fun joined => absurd joined.rooted (by simp), fun keeps => absurd root (keeps.1 rfl)⟩
    · rw [if_neg root]
      exact ⟨fun _ => ⟨fun _ => root, by decide⟩, fun _ => directory⟩
  · rw [List.concat_eq_append] at whole
    subst whole
    have filled : init ++ [d] ≠ [] := List.append_ne_nil_of_right_ne_nil _ (List.cons_ne_nil _ _)
    have head := head?_append_slash begins
    rw [← List.cons_append, ← List.append_assoc, trimEnd_append_singleton]
    unfold EndsInTwoSlashes
    rw [List.getLast?_concat, List.dropLast_concat]
    by_cases separator : d = slash
    · subst separator
      obtain ⟨front, e, rfl⟩ : ∃ front e, init = front ++ [e] :=
        ⟨_, _, (List.dropLast_concat_getLast fun empty => relative (by rw [empty]; rfl)).symm⟩
      have last : (trimEnd text ++ slash :: (front ++ [e])).getLast? = some e := by
        rw [← List.cons_append, ← List.append_assoc, List.getLast?_concat]
      have longer : trimEnd text ++ slash :: (front ++ [e]) ≠ [slash] := by
        intro same
        have lengths := congrArg List.length same
        simp only [List.length_append, List.length_cons, List.length_nil] at lengths
        omega
      rw [if_pos (by decide), List.getLast?_concat]
      constructor
      · intro joined
        refine ⟨fun empty => absurd empty filled, fun ⟨_, two⟩ => longer (joined.ends ?_)⟩
        rw [last, two]
      · rintro ⟨-, single⟩
        exact ⟨head _, fun two => absurd ⟨rfl, last.symm.trans two⟩ single⟩
    · have plain : isSeparator d ≠ true := by
        rw [ne_eq, isSeparator_iff, not_or]
        exact ⟨fun same => paramTurned (by simp [same]), separator⟩
      rw [if_neg plain, List.append_assoc, List.cons_append]
      refine ⟨fun _ => ⟨fun empty => absurd empty filled, fun ⟨same, _⟩ => ?_⟩, fun _ => ?_⟩
      · exact separator (Option.some.inj same)
      · refine ⟨head _, fun same => absurd (Option.some.inj ?_) separator⟩
        rw [← same, ← List.cons_append, ← List.append_assoc, List.getLast?_concat]

/-! ### One CWD command -/

/-- A line of a command buffer that names CWD. -/
structure CwdLine extends CommandLine where
  names : cmdHandler line = some .cwd

def CwdLine.param (c : CwdLine) : Path := turnBackslashes c.toCommandLine.param

theorem CwdLine.length_param (c : CwdLine) : c.param.length ≤ maxPathLen := by
  unfold CwdLine.param
  rw [length_turnBackslashes]
  exact c.toCommandLine.length_param

theorem CwdLine.turned_param (c : CwdLine) : backslash ∉ c.param := by
  intro member
  obtain ⟨d, -, turned⟩ := List.mem_map.mp member
  split at turned
  · exact absurd turned (by decide)
  · case isFalse other => exact other turned

theorem CwdLine.nulFree_param (c : CwdLine) : 0 ∉ c.param :=
  turnBackslashes_free c.toCommandLine.nulFree_param

variable {φ : Type}

/-- One CWD command, with the surroundings it finds. -/
def cwdStep (fs : FileSystem φ) (m : Machine φ) (event : Surroundings × CwdLine) :
    Option (Machine φ) :=
  (cmdDisptach fs event.1 event.2.line m).map Prod.fst

/-- `current_dir` is a text inside its 129 bytes, and this text is a directory. -/
def DirectoryHeld (m : Machine φ) : Prop :=
  ∃ text, m.session.currentDir.symbols.length = 129 ∧
    Holds 0 m.session.currentDir.symbols text ∧ Directory text

/-- The condition on a command: an absolute parameter ends in a slash only if it is
one, a relative one is not empty in the root directory, does not end in two slashes
and is short enough. -/
def KeepsDirectory (current param : Path) : Prop :=
  if param.head? = some slash then param.getLast? = some slash → param = [slash]
  else
    (param = [] → current ≠ [slash]) ∧ ¬ EndsInTwoSlashes param ∧
      (appendPath current param).length ≤ maxPathLen

instance (current param : Path) : Decidable (KeepsDirectory current param) :=
  inferInstanceAs (Decidable (ite ..))

theorem directoryHeld_iff (m : Machine φ) :
    DirectoryHeld m ↔ Directory m.session.currentDir.text := by
  constructor
  · rintro ⟨text, -, holds, directory⟩
    rw [Terminated.text_eq holds]
    exact directory
  · intro directory
    exact ⟨_, m.session.currentDir.size, m.session.currentDir.holds, directory⟩

/-- The directory after a command: an absolute parameter replaces it, a relative one
is joined to it if both fit. -/
theorem cwdStep_eq (fs : FileSystem φ) (m : Machine φ) (event : Surroundings × CwdLine) :
    (cwdStep fs m event).map (fun t => t.session.currentDir) =
      if event.2.param.head? = some slash then some (m.session.currentDir.copy event.2.param)
      else makePathIn m.session.currentDir event.2.param maxPathLen := by
  unfold cwdStep CwdLine.param
  rw [cmdDisptach_handler event.2.names]
  unfold handle cwdHandler cwdDir
  rw [Option.map_map, Option.map_map]
  exact Option.map_id'

theorem text_copy_param (m : Machine φ) (c : CwdLine) :
    (m.session.currentDir.copy c.param).text = c.param := by
  rw [Terminated.text_copy _ c.nulFree_param, List.take_of_length_le c.length_param]

theorem cwdStep_text {fs : FileSystem φ} {m t : Machine φ} {event : Surroundings × CwdLine}
    (taken : cwdStep fs m event = some t) :
    t.session.currentDir.text =
      if event.2.param.head? = some slash then event.2.param
      else joinPath m.session.currentDir.text event.2.param := by
  have outcome := cwdStep_eq fs m event
  rw [taken, Option.map_some] at outcome
  split at outcome
  · case isTrue absolute =>
    rw [Option.some.inj outcome, if_pos absolute, text_copy_param]
  · case isFalse relative =>
    have short : (trimStart event.2.param).length ≤ maxPathLen :=
      Nat.le_trans (length_trimStart_le _) event.2.length_param
    rw [if_neg relative]
    by_cases outside : m.session.currentDir.text = [] ∨
        maxPathLen < (appendPath m.session.currentDir.text event.2.param).length
    · rw [makePathIn_none (by decide) short outside] at outcome
      cases outcome
    · rw [not_or, Nat.not_lt] at outside
      obtain ⟨out, made, text⟩ := makePathIn_fits outside.1 event.2.nulFree_param (by decide) short
        outside.2
      rw [made] at outcome
      rw [Option.some.inj outcome, text]

/-- A step has no result where a relative parameter does not fit. -/
theorem cwdStep_defined_iff (fs : FileSystem φ) {m : Machine φ} (event : Surroundings × CwdLine)
    (filled : m.session.currentDir.text ≠ []) :
    (∃ t, cwdStep fs m event = some t) ↔ (event.2.param.head? ≠ some slash →
      (appendPath m.session.currentDir.text event.2.param).length ≤ maxPathLen) := by
  have short : (trimStart event.2.param).length ≤ maxPathLen :=
    Nat.le_trans (length_trimStart_le _) event.2.length_param
  have outcome := cwdStep_eq fs m event
  constructor
  · rintro ⟨t, taken⟩ relative
    by_contra exceeds
    rw [taken, if_neg relative,
      makePathIn_none (by decide) short (Or.inr (Nat.lt_of_not_le exceeds))] at outcome
    cases outcome
  · intro fits
    have some' : ∃ currentDir, (if event.2.param.head? = some slash then
        some (m.session.currentDir.copy event.2.param)
        else makePathIn m.session.currentDir event.2.param maxPathLen) = some currentDir := by
      by_cases absolute : event.2.param.head? = some slash
      · exact ⟨_, if_pos absolute⟩
      · obtain ⟨out, made, -⟩ := makePathIn_fits filled event.2.nulFree_param (by decide) short
          (fits absolute)
        exact ⟨out, by rw [if_neg absolute, made]⟩
    obtain ⟨currentDir, made⟩ := some'
    rw [made, Option.map_eq_some_iff] at outcome
    exact outcome.imp fun t taken => taken.1

/-- The directory has no backslash. -/
def Turned (m : Machine φ) : Prop := backslash ∉ m.session.currentDir.text

theorem turned_step (fs : FileSystem φ) (m : Machine φ) (event : Surroundings × CwdLine)
    (t : Machine φ) (turned : Turned m) (taken : cwdStep fs m event = some t) : Turned t := by
  unfold Turned
  rw [cwdStep_text taken]
  split
  · exact event.2.turned_param
  · exact notMem_joinPath (by decide) turned event.2.turned_param

/-- One command keeps the directory exactly under the condition. -/
theorem cwdStep_keeps_iff (fs : FileSystem φ) (m : Machine φ) (event : Surroundings × CwdLine)
    (turned : Turned m) (held : DirectoryHeld m) :
    KeepsDirectory m.session.currentDir.text event.2.param ↔
      ∃ t, cwdStep fs m event = some t ∧ DirectoryHeld t := by
  have directory := (directoryHeld_iff m).mp held
  have filled : m.session.currentDir.text ≠ [] := ne_nil_of_head directory.rooted
  have defined := cwdStep_defined_iff fs event filled
  have split : (∃ t, cwdStep fs m event = some t ∧ DirectoryHeld t) ↔
      (∃ t, cwdStep fs m event = some t) ∧
        Directory (if event.2.param.head? = some slash then event.2.param
          else joinPath m.session.currentDir.text event.2.param) := by
    constructor
    · rintro ⟨t, taken, held⟩
      exact ⟨⟨t, taken⟩, cwdStep_text taken ▸ (directoryHeld_iff t).mp held⟩
    · rintro ⟨⟨t, taken⟩, directory⟩
      exact ⟨t, taken, (directoryHeld_iff t).mpr (cwdStep_text taken ▸ directory)⟩
  rw [split, defined]
  unfold KeepsDirectory
  by_cases absolute : event.2.param.head? = some slash
  · rw [if_pos absolute, if_pos absolute, directory_absolute_iff absolute]
    exact ⟨fun ends => ⟨fun relative => absurd absolute relative, ends⟩, fun both => both.2⟩
  · rw [if_neg absolute, if_neg absolute,
      directory_join_iff directory turned absolute event.2.turned_param]
    exact ⟨fun ⟨root, single, fits⟩ => ⟨fun _ => fits, root, single⟩,
      fun ⟨fits, root, single⟩ => ⟨root, single, fits absolute⟩⟩

/-! ### Every sequence of CWD commands -/

/-- Along a sequence of CWD commands from the root directory the directory stays one
exactly when each command meets the condition. -/
theorem currentDir_always_iff (fs : FileSystem φ) (m : Machine φ)
    (events : List (Surroundings × CwdLine)) (start : m.session.currentDir.text = [slash]) :
    Run.Always (cwdStep fs) DirectoryHeld m events ↔
      Run.EachStep (cwdStep fs)
        (fun m event => KeepsDirectory m.session.currentDir.text event.2.param) m events := by
  have turned : Turned m := by
    unfold Turned
    rw [start]
    decide
  have held : DirectoryHeld m := (directoryHeld_iff m).mpr (start ▸ ⟨rfl, fun _ => rfl⟩)
  exact Run.always_iff (turned_step fs) (cwdStep_keeps_iff fs) turned held

def cwdUp : CwdLine := ⟨⟨asciiBytes "CWD a/", by decide, by decide⟩, by decide⟩

/-- `"/"`, then `"/a"`. -/
theorem currentDir_always_iff_accepted :
    Run.Always (cwdStep FileSystem.names) DirectoryHeld (Machine.accepted [])
        [(Surroundings.plain, cwdUp)] ↔
      Run.EachStep (cwdStep FileSystem.names)
        (fun m event => KeepsDirectory m.session.currentDir.text event.2.param)
        (Machine.accepted []) [(Surroundings.plain, cwdUp)] :=
  currentDir_always_iff FileSystem.names (Machine.accepted []) [(Surroundings.plain, cwdUp)]
    (by decide)

def cwdEmpty : CwdLine := ⟨⟨asciiBytes "CWD ", by decide, by decide⟩, by decide⟩

/-- An empty parameter in the root directory leaves the empty text. -/
theorem currentDir_emptied :
    ¬ Run.Always (cwdStep FileSystem.names) DirectoryHeld (Machine.accepted [])
      [(Surroundings.plain, cwdEmpty)] := by
  intro always
  have start : (Machine.accepted ([] : List Path)).session.currentDir.text = [slash] := by decide
  have turned : Turned (Machine.accepted ([] : List Path)) := by
    unfold Turned
    rw [start]
    decide
  obtain ⟨held, t, taken, later⟩ := always
  have keeps := (cwdStep_keeps_iff FileSystem.names _ (Surroundings.plain, cwdEmpty) turned
    held).mpr ⟨t, taken, later⟩
  exact absurd keeps (by decide)

end GasSub.Guarantees.WorkingDirectory
