import GasSub.Source.FtpHandlers

/-!
# Joining in one step or in two

The file commands join the root directory, the current directory and the parameter in
this order; CWD joins its parameter to the current directory, which is joined to the
root directory later. Each join cuts one separator, adds a slash and drops one
separator, and the two ways meet for the shapes that occur.
-/
namespace GasSub.Guarantees.PathAssociativity
open GasSub.Source GasSub.Source.Hvsftpd GasSub.Library.CharArray

/-! ### Shapes of paths -/

def EndsInSeparator (path : Path) : Prop := path.getLast?.any isSeparator = true

instance : DecidablePred EndsInSeparator := fun _ => inferInstanceAs (Decidable (_ = true))

def EndsInTwoSeparators (path : Path) : Prop :=
  EndsInSeparator path ∧ EndsInSeparator path.dropLast

instance : DecidablePred EndsInTwoSeparators := fun _ => inferInstanceAs (Decidable (_ ∧ _))

/-- A slash followed by a text that ends in no separator. -/
structure RootPath (root : Path) : Prop where
  rooted : root.head? = some slash
  ends : ¬ EndsInSeparator root

/-- The top directory, or a path that begins with a slash and ends in no separator. -/
structure CurrentPath (cwd : Path) : Prop where
  rooted : cwd.head? = some slash
  ends : cwd = [slash] ∨ ¬ EndsInSeparator cwd

theorem trimEnd_of_ends {path : Path} (ends : ¬ EndsInSeparator path) : trimEnd path = path := by
  unfold trimEnd
  exact if_neg ends

theorem RootPath.trimmed {root : Path} (shape : RootPath root) : trimEnd root = root :=
  trimEnd_of_ends shape.ends

theorem endsInSeparator_append (front : Path) {rest : Path} (filled : rest ≠ []) :
    EndsInSeparator (front ++ rest) ↔ EndsInSeparator rest := by
  unfold EndsInSeparator
  rw [List.getLast?_append_of_ne_nil _ filled]

theorem endsInSeparator_cons (c d : INT8U) (rest : Path) :
    EndsInSeparator (c :: d :: rest) ↔ EndsInSeparator (d :: rest) :=
  endsInSeparator_append [c] (List.cons_ne_nil d rest)

/-- A path that ends in one separator loses it for good. -/
theorem trimEnd_trimEnd {path : Path} (single : ¬ EndsInTwoSeparators path) :
    trimEnd (trimEnd path) = trimEnd path := by
  by_cases ends : EndsInSeparator path
  · have cut : trimEnd path = path.dropLast := if_pos ends
    rw [cut]
    exact trimEnd_of_ends fun again => single ⟨ends, again⟩
  · rw [trimEnd_of_ends ends, trimEnd_of_ends ends]

theorem CurrentPath.trimmed {cwd : Path} (shape : CurrentPath cwd) :
    ¬ EndsInSeparator (trimEnd cwd) := by
  rcases shape.ends with rfl | ends
  · decide
  · rwa [trimEnd_of_ends ends]

/-- Behind a root without a separator at its end only the end of a path is cut. -/
theorem joinPath_nil {path : Path} (rooted : path = [] ∨ path.head? = some slash) :
    joinPath [] path = trimEnd path := by
  rcases rooted with rfl | rooted
  · rfl
  · obtain ⟨tail, rfl⟩ : ∃ tail, path = slash :: tail := by
      cases path with
      | nil => cases rooted
      | cons c tail =>
        obtain rfl := Option.some.inj rooted
        exact ⟨tail, rfl⟩
    rfl

/-- What is dropped at the start of a parameter leaves its end as it is. -/
theorem trimStart_single {param : Path} (single : ¬ EndsInTwoSeparators param) :
    ¬ EndsInTwoSeparators (slash :: trimStart param) := by
  rintro ⟨last, before⟩
  cases param with
  | nil => exact absurd before (by decide)
  | cons c tail =>
    by_cases separator : isSeparator c = true
    · have dropped : trimStart (c :: tail) = tail := if_pos separator
      rw [dropped] at last before
      cases tail with
      | nil => exact absurd before (by decide)
      | cons d rest =>
        have same : EndsInSeparator (c :: d :: rest) :=
          (endsInSeparator_cons c d rest).mpr ((endsInSeparator_cons slash d rest).mp last)
        cases rest with
        | nil => exact single ⟨same, separator⟩
        | cons e rest =>
          exact single ⟨same, (endsInSeparator_cons c d _).mpr
            ((endsInSeparator_cons slash d _).mp before)⟩
    · have kept : trimStart (c :: tail) = c :: tail := if_neg separator
      rw [kept] at last before
      have same := (endsInSeparator_cons slash c tail).mp last
      cases tail with
      | nil => exact absurd same separator
      | cons d rest => exact single ⟨same, (endsInSeparator_cons slash c _).mp before⟩

/-- The parameter's shape is that of the whole text, before its end is cut. -/
theorem appendPath_single {cwd param : Path} (shape : CurrentPath cwd)
    (single : ¬ EndsInTwoSeparators param) : ¬ EndsInTwoSeparators (appendPath cwd param) := by
  intro two
  unfold appendPath at two
  apply trimStart_single single
  refine ⟨(endsInSeparator_append _ (List.cons_ne_nil _ _)).mp two.1, ?_⟩
  have second := two.2
  rw [List.dropLast_append_of_ne_nil (List.cons_ne_nil _ _)] at second
  by_cases empty : (slash :: trimStart param).dropLast = []
  · rw [empty, List.append_nil] at second
    exact absurd second shape.trimmed
  · exact (endsInSeparator_append _ empty).mp second

/-! ### The law on texts -/

theorem joinPath_assoc {root cwd param : Path} (rootShape : RootPath root)
    (shape : CurrentPath cwd) (single : ¬ EndsInTwoSeparators param) :
    joinPath (joinPath root cwd) param = joinPath root (joinPath cwd param) := by
  have within : joinPath [] cwd = trimEnd cwd := joinPath_nil (Or.inr shape.rooted)
  have direct : joinPath (trimEnd cwd) param = joinPath cwd param := by
    unfold joinPath appendPath
    rw [trimEnd_of_ends shape.trimmed]
  have rooted : joinPath cwd param = [] ∨ (joinPath cwd param).head? = some slash :=
    joinPath_head (Or.inr shape.rooted) param
  have cut : trimEnd (joinPath cwd param) = joinPath cwd param :=
    trimEnd_trimEnd (appendPath_single shape single)
  calc joinPath (joinPath root cwd) param
      = joinPath (root ++ joinPath [] cwd) param := by rw [joinPath_of_trimmed rootShape.trimmed]
    _ = root ++ joinPath (joinPath [] cwd) param := joinPath_append rootShape.trimmed _ _
    _ = root ++ joinPath cwd param := by rw [within, direct]
    _ = root ++ joinPath [] (joinPath cwd param) := by rw [joinPath_nil rooted, cut]
    _ = joinPath root (joinPath cwd param) := (joinPath_of_trimmed rootShape.trimmed _).symm

/-! ### The calls -/

/-- Of all texts that the calls write, the longest, before the separator at its end is cut. -/
def longest (root cwd param : Path) : Nat := (appendPath (joinPath root cwd) param).length

/-- The path that a file command makes in a block. -/
def pathInCommand (root cwd param : Path) (block : List INT8U) : Option Path :=
  (commandPath root cwd param block).bind (text? 0)

/-- The path of the current directory, as `list_write` makes it in a block. -/
def workingPath (root cwd : Path) (block : List INT8U) : Option Path :=
  (makePath (some root) cwd block maxPathLen).bind fun made => text? 0 made.1

/-- CWD first, in the array that holds the current directory. -/
def pathAfterCwd (root param : Path) (current block : List INT8U) : Option Path :=
  (makePath none param current maxPathLen).bind fun made =>
    (text? 0 made.1).bind fun cwd => workingPath root cwd block

section
variable {root cwd param : Path} (rootShape : RootPath root) (shape : CurrentPath cwd)
include rootShape shape

theorem joinPath_rooted : joinPath root cwd = root ++ trimEnd cwd := by
  rw [joinPath_of_trimmed rootShape.trimmed, joinPath_nil (Or.inr shape.rooted)]

theorem longest_eq (param : Path) :
    longest root cwd param = root.length + (appendPath cwd param).length := by
  unfold longest
  rw [joinPath_rooted rootShape shape, appendPath, trimEnd_append rootShape.trimmed,
    trimEnd_of_ends shape.trimmed]
  simp only [appendPath, List.length_append, List.length_cons]
  omega

omit shape in
/-- Joined to the root directory, a path that begins with a slash grows by it. -/
theorem length_appendPath_rooted {path : Path} (rooted : path = [] ∨ path.head? = some slash) :
    (appendPath root path).length = root.length + max 1 path.length := by
  unfold appendPath
  rw [rootShape.trimmed, List.length_append, List.length_cons]
  cases path with
  | nil => rfl
  | cons c tail =>
    obtain rfl : c = slash := by
      rcases rooted with empty | first
      · cases empty
      · exact Option.some.inj first
    have dropped : trimStart (slash :: tail) = tail := rfl
    rw [dropped, List.length_cons]
    omega

theorem pathsFit_of_longest {n : Nat} (fits : longest root cwd param < n) :
    PathsFit n root cwd param := by
  have whole := longest_eq rootShape shape param
  refine ⟨?_, fits⟩
  rw [length_appendPath_rooted rootShape (Or.inr shape.rooted)]
  have sum := length_appendPath cwd param
  rcases shape.ends with rfl | ends
  · simp only [List.length_singleton]
    omega
  · rw [trimEnd_of_ends ends] at sum
    omega

theorem joined_fits {n : Nat} (fits : longest root cwd param < n) :
    (appendPath root (joinPath cwd param)).length < n := by
  have whole := longest_eq rootShape shape param
  have cut : (joinPath cwd param).length ≤ (appendPath cwd param).length := length_trimEnd_le _
  have sum := length_appendPath cwd param
  rw [length_appendPath_rooted rootShape (joinPath_head (Or.inr shape.rooted) param)]
  omega

end

/-- The current directory is joined to the root directory. -/
theorem workingPath_fits {root cwd : Path} {block : List INT8U} (rootFree : 0 ∉ root)
    (filled : root ≠ []) (cwdFree : 0 ∉ cwd) (room : maxPathLen ≤ block.length)
    (fits : (appendPath root cwd).length < maxPathLen) :
    workingPath root cwd block = some (joinPath root cwd) := by
  have sum := length_appendPath root cwd
  have cut := length_le_trimEnd root
  obtain ⟨copied, copiedEq, start, -⟩ :=
    makePath_root cwd rootFree (show root.length < maxPathLen by omega) room (Nat.le_refl _)
  obtain ⟨out, outEq, made⟩ := makePath_inPlace start.holds filled cwdFree (by decide)
    (show (trimStart cwd).length ≤ maxPathLen by omega) (start.length ▸ room) fits
  rw [workingPath, copiedEq, outEq, Option.bind_some, text?_of_holds made.holds]

section
variable {root cwd param : Path} (rootShape : RootPath root) (shape : CurrentPath cwd)
  (rootFree : 0 ∉ root) (cwdFree : 0 ∉ cwd) (paramFree : 0 ∉ param)
  (fits : longest root cwd param < maxPathLen)
include rootShape shape rootFree cwdFree paramFree fits

/-- The path of a command, whatever the block. -/
theorem pathInCommand_eq {block : List INT8U} (room : maxPathLen ≤ block.length) :
    pathInCommand root cwd param block = some (joinPath (joinPath root cwd) param) := by
  have whole := longest_eq rootShape shape param
  have sum := length_appendPath cwd param
  have cwdCut := length_le_trimEnd cwd
  have rootFilled : root ≠ [] := ne_nil_of_head rootShape.rooted
  have rooted := List.length_pos_iff.mpr rootFilled
  have dropped := length_le_trimStart param
  obtain ⟨out, made, rewritten⟩ := commandPath_fits rootFree
    (by rw [rootShape.trimmed]; exact rootFilled) (by omega) cwdFree (by omega)
    (show param.length ≤ maxPathLen by omega) paramFree (Nat.le_refl maxPathLen) room
    (pathsFit_of_longest rootShape shape fits)
  rw [pathInCommand, made, Option.bind_some, text?_of_holds rewritten.holds]
  rfl

/-- The working directory, after the parameter has been joined to the current one. -/
theorem workingPath_eq (single : ¬ EndsInTwoSeparators param) {block : List INT8U}
    (room : maxPathLen ≤ block.length) :
    workingPath root (joinPath cwd param) block = some (joinPath (joinPath root cwd) param) := by
  rw [joinPath_assoc rootShape shape single]
  exact workingPath_fits rootFree (ne_nil_of_head rootShape.rooted)
    (notMem_joinPath (by decide) cwdFree paramFree) room (joined_fits rootShape shape fits)

end

/-- A relative CWD leaves the session in the directory that its parameter names. -/
theorem cwdHandler_moves {φ : Type} {m : Machine φ} {raw : List INT8U}
    (shape : CurrentPath m.session.currentDir.text) (free : 0 ∉ turnBackslashes raw)
    (relative : (turnBackslashes raw).head? ≠ some slash)
    (fits : (appendPath m.session.currentDir.text (turnBackslashes raw)).length < maxPathLen) :
    ∃ m', cwdHandler m raw = some (m', .ok) ∧ m'.session.rootDir = m.session.rootDir ∧
      m'.session.currentDir.text = joinPath m.session.currentDir.text (turnBackslashes raw) := by
  have whole : (trimStart (turnBackslashes raw)).length ≤ maxPathLen := by
    rw [length_appendPath] at fits
    omega
  obtain ⟨moved, made, joined⟩ := makePathIn_fits (ne_nil_of_head shape.rooted) free (by decide) whole (Nat.le_of_lt fits)
  rw [cwdHandler, cwdDir, if_neg relative, made, Option.map_some]
  exact ⟨_, rfl, rfl, joined⟩

/-- Joining is associative on the arrays of the program: the path of a command is the one
that CWD with its parameter leads to, in the same block or another one, and after a
relative CWD the session is in that directory. -/
theorem makePath_assoc {root cwd param : Path} (rootShape : RootPath root)
    (shape : CurrentPath cwd) (single : ¬ EndsInTwoSeparators param) (rootFree : 0 ∉ root)
    (cwdFree : 0 ∉ cwd) (paramFree : 0 ∉ param) (fits : longest root cwd param < maxPathLen) :
    (∀ block current other : List INT8U, maxPathLen ≤ block.length → maxPathLen ≤ current.length →
        maxPathLen ≤ other.length → Holds 0 current cwd →
        ∃ path, pathInCommand root cwd param block = some path ∧
          pathAfterCwd root param current other = some path) ∧
      ∀ (φ : Type) (m : Machine φ) (raw : List INT8U), m.session.rootDir.text = root →
        m.session.currentDir.text = cwd → turnBackslashes raw = param →
        param.head? ≠ some slash →
        ∃ m', cwdHandler m raw = some (m', .ok) ∧ ∀ block : List INT8U, maxPathLen ≤ block.length →
          ∃ path, pathInCommand root cwd param block = some path ∧
            workingPath m'.session.rootDir.text m'.session.currentDir.text block = some path := by
  have whole := longest_eq rootShape shape param
  have sum := length_appendPath cwd param
  have direct : ∀ block : List INT8U, maxPathLen ≤ block.length → _ := fun block =>
    pathInCommand_eq rootShape shape rootFree cwdFree paramFree fits
  have working : ∀ block : List INT8U, maxPathLen ≤ block.length → _ := fun block =>
    workingPath_eq rootShape shape rootFree cwdFree paramFree fits single
  constructor
  · intro block current other roomBlock roomCurrent roomOther held
    refine ⟨_, direct block roomBlock, ?_⟩
    obtain ⟨out, made, rewritten⟩ := makePath_inPlace held (ne_nil_of_head shape.rooted) paramFree
      (by decide)
      (show (trimStart param).length ≤ maxPathLen by omega) roomCurrent
      (show (appendPath cwd param).length < maxPathLen by omega)
    rw [pathAfterCwd, made, Option.bind_some, text?_of_holds rewritten.holds, Option.bind_some]
    exact working other roomOther
  · rintro φ m raw rfl rfl rfl relative
    obtain ⟨m', moves, sameRoot, joined⟩ :=
      cwdHandler_moves shape paramFree relative (show _ < maxPathLen by omega)
    refine ⟨m', moves, fun block room => ⟨_, direct block room, ?_⟩⟩
    rw [sameRoot, joined]
    exact working block room

/-- From "/nand" and "/logs" to the directory "2014". -/
theorem makePath_assoc_logs :
    let root := asciiBytes "/nand"
    let cwd := asciiBytes "/logs"
    let param := asciiBytes "2014/"
    (∀ block current other : List INT8U, maxPathLen ≤ block.length → maxPathLen ≤ current.length →
        maxPathLen ≤ other.length → Holds 0 current cwd →
        ∃ path, pathInCommand root cwd param block = some path ∧
          pathAfterCwd root param current other = some path) ∧
      ∀ (φ : Type) (m : Machine φ) (raw : List INT8U), m.session.rootDir.text = root →
        m.session.currentDir.text = cwd → turnBackslashes raw = param →
        param.head? ≠ some slash →
        ∃ m', cwdHandler m raw = some (m', .ok) ∧ ∀ block : List INT8U, maxPathLen ≤ block.length →
          ∃ path, pathInCommand root cwd param block = some path ∧
            workingPath m'.session.rootDir.text m'.session.currentDir.text block = some path :=
  makePath_assoc ⟨by decide, by decide⟩ ⟨by decide, by decide⟩ (by decide) (by decide) (by decide)
    (by decide) (by decide)

end GasSub.Guarantees.PathAssociativity
