import GasSub.Source.FtpFileCommands

/-!
# One path resolution for the file commands

The path each file command hands to the file system, for a parameter in a
directory. RETR, STOR, DELE, RMD, RNFR and RNTO join the parameter to the current
directory whatever it begins with; MKD joins an absolute one to the root
directory. The two agree for relative parameters and in the top directory.
-/
namespace GasSub.Guarantees.PathResolution
open GasSub.Source GasSub.Source.Hvsftpd GasSub.Library.CharArray

/-! ### What a command operates on -/

section
variable {φ : Type}

/-- The parameter of a transfer is stored when its connection is opened. -/
def storing (m : Machine φ) (param : Path) : Machine φ :=
  { m with session := { m.session with param := m.session.param.copy param } }

/-- RETR and STOR work once their data connection is ready, on the parameter stored when
it was opened; the other commands work at once. -/
def fileCommand (fs : FileSystem φ) (env : Surroundings) (m : Machine φ) (param : Path) :
    FtpHandler → Option (Machine φ)
  | .retr => retrWrite fs env (storing m param)
  | .stor => storRead fs env (storing m param)
  | handler => (handle fs env m param handler).map Prod.fst

/-- The calls of a command that operates on `path`; RNTO also looks up the old name. -/
def CallsOn (path : Path) : FtpHandler → List FileCall → Prop
  | .retr, calls => calls = [.stat path] ∨ calls = [.stat path, .openFile path false]
  | .stor, calls => calls = [.openFile path true]
  | .dele, calls => calls = [.stat path] ∨ calls = [.stat path, .unlink path]
  | .rmd, calls => calls = [.stat path] ∨ calls = [.stat path, .rmdir path]
  | .rnfr, calls => calls = [.stat path]
  | .rnto, calls => ∃ old, calls = [.stat old] ∨ calls = [.stat old, .rename old path]
  | .mkd, calls => calls = [.stat path] ∨ calls = [.stat path, .mkdir path]
  | _, _ => False

/-- A session in the directory `current`, with a data connection and room for the name
RNFR left, about to run a command with memory and a stream that ends. -/
structure Ready (current : Path) (env : Surroundings) (m : Machine φ) : Prop where
  rooted : m.session.Rooted
  directory : m.session.currentDir.text = current
  oldFits : OldPathFits m.session
  memory : ∀ n, (env.malloc n).isSome
  data : m.session.dataSock.isSome
  ends : (storLoop env.recv).isSome
  calls : m.calls = []

end

/-- On every file system the command runs and operates on `path`. -/
def OperatesOn (current param : Path) (handler : FtpHandler) (path : Path) : Prop :=
  ∀ (φ : Type) (fs : FileSystem φ) (env : Surroundings) (m : Machine φ), Ready current env m →
    ∃ m', fileCommand fs env m param handler = some m' ∧ CallsOn path handler m'.calls

/-- The path MKD would create is the one the other file commands operate on. -/
def OnePath (current param : Path) : Prop :=
  ∃ path, OperatesOn current param .mkd path ∧
    ∀ handler ∈ [FtpHandler.retr, .stor, .dele, .rmd, .rnfr, .rnto],
      OperatesOn current param handler path

/-! ### Each command -/

section
variable {φ : Type} {fs : FileSystem φ} {env : Surroundings} {m : Machine φ}
  {current param : Path}

def targetIn (current param : Path) : Path := commandTarget nandDir current param

theorem Ready.target (ready : Ready current env m) (param : Path) :
    m.session.target param = targetIn current param := by
  unfold Session.target targetIn
  rw [ready.rooted, ready.directory]

theorem Ready.given (ready : Ready current env m) (n : Nat) :
    ∃ block, env.malloc n = some block := Option.isSome_iff_exists.mp (ready.memory n)

/-- With memory, what the block is used for is done with the path of the parameter. -/
theorem Ready.atPath (ready : Ready current env m) (free : 0 ∉ param)
    (short : param.length ≤ maxPathLen) {size : Nat} (enough : maxPathLen ≤ size)
    (fits : PathsFit size nandDir current param) :
    ∃ out, ∀ (failed : String) (act : List INT8U → Path → Option (Machine φ)),
      atPath env m size param failed act = act out (targetIn current param) := by
  obtain ⟨block, given⟩ := ready.given size
  obtain ⟨out, -, made⟩ := atPath_fits ready.rooted free short enough given
    (ready.directory.symm ▸ fits)
  rw [ready.target] at made
  exact ⟨out, made⟩

/-- The calls of DELE and RMD. -/
theorem calls_removeAt (none' : m.calls = []) {wanted : Stat → Bool} {call : Path → FileCall}
    {remove : φ → Path → φ × Bool} {done failed missing : String} {path : Path} :
    let calls := (removeAt fs m param wanted call remove done failed missing path).calls
    calls = [.stat path] ∨ calls = [.stat path, call path] := by
  unfold removeAt
  dsimp only
  split
  · rw [calls_perform]
    simp [Machine.call, none']
  · simp [sessionFormatResponse, Machine.call, none']

/-- Where the callback leaves the data connection, closing it changes no calls. -/
theorem calls_closedata (opened : m.session.dataSock.isSome) :
    ∃ m', sessionClosedata m = some m' ∧ m'.calls = m.calls := by
  obtain ⟨i, data⟩ := Option.isSome_iff_exists.mp opened
  unfold sessionClosedata
  rw [data]
  exact ⟨_, rfl, rfl⟩

theorem calls_retrAt (fs : FileSystem φ) (param path : Path) (none' : m.calls = []) :
    ((retrAt fs m param path).calls = [.stat path] ∨
      (retrAt fs m param path).calls = [.stat path, .openFile path false]) ∧
      (retrAt fs m param path).session.dataSock = m.session.dataSock := by
  unfold retrAt
  dsimp only
  split
  · split
    · simp [sessionResponse, Machine.call, none']
    · simp [sessionResponse, Machine.call, none']
  · simp [sessionFormatResponse, Machine.call, none']

theorem calls_storAt (fs : FileSystem φ) (path : Path) (none' : m.calls = [])
    (data : m.session.dataSock.isSome) (ends : (storLoop env.recv).isSome) :
    ∃ m', storAt fs env m path = some m' ∧ m'.calls = [.openFile path true] ∧
      m'.session.dataSock = m.session.dataSock := by
  obtain ⟨i, opened⟩ := Option.isSome_iff_exists.mp data
  obtain ⟨blocks, received⟩ := Option.isSome_iff_exists.mp ends
  have same : (m.call (.openFile path true)).session = m.session := rfl
  unfold storAt
  dsimp only
  split
  · rw [same, opened, received]
    exact ⟨_, rfl, by simp [sessionResponse, Machine.call, none'], opened⟩
  · exact ⟨_, rfl, by simp [sessionResponse, Machine.call, none'], rfl⟩

theorem text_storing (free : 0 ∉ param) (short : param.length ≤ maxPathLen) :
    (storing m param).session.param.text = param := by
  refine (Terminated.text_copy _ free).trans ?_
  exact List.take_of_length_le short

theorem Ready.storing (ready : Ready current env m) (stored : Path) :
    Ready current env (storing m stored) :=
  ⟨ready.rooted, ready.directory, ready.oldFits, ready.memory, ready.data, ready.ends,
    ready.calls⟩

end

section
variable {current param : Path} (free : 0 ∉ param) (short : param.length ≤ maxPathLen)
  (fits : PathsFit maxPathLen nandDir current param)
include free short fits

theorem operatesOn_dele : OperatesOn current param .dele (targetIn current param) := by
  intro φ fs env m ready
  obtain ⟨out, made⟩ := ready.atPath free short (Nat.le_refl _) fits
  simp only [fileCommand, handle, deleHandler, made, Option.map_some]
  exact ⟨_, rfl, calls_removeAt ready.calls⟩

theorem operatesOn_rmd : OperatesOn current param .rmd (targetIn current param) := by
  intro φ fs env m ready
  obtain ⟨out, made⟩ := ready.atPath free short (Nat.le_refl _) fits
  simp only [fileCommand, handle, rmdHandler, made, Option.map_some]
  exact ⟨_, rfl, calls_removeAt ready.calls⟩

theorem operatesOn_rnfr : OperatesOn current param .rnfr (targetIn current param) := by
  intro φ fs env m ready
  obtain ⟨block, given⟩ := ready.given maxPathLen
  have made := rnfrHandler_eq fs ready.rooted free short given
    (ready.directory.symm ▸ fits)
  simp only [fileCommand, handle, made, Option.map_some]
  refine ⟨_, rfl, ?_⟩
  rw [ready.target]
  split
  · simp [CallsOn, sessionResponse, Machine.call, ready.calls]
  · simp [CallsOn, sessionFormatResponse, Machine.call, ready.calls]

theorem operatesOn_rnto : OperatesOn current param .rnto (targetIn current param) := by
  intro φ fs env m ready
  obtain ⟨block, given⟩ := ready.given (maxPathLen + maxPathLen)
  obtain ⟨old, made, -⟩ := rntoHandler_eq fs ready.rooted free short given ready.oldFits
    (ready.directory.symm ▸ fits.mono (Nat.le_add_right _ _))
  simp only [fileCommand, handle, made, Option.map_some]
  refine ⟨_, rfl, old, ?_⟩
  rw [ready.target, calls_renameAt, ready.calls]
  split
  · exact Or.inr rfl
  · exact Or.inl rfl

theorem operatesOn_retr : OperatesOn current param .retr (targetIn current param) := by
  intro φ fs env m ready
  have stored := ready.storing param
  obtain ⟨out, made⟩ := stored.atPath free short
    (Nat.le_add_right maxPathLen fileBufSize) (fits.mono (Nat.le_add_right _ _))
  obtain ⟨calls, data⟩ := calls_retrAt fs param (targetIn current param) stored.calls
  obtain ⟨m', closed, same⟩ := calls_closedata (data ▸ stored.data)
  refine ⟨m', ?_, same ▸ calls⟩
  simp only [fileCommand, retrWrite, text_storing free short, made, Option.bind_eq_bind,
    Option.bind_some, closed]

theorem operatesOn_stor : OperatesOn current param .stor (targetIn current param) := by
  intro φ fs env m ready
  have stored := ready.storing param
  obtain ⟨out, made⟩ := stored.atPath free short
    (Nat.le_add_right maxPathLen fileBufSize) (fits.mono (Nat.le_add_right _ _))
  obtain ⟨mid, taken, calls, data⟩ := calls_storAt fs (targetIn current param)
    stored.calls stored.data stored.ends
  obtain ⟨m', closed, same⟩ := calls_closedata (data ▸ stored.data)
  refine ⟨m', ?_, same.trans calls⟩
  simp only [fileCommand, storRead, text_storing free short, made, taken, Option.bind_eq_bind,
    Option.bind_some, closed]

omit free short in
/-- A path under the root directory is no longer than one under a directory below it. -/
theorem mkdFits_of_fits {s : Session} (directory : s.currentDir.text = current) :
    MkdFits s param := by
  unfold MkdFits
  split
  · have below : trimEnd (joinPath nandDir current) = nandDir ++ trimEnd (joinPath [] current) := by
      rw [joinPath_of_trimmed trimEnd_nandDir, trimEnd_append trimEnd_nandDir]
    have room := fits.2
    unfold appendPath at room ⊢
    rw [below] at room
    rw [trimEnd_nandDir]
    simp only [List.length_append] at room ⊢
    omega
  · rw [directory]
    exact fits

theorem operatesOn_mkd : OperatesOn current param .mkd
    (if param.head? = some slash then joinPath nandDir param else targetIn current param) := by
  intro φ fs env m ready
  obtain ⟨block, given⟩ := ready.given maxPathLen
  have made := mkdHandler_eq fs ready.rooted free short given
    (mkdFits_of_fits fits ready.directory)
  have target : m.session.mkdTarget param =
      if param.head? = some slash then joinPath nandDir param else targetIn current param := by
    rw [← ready.target]
    rfl
  simp only [fileCommand, handle, made, Option.map_some]
  refine ⟨_, rfl, ?_⟩
  rw [← target]
  unfold createAt
  dsimp only
  split
  · simp [CallsOn, sessionFormatResponse, Machine.call, ready.calls]
  · rw [calls_perform]
    simp [CallsOn, Machine.call, ready.calls]

end

/-! ### One path -/

theorem exists_ready {current : Path} (free : 0 ∉ current) (short : current.length ≤ maxPathLen) :
    ∃ m : Machine (List Path), Ready current Surroundings.plain m := by
  let s := Session.accepted 1
  refine ⟨{ Machine.accepted [] with session :=
    { s with dataSock := some 2, currentDir := s.currentDir.write current } }, ?_⟩
  have oldFits : OldPathFits (Session.accepted 1) := by
    unfold OldPathFits
    decide
  refine ⟨rooted_accepted 1, ?_, oldFits, fun n => rfl, rfl, by decide, rfl⟩
  exact (Terminated.text_write _ free).trans (List.take_of_length_le short)

/-- MKD and DELE first look up the path they operate on. -/
theorem operatesOn_unique {current param : Path} {handler : FtpHandler} {p q : Path}
    (looks : handler = .mkd ∨ handler = .dele) (free : 0 ∉ current)
    (short : current.length ≤ maxPathLen) (onP : OperatesOn current param handler p)
    (onQ : OperatesOn current param handler q) : p = q := by
  have first : ∀ {path : Path} {calls : List FileCall}, CallsOn path handler calls →
      calls.head? = some (.stat path) := by
    intro path calls callsOn
    rcases looks with rfl | rfl
    · rcases callsOn with rfl | rfl
      · rfl
      · rfl
    · rcases callsOn with rfl | rfl
      · rfl
      · rfl
  obtain ⟨m, ready⟩ := exists_ready free short
  obtain ⟨mp, runP, callsP⟩ := onP _ FileSystem.names _ m ready
  obtain ⟨mq, runQ, callsQ⟩ := onQ _ FileSystem.names _ m ready
  obtain rfl : mp = mq := Option.some.inj (runP.symm.trans runQ)
  have same := (first callsP).symm.trans (first callsQ)
  cases same
  rfl

/-- The directory is `"/"`, or another name for it. -/
def TopDirectory (current : Path) : Prop :=
  trimStart current = [] ∨ ∃ c, isSeparator c = true ∧ trimStart current = [c]

theorem topDirectory_iff (current : Path) :
    TopDirectory current ↔ trimEnd (joinPath [] current) = [] := by
  unfold TopDirectory joinPath appendPath
  change _ ↔ trimEnd (trimEnd (slash :: trimStart current)) = []
  rcases List.eq_nil_or_concat (trimStart current) with empty | ⟨init, c, whole⟩
  · rw [empty]
    exact ⟨fun _ => rfl, fun _ => Or.inl rfl⟩
  · rw [whole, List.concat_eq_append, ← List.cons_append, trimEnd_append_singleton]
    constructor
    · rintro (empty | ⟨d, separator, single⟩)
      · exact absurd empty (by simp)
      · cases init with
        | nil =>
          rw [List.nil_append] at single
          cases single
          rw [if_pos separator]
          rfl
        | cons e rest => exact absurd (congrArg List.length single) (by simp)
    · intro top
      by_cases separator : isSeparator c = true
      · rw [if_pos separator] at top
        have long := length_le_trimEnd (slash :: init)
        rw [top, List.length_cons] at long
        have empty : init = [] := List.eq_nil_of_length_eq_zero (Nat.le_zero.mp (Nat.le_of_succ_le_succ long))
        subst empty
        exact Or.inr ⟨c, separator, rfl⟩
      · rw [if_neg separator, List.cons_append] at top
        have long := length_le_trimEnd (slash :: (init ++ [c]))
        rw [top, List.length_cons, List.length_append, List.length_singleton, List.length_nil] at long
        omega

/-- An absolute parameter is joined to the same path with and without the directory
exactly in the top directory. -/
theorem absolute_target_iff (current param : Path) :
    joinPath nandDir param = targetIn current param ↔ TopDirectory current := by
  have parameter : joinPath (joinPath [] current) param =
      trimEnd (joinPath [] current) ++ joinPath [] param :=
    trimEnd_append_of_ne_nil _ (List.cons_ne_nil _ _)
  unfold targetIn
  rw [topDirectory_iff, commandTarget_of_trimmed trimEnd_nandDir,
    joinPath_of_trimmed trimEnd_nandDir, List.append_cancel_left_eq]
  unfold commandTarget
  rw [parameter, List.self_eq_append_left]

/-- MKD and the other file commands operate on one path exactly for a relative parameter
or in the top directory. -/
theorem onePath_iff (current param : Path) (currentFree : 0 ∉ current)
    (currentShort : current.length ≤ maxPathLen) (free : 0 ∉ param)
    (short : param.length ≤ maxPathLen) (fits : PathsFit maxPathLen nandDir current param) :
    OnePath current param ↔ (param.head? = some slash → TopDirectory current) := by
  have mkd := operatesOn_mkd free short fits
  have dele := operatesOn_dele free short fits
  have one : OnePath current param ↔
      (if param.head? = some slash then joinPath nandDir param else targetIn current param) =
        targetIn current param := by
    constructor
    · rintro ⟨path, created, others⟩
      have fromMkd := operatesOn_unique (Or.inl rfl) currentFree currentShort mkd created
      have fromDele := operatesOn_unique (Or.inr rfl) currentFree currentShort dele
        (others .dele (by decide))
      exact fromMkd.trans fromDele.symm
    · intro same
      refine ⟨targetIn current param, same ▸ mkd, fun handler member => ?_⟩
      simp only [List.mem_cons, List.not_mem_nil, or_false] at member
      rcases member with rfl | rfl | rfl | rfl | rfl | rfl
      · exact operatesOn_retr free short fits
      · exact operatesOn_stor free short fits
      · exact dele
      · exact operatesOn_rmd free short fits
      · exact operatesOn_rnfr free short fits
      · exact operatesOn_rnto free short fits
  rw [one]
  by_cases absolute : param.head? = some slash
  · rw [if_pos absolute, absolute_target_iff]
    exact ⟨fun top _ => top, fun top => top absolute⟩
  · rw [if_neg absolute]
    exact ⟨fun _ absolute' => absurd absolute' absolute, fun _ => rfl⟩

theorem onePath_iff_relative :
    OnePath (asciiBytes "/a") (asciiBytes "b") ↔
      ((asciiBytes "b").head? = some slash → TopDirectory (asciiBytes "/a")) :=
  onePath_iff (asciiBytes "/a") (asciiBytes "b") (by decide) (by decide) (by decide) (by decide)
    (by decide)

/-- In `"/a"` MKD creates `"/nand/b"` for `"/b"`, and DELE looks for `"/nand/a/b"`. -/
theorem onePath_fails : ¬ OnePath (asciiBytes "/a") (asciiBytes "/b") := by
  rintro ⟨path, created, others⟩
  have mkd := operatesOn_unique (Or.inl rfl) (by decide) (by decide) created
    (operatesOn_mkd (by decide) (by decide) (by decide))
  have dele := operatesOn_unique (Or.inr rfl) (by decide) (by decide) (others .dele (by decide))
    (operatesOn_dele (by decide) (by decide) (by decide))
  exact absurd (mkd.symm.trans dele) (by decide)

end GasSub.Guarantees.PathResolution
