import GasSub.Guarantees.RenameProtocol

/-!
# The file RNTO renames

RNFR keeps the path it has found without `root_dir`, and RNTO joins the two again:
whatever the directory was and has become since, the path is the same. But RNTO joins
its new path in front of the old one, in the same block, and a new path of 128
characters or more takes the place of the old one.
-/
namespace GasSub.Guarantees.RenamedFile
open GasSub.Source GasSub.Source.Hvsftpd GasSub.Library.CharArray
open GasSub.Guarantees.RenameProtocol

variable {φ : Type}

/-! ### Between the two commands -/

/-- The session with another directory and more replies: what CWD commands do. -/
def inDirectory (m : Machine φ) (later : CharArray) (said : List Reply) : Machine φ :=
  { m with session := { m.session with currentDir := later }, replies := said }

/-- CWD commands one after the other, each up to its end. -/
def cwdRun (m : Machine φ) (params : List Path) : Option (Machine φ) :=
  params.foldlM (fun m param => (cwdHandler m param).map Prod.fst) m

theorem cwdRun_inDirectory {m m' : Machine φ} {params : List Path}
    (ran : cwdRun m params = some m') : ∃ later said, m' = inDirectory m later said := by
  induction params generalizing m with
  | nil =>
    obtain rfl : m = m' := Option.some.inj ran
    exact ⟨m.session.currentDir, m.replies, rfl⟩
  | cons param rest ih =>
    rw [cwdRun, List.foldlM_cons] at ran
    obtain ⟨next, step, later⟩ := Option.bind_eq_some_iff.mp ran
    obtain ⟨out, handled, rfl⟩ := Option.map_eq_some_iff.mp step
    obtain ⟨currentDir, -, rfl⟩ := Option.map_eq_some_iff.mp handled
    obtain ⟨last, said, rfl⟩ := ih later
    exact ⟨last, said, rfl⟩

/-! ### RNFR and RNTO -/

/-- The path a file call is about; for a rename the old one. -/
def operand : FileCall → Path
  | .stat path | .opendir path | .openFile path _ | .unlink path | .rmdir path | .mkdir path => path
  | .rename old _ => old

/-- RNFR with `param` and, in the directory `later`, RNTO with `newParam`: both end, and
every file call of RNTO is about the path RNFR has looked at. -/
def FindsAgain (fs : FileSystem φ) (before after : Surroundings) (m : Machine φ) (param : Path)
    (later : CharArray) (said : List Reply) (newParam : Path) : Prop :=
  ∃ m₁ m₂ path new, rnfrHandler fs before m param = some (m₁, .ok) ∧
    m₁.calls = m.calls ++ [.stat path] ∧
    rntoHandler fs after (inDirectory m₁ later said) newParam = some (m₂, .ok) ∧
    m₂.calls = m₁.calls ++ new ∧ ∀ call ∈ new, operand call = path

/-- The condition: RNFR joins its path inside its block; and if RNTO has memory, it joins
the new path inside the block of both, and inside its own half of it, unless what stands
in the other half then happens to be the path that was found. -/
def NamesApart (after : Surroundings) (s : Session) (param : Path) (later : CharArray)
    (newParam : Path) : Prop :=
  PathsFit maxPathLen nandDir s.currentDir.text param ∧
    ((after.malloc (maxPathLen + maxPathLen)).isSome →
      PathsFit (maxPathLen + maxPathLen) nandDir later.text newParam ∧
        (PathsFit maxPathLen nandDir later.text newParam ∨
          (commandTarget nandDir later.text newParam).drop maxPathLen =
            commandTarget nandDir s.currentDir.text param))

/-- RNFR on a file that is there. -/
theorem rnfr_found {fs : FileSystem φ} {before : Surroundings} {m : Machine φ}
    (rooted : m.session.Rooted) (rnfr : CommandLine)
    (found : m.finds fs (m.session.target rnfr.param) (fun _ => true) = true) {block : List INT8U}
    (given : before.malloc maxPathLen = some block)
    (fits : PathsFit maxPathLen nandDir m.session.currentDir.text rnfr.param) :
    ∃ m₁, rnfrHandler fs before m rnfr.param = some (m₁, .ok) ∧
      m₁.calls = m.calls ++ [.stat (m.session.target rnfr.param)] ∧ m₁.session.Rooted ∧
      m₁.session.renamingPath.text = m.session.nameUnder rnfr.param := by
  have handled := rnfrHandler_eq fs rooted rnfr.nulFree_param rnfr.length_param given fits
  rw [found, if_pos rfl] at handled
  refine ⟨_, handled, rfl, rooted, ?_⟩
  have free := nulFree_nameUnder m.session rnfr.nulFree_param
  have short := length_target_lt rooted fits
  rw [target_eq_append rooted, List.length_append] at short
  exact (Terminated.text_copy _ free).trans (List.take_of_length_le (by omega))

theorem rnfr_outside {fs : FileSystem φ} {before : Surroundings} {m : Machine φ}
    (rooted : m.session.Rooted) (rnfr : CommandLine) {block : List INT8U}
    (given : before.malloc maxPathLen = some block)
    (outside : ¬ PathsFit maxPathLen nandDir m.session.currentDir.text rnfr.param) :
    rnfrHandler fs before m rnfr.param = none := by
  have fails : ¬ FitsBlock before maxPathLen m.session rnfr.param := fun fits =>
    outside (fits (by rw [given]; rfl))
  rw [rnfrHandler, atPath_none rooted rnfr.length_param (Nat.le_refl _) fails]
  rfl

/-- The file calls of RNTO are about the old path as it stands once both are joined. -/
theorem rnto_operands {fs : FileSystem φ} {m : Machine φ}
    {oldName param oldPath path found : Path} :
    (∃ new, (renameAt fs m oldName param oldPath path).calls = m.calls ++ new ∧
      ∀ call ∈ new, operand call = found) ↔ oldPath = found := by
  rw [calls_renameAt]
  constructor
  · rintro ⟨new, same, each⟩
    rw [List.append_cancel_left same.symm] at each
    refine each (.stat oldPath) ?_
    split
    · exact List.mem_cons_self
    · exact List.mem_cons_self
  · rintro rfl
    refine ⟨_, rfl, fun call member => ?_⟩
    split at member
    · rcases List.mem_cons.mp member with rfl | last
      · rfl
      · rw [List.mem_singleton.mp last]
        rfl
    · rw [List.mem_singleton.mp member]
      rfl

/-- RNTO on a name that leads to `path`. -/
theorem rnto_iff (fs : FileSystem φ) (after : Surroundings) (m : Machine φ) {path : Path}
    (rooted : m.session.Rooted) (rnto : CommandLine) (oldFits : OldPathFits m.session)
    (leads : joinPath nandDir m.session.renamingPath.text = path) :
    (∃ m₂ new, rntoHandler fs after m rnto.param = some (m₂, .ok) ∧ m₂.calls = m.calls ++ new ∧
      ∀ call ∈ new, operand call = path) ↔
      ((after.malloc (maxPathLen + maxPathLen)).isSome →
        PathsFit (maxPathLen + maxPathLen) nandDir m.session.currentDir.text rnto.param ∧
          (PathsFit maxPathLen nandDir m.session.currentDir.text rnto.param ∨
            (m.session.target rnto.param).drop maxPathLen = path)) := by
  cases given : after.malloc (maxPathLen + maxPathLen) with
  | none =>
    refine ⟨fun _ some_block => absurd some_block Bool.false_ne_true, fun _ => ?_⟩
    refine ⟨sessionResponse m "550 Cannot RNTO", [], ?_, ?_, fun call member => by cases member⟩
    · simp only [rntoHandler, given]
    · exact (List.append_nil _).symm
  | some block =>
    have memory : (some block).isSome = true := rfl
    simp only [memory, true_implies]
    by_cases fits : PathsFit (maxPathLen + maxPathLen) nandDir m.session.currentDir.text rnto.param
    · obtain ⟨oldPath, handled, kept, overrun⟩ :=
        rntoHandler_eq fs rooted rnto.nulFree_param rnto.length_param given oldFits fits
      have ends : (∃ m₂ new, rntoHandler fs after m rnto.param = some (m₂, .ok) ∧
          m₂.calls = m.calls ++ new ∧ ∀ call ∈ new, operand call = path) ↔ oldPath = path := by
        have about : (∃ new, (renameAt fs m m.session.renamingPath.text rnto.param oldPath
            (m.session.target rnto.param)).calls = m.calls ++ new ∧
            ∀ call ∈ new, operand call = path) ↔ oldPath = path := rnto_operands
        rw [handled, ← about]
        simp only [Option.some.injEq, Prod.mk.injEq, and_true, exists_and_left, exists_eq_left']
      rw [ends, and_iff_right fits]
      by_cases half : PathsFit maxPathLen nandDir m.session.currentDir.text rnto.param
      · rw [kept half, leads]
        exact ⟨fun _ => Or.inl half, fun _ => rfl⟩
      · rw [overrun half, or_iff_right half]
    · have failed : rntoHandler fs after m rnto.param = none :=
        rntoHandler_none rooted rnto.length_param given fun both => fits both.2
      rw [failed]
      constructor
      · rintro ⟨m₂, new, absent, -⟩
        cases absent
      · exact fun both => absurd both.1 fits

/-- For every directory at RNFR and every file it finds whose path does not end in a
separator, and whatever the directory and the parameter at RNTO, RNTO is about the same
path exactly under the condition. -/
theorem findsAgain_iff (fs : FileSystem φ) (before after : Surroundings) (m : Machine φ)
    (rooted : m.session.Rooted) (rnfr rnto : CommandLine)
    (given : (before.malloc maxPathLen).isSome)
    (found : m.finds fs (m.session.target rnfr.param) (fun _ => true) = true)
    (ends : trimEnd (m.session.target rnfr.param) = m.session.target rnfr.param)
    (later : CharArray) (said : List Reply) :
    FindsAgain fs before after m rnfr.param later said rnto.param ↔
      NamesApart after m.session rnfr.param later rnto.param := by
  obtain ⟨block, given⟩ := Option.isSome_iff_exists.mp given
  unfold NamesApart
  by_cases fits : PathsFit maxPathLen nandDir m.session.currentDir.text rnfr.param
  · obtain ⟨m₁, handled, calls, rooted₁, name⟩ := rnfr_found rooted rnfr found given fits
    have joined : m.session.target rnfr.param =
        commandTarget nandDir m.session.currentDir.text rnfr.param := by
      rw [Session.target, rooted]
    have leads : joinPath nandDir (inDirectory m₁ later said).session.renamingPath.text =
        m.session.target rnfr.param := by
      rw [← ends, ← joinPath_nameUnder rooted, ← name]
      rfl
    have oldFits : OldPathFits (inDirectory m₁ later said).session := by
      have short := oldFits_nameUnder rooted fits
      rw [← name] at short
      exact short
    have target : (inDirectory m₁ later said).session.target rnto.param =
        commandTarget nandDir later.text rnto.param := by
      unfold Session.target
      exact congrArg (fun root => commandTarget root later.text rnto.param) rooted₁
    have again := rnto_iff fs after (inDirectory m₁ later said) rooted₁ rnto oldFits leads
    rw [target, joined] at again
    rw [joined] at calls
    refine Iff.trans ?_ (Iff.trans again (and_iff_right fits).symm)
    constructor
    · rintro ⟨m', m₂, path, new, first, looked, second, added, each⟩
      obtain rfl : m₁ = m' := congrArg Prod.fst (Option.some.inj (handled.symm.trans first))
      cases List.append_cancel_left (calls.symm.trans looked)
      exact ⟨m₂, new, second, added, each⟩
    · rintro ⟨m₂, new, second, added, each⟩
      exact ⟨m₁, m₂, _, new, handled, calls, second, added, each⟩
  · have failed : rnfrHandler fs before m rnfr.param = none := rnfr_outside rooted rnfr given fits
    constructor
    · rintro ⟨m₁, m₂, path, new, handled, -⟩
      rw [failed] at handled
      cases handled
    · exact fun both => absurd both.1 fits

/-- A session that has just been accepted, and one file. -/
def oneFile : Machine (List Path) := Machine.accepted [asciiBytes "/nand/a"]

theorem findsAgain_iff_root :
    FindsAgain FileSystem.names Surroundings.plain Surroundings.plain oneFile rnfrA.line.param
        oneFile.session.currentDir [] rntoB.line.param ↔
      NamesApart Surroundings.plain oneFile.session rnfrA.line.param oneFile.session.currentDir
        rntoB.line.param :=
  findsAgain_iff FileSystem.names Surroundings.plain Surroundings.plain oneFile (rooted_accepted 1)
    rnfrA.line rntoB.line rfl (by decide) (by decide) oneFile.session.currentDir []

/-- A directory whose path on the flash has 127 characters. -/
def deepDir : CharArray :=
  (Terminated.zero 0 maxPathLen).write (slash :: List.replicate 121 0x64)

/-- There RNTO looks for the last character of the new path. -/
theorem findsAgain_not :
    ¬ ∀ (m : Machine (List Path)) (rnfr rnto : CommandLine) (later : CharArray) (said : List Reply),
      m.session.Rooted → (m.session.target rnfr.param).length ≤ 126 →
      m.finds FileSystem.names (m.session.target rnfr.param) (fun _ => true) = true →
      trimEnd (m.session.target rnfr.param) = m.session.target rnfr.param →
        FindsAgain FileSystem.names Surroundings.plain Surroundings.plain m rnfr.param later said
          rnto.param := by
  intro always
  obtain ⟨m₁, m₂, path, new, first, looked, second, added, each⟩ :=
    always oneFile rnfrA.line rntoB.line deepDir [] (rooted_accepted 1) (by decide) (by decide)
      (by decide)
  have facts : ((rnfrHandler FileSystem.names Surroundings.plain oneFile
      rnfrA.line.param).bind fun out =>
      (rntoHandler FileSystem.names Surroundings.plain (inDirectory out.1 deepDir [])
        rntoB.line.param).map fun out' => (out.1.calls, out'.1.calls)) =
      some ([.stat (asciiBytes "/nand/a")],
        [.stat (asciiBytes "/nand/a"), .stat (asciiBytes "b")]) := by decide +kernel
  rw [first, Option.bind_some, second, Option.map_some] at facts
  obtain ⟨before, after⟩ := Prod.mk.inj (Option.some.inj facts)
  rw [before] at added looked
  have found : path = asciiBytes "/nand/a" := by
    cases looked
    rfl
  have whole : [FileCall.stat (asciiBytes "/nand/a"), .stat (asciiBytes "b")] =
      [.stat (asciiBytes "/nand/a")] ++ new := (show _ = m₂.calls from after.symm).trans added
  have late : [FileCall.stat (asciiBytes "b")] = new := (List.cons.inj whole).2
  have other := each (.stat (asciiBytes "b")) (late ▸ List.mem_cons_self)
  rw [found] at other
  revert other
  decide

end GasSub.Guarantees.RenamedFile
