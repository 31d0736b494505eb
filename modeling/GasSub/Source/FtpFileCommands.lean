import GasSub.Source.FtpEffects

/-!
# FTP commands on files

What RNFR, RNTO and MKD do once their paths are joined, and when the joining
stays inside the memory it was given. The two paths of RNTO share one block: the
new path may run into the half of the old one.
-/
namespace GasSub.Source.Hvsftpd
open GasSub.Library.CharArray

variable {φ : Type} {fs : FileSystem φ} {env : Surroundings} {m : Machine φ}
  {param : List INT8U} {block : List INT8U}

/-- A path of a command without `root_dir`. -/
def Session.nameUnder (s : Session) (param : Path) : Path :=
  commandTarget [] s.currentDir.text param

theorem target_eq_append {s : Session} (rooted : s.Rooted) (param : Path) :
    s.target param = nandDir ++ s.nameUnder param := target_eq rooted param

theorem nameUnder_head (s : Session) (param : Path) :
    s.nameUnder param = [] ∨ (s.nameUnder param).head? = some slash :=
  joinPath_head (joinPath_head (Or.inl rfl) _) _

theorem nulFree_nameUnder (s : Session) (free : 0 ∉ param) : 0 ∉ s.nameUnder param := by
  have directory := notMem_joinPath (by decide) List.not_mem_nil s.currentDir.holds.free
  exact notMem_joinPath (by decide) directory free

/-! ### RNFR -/

theorem rnfrHandler_eq (fs : FileSystem φ) (rooted : m.session.Rooted) (free : 0 ∉ param)
    (short : param.length ≤ maxPathLen) (given : env.malloc maxPathLen = some block)
    (fits : PathsFit maxPathLen nandDir m.session.currentDir.text param) :
    rnfrHandler fs env m param = some (
      if m.finds fs (m.session.target param) fun _ => true then
        sessionResponse
          { m.call (.stat (m.session.target param)) with
            session := { m.session with
              renamingPath := m.session.renamingPath.copy (m.session.nameUnder param) } }
          "350 File exists, ready for destination name."
      else
        sessionFormatResponse (m.call (.stat (m.session.target param)))
          "550 File '%s': no such file or directory." [param], .ok) := by
  unfold rnfrHandler
  obtain ⟨out, rewritten, made⟩ := atPath_fits rooted free short (Nat.le_refl _) given fits
  have name : text? 0 (out.drop m.session.rootDir.text.length) =
      some (m.session.nameUnder param) := by
    have holds := rewritten.holds
    rw [target_eq_append rooted] at holds
    rw [rooted]
    exact text?_of_holds holds.drop
  rw [made]
  dsimp only
  split
  · have same : (m.call (.stat (m.session.target param))).session = m.session := rfl
    rw [same, name]
    rfl
  · rfl

/-! ### RNTO -/

theorem calls_perform {call : FileCall} {outcome : φ × Bool} {done failed : String}
    {doneArgs failedArgs : List (List INT8U)} :
    (m.perform call outcome (sessionFormatResponse · done doneArgs)
      (sessionFormatResponse · failed failedArgs)).calls = m.calls ++ [call] := by
  unfold Machine.perform
  dsimp only
  split
  · rfl
  · rfl

theorem calls_renameAt {oldName : List INT8U} {oldPath path : Path} :
    (renameAt fs m oldName param oldPath path).calls = m.calls ++
      if m.finds fs oldPath fun _ => true then [.stat oldPath, .rename oldPath path]
      else [.stat oldPath] := by
  unfold renameAt
  dsimp only
  split
  · rw [calls_perform, Machine.call, List.append_assoc]
    rfl
  · rfl

theorem files_renameAt {oldName : List INT8U} {oldPath path : Path}
    (missing : m.finds fs oldPath (fun _ => true) = false) :
    (renameAt fs m oldName param oldPath path).files = m.files := by
  unfold renameAt
  rw [missing]
  rfl

/-- The old path fits its half of the block. -/
def OldPathFits (s : Session) : Prop :=
  (appendPath nandDir s.renamingPath.text).length < maxPathLen

theorem oldPath_fits {s : Session} (rooted : s.Rooted) {half : List INT8U}
    (length : half.length = maxPathLen) (fits : OldPathFits s) :
    ∃ out l, makePath (some s.rootDir.text) s.renamingPath.text half maxPathLen = some (out, l) ∧
      Holds 0 out (joinPath nandDir s.renamingPath.text) ∧ out.length = maxPathLen ∧
      out[127]? = some 0 := by
  rw [rooted]
  obtain ⟨copied, copiedEq, first, last⟩ := makePath_root (k := maxPathLen)
    s.renamingPath.text nandDir_free (by decide) (Nat.le_of_eq length.symm) (Nat.le_refl _)
  have copiedLength : copied.length = maxPathLen := first.length.trans length
  obtain ⟨out, outEq, second⟩ := makePath_inPlace first.holds (by decide)
    s.renamingPath.holds.free (by decide)
    (Nat.le_trans (length_trimStart_le _) s.renamingPath.length_text_le)
    (Nat.le_of_eq copiedLength.symm) fits
  refine ⟨out, _, copiedEq.trans outEq, second.holds, second.length.trans copiedLength, ?_⟩
  exact (makePath_closed (n := 127) copiedLength last outEq).2

theorem oldPath_none {s : Session} (rooted : s.Rooted) {half : List INT8U}
    (length : half.length = maxPathLen) (outside : ¬ OldPathFits s) :
    makePath (some s.rootDir.text) s.renamingPath.text half maxPathLen = none := by
  rw [rooted]
  obtain ⟨copied, copiedEq, first, -⟩ := makePath_root (k := maxPathLen)
    s.renamingPath.text nandDir_free (by decide) (Nat.le_of_eq length.symm) (Nat.le_refl _)
  have copiedLength : copied.length = maxPathLen := first.length.trans length
  rw [copiedEq]
  refine makePath_inPlace_none first.holds (by decide)
    (Nat.le_trans (length_trimStart_le _) s.renamingPath.length_text_le) (Or.inr ?_)
  rw [copiedLength]
  exact Nat.le_of_not_lt outside

/-- Inside the whole block RNTO has a result; the old path is what it was joined to as
long as the new one stays in its half, and else the end of the new one. -/
theorem rntoHandler_eq (fs : FileSystem φ) (rooted : m.session.Rooted) (free : 0 ∉ param)
    (short : param.length ≤ maxPathLen) (given : env.malloc (maxPathLen + maxPathLen) = some block)
    (oldFits : OldPathFits m.session)
    (fits : PathsFit (maxPathLen + maxPathLen) nandDir m.session.currentDir.text param) :
    ∃ oldPath, rntoHandler fs env m param =
        some (renameAt fs m m.session.renamingPath.text param oldPath (m.session.target param),
          .ok) ∧
      (PathsFit maxPathLen nandDir m.session.currentDir.text param →
        oldPath = joinPath nandDir m.session.renamingPath.text) ∧
      (¬ PathsFit maxPathLen nandDir m.session.currentDir.text param →
        oldPath = (m.session.target param).drop maxPathLen) := by
  have length := env.malloc_size _ block given
  have half : (block.drop maxPathLen).length = maxPathLen := by
    rw [List.length_drop]
    omega
  have front : (block.take maxPathLen).length = maxPathLen := by
    rw [List.length_take]
    omega
  obtain ⟨old, l, oldEq, oldHolds, oldLength, oldLast⟩ := oldPath_fits rooted half oldFits
  have whole : (block.take maxPathLen ++ old).length = maxPathLen + maxPathLen := by
    rw [List.length_append, front, oldLength]
  have last : (block.take maxPathLen ++ old)[255]? = some 0 := by
    rw [List.getElem?_append_right (by rw [front]; decide), front]
    exact oldLast
  obtain ⟨out, made, rewritten⟩ := commandPath_session rooted free short (by decide)
    (Nat.le_of_eq whole.symm) fits
  have outLength : out.length = maxPathLen + maxPathLen := rewritten.length.trans whole
  have outLast : out[255]? = some 0 := by
    refine commandPath_closed (n := 255) ?_ ?_ whole (by decide) last made
    · rw [rooted]
      decide
    · rw [rooted]
      decide
  have occurs : 0 ∈ out.drop maxPathLen := by
    have place : (out.drop maxPathLen)[127]? = some 0 := by
      rw [List.getElem?_drop]
      exact outLast
    exact List.mem_of_getElem? place
  have read := text?_of_holds (holds_takeWhile occurs)
  refine ⟨(out.drop maxPathLen).takeWhile (· ≠ 0), ?_, ?_, ?_⟩
  · unfold rntoHandler
    simp only [given, Option.bind_eq_bind, oldEq, Option.bind_some, made, read,
      text?_of_holds rewritten.holds]
    rfl
  · intro inHalf
    obtain ⟨out', made', rewritten'⟩ := commandPath_session rooted free short (Nat.le_refl _)
      (by rw [whole]; decide) inHalf
    obtain rfl : out = out' := Option.some.inj (made.symm.trans made')
    have untouched : out.drop maxPathLen = old :=
      rewritten'.behind.trans (List.drop_left' front)
    rw [untouched] at read ⊢
    exact Option.some.inj (read.symm.trans (text?_of_holds oldHolds))
  · intro pastHalf
    have behind := commandPath_session_overrun rooted free short (Nat.le_refl _)
      (Nat.le_of_eq whole.symm) fits pastHalf made
    exact Option.some.inj (read.symm.trans (text?_of_holds behind))

theorem rntoHandler_none (rooted : m.session.Rooted) (short : param.length ≤ maxPathLen)
    (given : env.malloc (maxPathLen + maxPathLen) = some block)
    (outside : ¬ (OldPathFits m.session ∧
      PathsFit (maxPathLen + maxPathLen) nandDir m.session.currentDir.text param)) :
    rntoHandler fs env m param = none := by
  have length := env.malloc_size _ block given
  have half : (block.drop maxPathLen).length = maxPathLen := by
    rw [List.length_drop]
    omega
  unfold rntoHandler
  simp only [given, Option.bind_eq_bind]
  by_cases oldFits : OldPathFits m.session
  · obtain ⟨old, l, oldEq, -, oldLength, -⟩ := oldPath_fits rooted half oldFits
    have whole : (block.take maxPathLen ++ old).length = maxPathLen + maxPathLen := by
      rw [List.length_append, List.length_take, oldLength]
      omega
    have failed : commandPath m.session.rootDir.text m.session.currentDir.text param
        (block.take maxPathLen ++ old) = none := commandPath_session_none rooted short
      (by rw [whole]; decide) (by rw [whole]; exact fun fits => outside ⟨oldFits, fits⟩)
    simp only [oldEq, Option.bind_some, failed, Option.bind_none]
  · simp only [oldPath_none rooted half oldFits, Option.bind_none]

/-! ### MKD -/

def Session.mkdTarget (s : Session) (param : Path) : Path :=
  if param.head? = some slash then joinPath nandDir param else s.target param

def MkdFits (s : Session) (param : Path) : Prop :=
  if param.head? = some slash then (appendPath nandDir param).length < maxPathLen
  else PathsFit maxPathLen nandDir s.currentDir.text param

theorem mkdPath_fits {s : Session} (rooted : s.Rooted) (free : 0 ∉ param)
    (short : param.length ≤ maxPathLen) (length : block.length = maxPathLen)
    (fits : MkdFits s param) :
    ∃ out, mkdPath s param block = some out ∧ Holds 0 out (s.mkdTarget param) := by
  unfold MkdFits at fits
  unfold mkdPath Session.mkdTarget
  split
  · case isTrue absolute =>
    rw [if_pos absolute] at fits
    obtain ⟨copied, copiedEq, first, -⟩ := makePath_root (k := maxPathLen) param
      nandDir_free (by decide) (Nat.le_of_eq length.symm) (Nat.le_refl _)
    obtain ⟨out, outEq, second⟩ := makePath_inPlace first.holds (by decide) free (by decide)
      (Nat.le_trans (length_trimStart_le _) short)
      (Nat.le_of_eq (first.length.trans length).symm) fits
    refine ⟨out, ?_, second.holds⟩
    rw [rooted, copiedEq, outEq]
    rfl
  · case isFalse relative =>
    rw [if_neg relative] at fits
    obtain ⟨out, made, rewritten⟩ := commandPath_session rooted free short (Nat.le_refl _)
      (Nat.le_of_eq length.symm) fits
    exact ⟨out, made, rewritten.holds⟩

theorem mkdPath_none {s : Session} (rooted : s.Rooted) (short : param.length ≤ maxPathLen)
    (length : block.length = maxPathLen) (outside : ¬ MkdFits s param) :
    mkdPath s param block = none := by
  unfold MkdFits at outside
  unfold mkdPath
  split
  · case isTrue absolute =>
    rw [if_pos absolute] at outside
    obtain ⟨copied, copiedEq, first, -⟩ := makePath_root (k := maxPathLen) param
      nandDir_free (by decide) (Nat.le_of_eq length.symm) (Nat.le_refl _)
    have failed := makePath_inPlace_none first.holds (by decide)
      (Nat.le_trans (length_trimStart_le _) short)
      (Or.inr (by rw [first.length, length]; exact Nat.le_of_not_lt outside))
    rw [rooted, copiedEq, failed]
    rfl
  · case isFalse relative =>
    rw [if_neg relative] at outside
    exact commandPath_session_none rooted short (Nat.le_of_eq length.symm)
      (length.symm ▸ outside)

theorem mkdHandler_eq (fs : FileSystem φ) (rooted : m.session.Rooted) (free : 0 ∉ param)
    (short : param.length ≤ maxPathLen) (given : env.malloc maxPathLen = some block)
    (fits : MkdFits m.session param) :
    mkdHandler fs env m param = some (createAt fs m param (m.session.mkdTarget param), .ok) := by
  obtain ⟨out, made, holds⟩ := mkdPath_fits rooted free short (env.malloc_size _ block given) fits
  unfold mkdHandler
  simp only [given, made, Option.bind_eq_bind, Option.bind_some, text?_of_holds holds]
  rfl

/-! ### Staying inside memory -/

/-- The condition under which a handler stays inside the memory it was given. -/
def FitsMemory (env : Surroundings) (s : Session) (param : Path) : FtpHandler → Prop
  | .cwd =>
    (turnBackslashes param).head? = some slash ∨ (s.currentDir.text ≠ [] ∧
      (appendPath s.currentDir.text (turnBackslashes param)).length ≤ maxPathLen)
  | .dele | .rmd | .rnfr => FitsBlock env maxPathLen s param
  | .rnto => (env.malloc (maxPathLen + maxPathLen)).isSome → OldPathFits s ∧
      PathsFit (maxPathLen + maxPathLen) nandDir s.currentDir.text param
  | .mkd => (env.malloc maxPathLen).isSome → MkdFits s param
  | _ => True

theorem atPath_defined_iff (rooted : m.session.Rooted) (free : 0 ∉ param)
    (short : param.length ≤ maxPathLen) {size : Nat} (enough : maxPathLen ≤ size)
    {failed : String} {act : List INT8U → Path → Option (Machine φ)}
    (acts : ∀ out, Holds 0 out (m.session.target param) →
      (act out (m.session.target param)).isSome) :
    (atPath env m size param failed act).isSome ↔ FitsBlock env size m.session param := by
  constructor
  · intro defined
    by_contra outside
    rw [atPath_none rooted short enough outside] at defined
    cases defined
  · intro fits
    cases given : env.malloc size with
    | none =>
      unfold atPath
      rw [given]
      rfl
    | some block =>
      obtain ⟨out, rewritten, made⟩ := atPath_fits rooted free short enough given
        (fits (by rw [given]; rfl))
      rw [made]
      exact acts out rewritten.holds

theorem cwdHandler_defined_iff (free : 0 ∉ turnBackslashes param)
    (short : (turnBackslashes param).length ≤ maxPathLen) :
    (cwdHandler m param).isSome ↔ FitsMemory env m.session param .cwd := by
  have whole := Nat.le_trans (length_trimStart_le (turnBackslashes param)) short
  unfold cwdHandler cwdDir FitsMemory
  rw [Option.isSome_map]
  split
  · case isTrue absolute => exact ⟨fun _ => Or.inl absolute, fun _ => rfl⟩
  · case isFalse relative =>
    rw [or_iff_right relative]
    constructor
    · intro defined
      by_contra outside
      rw [not_and_or, not_ne_iff, Nat.not_le] at outside
      rw [makePathIn_none (by decide) whole outside] at defined
      cases defined
    · rintro ⟨filled, room⟩
      obtain ⟨out, made, -⟩ := makePathIn_fits filled free (by decide) whole room
      rw [made]
      rfl

/-- A handler has a result exactly when it stays inside memory. -/
theorem handle_defined_iff (fs : FileSystem φ) (env : Surroundings) (rooted : m.session.Rooted)
    (free : 0 ∉ param) (short : param.length ≤ maxPathLen) (handler : FtpHandler) :
    (handle fs env m param handler).isSome ↔ FitsMemory env m.session param handler := by
  cases handler with
  | cwd =>
    refine cwdHandler_defined_iff (turnBackslashes_free free) ?_
    rwa [length_turnBackslashes]
  | dele | rmd =>
    unfold handle
    refine Iff.trans (Bool.eq_iff_iff.mp Option.isSome_map)
      (atPath_defined_iff rooted free short (Nat.le_refl _) fun out holds => ?_)
    rfl
  | rnfr =>
    unfold handle
    refine Iff.trans (Bool.eq_iff_iff.mp Option.isSome_map)
      (atPath_defined_iff rooted free short (Nat.le_refl _) fun out holds => ?_)
    rw [target_eq_append rooted] at holds
    dsimp only
    split
    · have same : (m.call (.stat (m.session.target param))).session = m.session := rfl
      rw [same, rooted, text?_of_holds holds.drop]
      rfl
    · rfl
  | rnto =>
    unfold FitsMemory
    cases given : env.malloc (maxPathLen + maxPathLen) with
    | none =>
      unfold handle rntoHandler
      rw [given]
      exact ⟨fun _ absent => absurd absent Bool.false_ne_true, fun _ => rfl⟩
    | some block =>
      constructor
      · intro defined _
        by_contra outside
        unfold handle at defined
        rw [rntoHandler_none rooted short given outside] at defined
        cases defined
      · intro fits
        obtain ⟨oldFits, newFits⟩ := fits rfl
        obtain ⟨oldPath, made, -⟩ :=
          rntoHandler_eq fs rooted free short given oldFits newFits
        unfold handle
        rw [made]
        rfl
  | mkd =>
    unfold FitsMemory
    cases given : env.malloc maxPathLen with
    | none =>
      unfold handle mkdHandler
      rw [given]
      exact ⟨fun _ absent => absurd absent Bool.false_ne_true, fun _ => rfl⟩
    | some block =>
      constructor
      · intro defined _
        by_contra outside
        unfold handle mkdHandler at defined
        simp only [given, mkdPath_none rooted short (env.malloc_size _ block given) outside,
          Option.bind_eq_bind, Option.bind_none] at defined
        cases defined
      · intro fits
        unfold handle
        rw [mkdHandler_eq fs rooted free short given (fits rfl)]
        rfl
  | _ => exact ⟨fun _ => trivial, fun _ => rfl⟩

/-- So has the command in the buffer of a session. -/
theorem cmdDisptach_defined_iff (fs : FileSystem φ) (env : Surroundings) (rooted : m.session.Rooted) :
    (Hvsftpd.cmdDisptach fs env m.session.cmdBuf.text m).isSome ↔
      ∀ handler, cmdHandler m.session.cmdBuf.text = some handler →
        FitsMemory env m.session m.session.commandLine.param handler := by
  cases names : cmdHandler m.session.cmdBuf.text with
  | none =>
    unfold Hvsftpd.cmdDisptach
    rw [names]
    exact iff_of_true rfl nofun
  | some handler =>
    rw [cmdDisptach_handler names]
    simp only [Option.some.injEq, forall_eq']
    exact handle_defined_iff fs env rooted m.session.commandLine.nulFree_param
      m.session.commandLine.length_param handler

end GasSub.Source.Hvsftpd
