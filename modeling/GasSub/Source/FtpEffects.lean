import GasSub.Source.FtpHandlers

/-!
# What the FTP handlers leave

Facts about the handlers as a whole: the paths they join under `root_dir`, and
that every handler but those that open a data connection replies once and leaves
the sockets alone.
-/
namespace GasSub.Source.Hvsftpd
open GasSub.Library.CharArray

/-! ### Command lines -/

/-- A line as a command buffer holds it. -/
structure CommandLine where
  line : List INT8U
  nulFree : 0 ∉ line
  length : line.length ≤ maxRequestLen

def Session.commandLine (s : Session) : CommandLine :=
  ⟨s.cmdBuf.text, s.cmdBuf.holds.free, s.cmdBuf.length_text_le⟩

def CommandLine.param (c : CommandLine) : Path := cmdParam c.line

theorem CommandLine.length_param (c : CommandLine) : c.param.length ≤ maxPathLen := by
  unfold CommandLine.param cmdParam
  rw [List.length_drop]
  have cut := (List.dropWhile_sublist (p := (· ≠ 0x20)) (l := c.line)).length_le
  have length : c.line.length ≤ maxPathLen := c.length
  omega

theorem CommandLine.nulFree_param (c : CommandLine) : 0 ∉ c.param :=
  fun member => c.nulFree ((List.dropWhile_sublist _).subset (List.mem_of_mem_drop member))

theorem turnBackslashes_free {param : List INT8U} (free : 0 ∉ param) : 0 ∉ turnBackslashes param := by
  intro member
  obtain ⟨c, inside, turned⟩ := List.mem_map.mp member
  split at turned
  · exact absurd turned (by decide)
  · exact free (turned ▸ inside)

theorem length_turnBackslashes (param : List INT8U) :
    (turnBackslashes param).length = param.length := List.length_map _

/-! ### Paths under `root_dir` -/

variable {φ : Type} {fs : FileSystem φ} {env : Surroundings} {m m' : Machine φ}
  {param : List INT8U} {status : HfStatus}

def nandDir : Path := asciiBytes "/nand"

/-- `root_dir` as `sockAccept` sets it; no handler changes it. -/
def Session.Rooted (s : Session) : Prop := s.rootDir.text = nandDir

theorem rooted_accepted (sock : Slot) : (Session.accepted sock).Rooted :=
  Terminated.text_write (n := maxPathLen) _ (by decide)

theorem nandDir_free : 0 ∉ nandDir := by decide

theorem trimEnd_nandDir : trimEnd nandDir = nandDir := by decide

def Session.target (s : Session) (param : Path) : Path :=
  commandTarget s.rootDir.text s.currentDir.text param

/-- What the path of a command adds to `root_dir`. -/
theorem target_eq {s : Session} (rooted : s.Rooted) (param : Path) :
    s.target param = nandDir ++ commandTarget [] s.currentDir.text param := by
  unfold Session.target
  rw [rooted]
  exact commandTarget_of_trimmed trimEnd_nandDir _ _

theorem commandPath_session {s : Session} (rooted : s.Rooted) (free : 0 ∉ param)
    (short : param.length ≤ maxPathLen) {k : Nat} (enough : maxPathLen ≤ k) {path : List INT8U}
    (inside : k ≤ path.length) (fits : PathsFit k nandDir s.currentDir.text param) :
    ∃ out, commandPath s.rootDir.text s.currentDir.text param path = some out ∧
      Rewritten k path out (s.target param) := by
  unfold Session.target
  rw [rooted]
  exact commandPath_fits (by decide) (by decide) (by decide) s.currentDir.holds.free
    s.currentDir.length_text_le short free enough inside fits

theorem commandPath_session_overrun {s : Session} (rooted : s.Rooted) (free : 0 ∉ param)
    (short : param.length ≤ maxPathLen) {k n : Nat} (enough : maxPathLen ≤ n)
    {path out : List INT8U} (inside : k ≤ path.length)
    (fits : PathsFit k nandDir s.currentDir.text param)
    (outside : ¬ PathsFit n nandDir s.currentDir.text param)
    (made : commandPath s.rootDir.text s.currentDir.text param path = some out) :
    Holds 0 (out.drop n) ((s.target param).drop n) := by
  unfold Session.target
  rw [rooted] at made ⊢
  exact commandPath_overrun (by decide) (by decide) (by decide) s.currentDir.holds.free
    s.currentDir.length_text_le short free enough inside fits outside made

theorem commandPath_session_none {s : Session} (rooted : s.Rooted)
    (short : param.length ≤ maxPathLen) {path : List INT8U} (enough : maxPathLen ≤ path.length)
    (outside : ¬ PathsFit path.length nandDir s.currentDir.text param) :
    commandPath s.rootDir.text s.currentDir.text param path = none := by
  rw [rooted]
  exact commandPath_none (by decide) (by decide) (by decide) s.currentDir.holds.free
    s.currentDir.length_text_le short enough outside

/-- Given memory, the paths fit a block of `size` bytes. -/
def FitsBlock (env : Surroundings) (size : Nat) (s : Session) (param : Path) : Prop :=
  (env.malloc size).isSome → PathsFit size nandDir s.currentDir.text param

theorem atPath_fits (rooted : m.session.Rooted) (free : 0 ∉ param)
    (short : param.length ≤ maxPathLen) {size : Nat} (enough : maxPathLen ≤ size)
    {block : List INT8U} (given : env.malloc size = some block)
    (fits : PathsFit size nandDir m.session.currentDir.text param) :
    ∃ out, Rewritten size block out (m.session.target param) ∧
      ∀ (failed : String) (act : List INT8U → Path → Option (Machine φ)),
        atPath env m size param failed act = act out (m.session.target param) := by
  have length := env.malloc_size size block given
  obtain ⟨out, made, rewritten⟩ := commandPath_session rooted free short enough
    (Nat.le_of_eq length.symm) fits
  refine ⟨out, rewritten, fun failed act => ?_⟩
  unfold atPath
  simp only [given, made, Option.bind_eq_bind, Option.bind_some, text?_of_holds rewritten.holds]

theorem atPath_none (rooted : m.session.Rooted) (short : param.length ≤ maxPathLen) {size : Nat}
    (enough : maxPathLen ≤ size) {failed : String}
    (outside : ¬ FitsBlock env size m.session param)
    (act : List INT8U → Path → Option (Machine φ)) : atPath env m size param failed act = none := by
  unfold FitsBlock at outside
  unfold atPath
  cases given : env.malloc size with
  | none =>
    rw [given] at outside
    exact absurd (fun absent => absurd absent Bool.false_ne_true) outside
  | some block =>
    have length := env.malloc_size size block given
    rw [given] at outside
    have exceeds : ¬ PathsFit block.length nandDir m.session.currentDir.text param :=
      length.symm ▸ fun fits => outside fun _ => fits
    simp only [commandPath_session_none rooted short (length.symm ▸ enough) exceeds,
      Option.bind_eq_bind, Option.bind_none]

/-! ### Sockets and replies -/

/-- One reply more, the sockets and `root_dir` as before, and so is `renaming` if `keeps`. -/
structure Answered (keeps : Prop) (m m' : Machine φ) : Prop where
  replied : ∃ reply, m'.replies = m.replies ++ [reply]
  sockList : m'.sockList = m.sockList
  self : m'.self = m.self
  cmdSock : m'.session.cmdSock = m.session.cmdSock
  dataSock : m'.session.dataSock = m.session.dataSock
  rootDir : m'.session.rootDir = m.session.rootDir
  renamingPath : keeps → m'.session.renamingPath = m.session.renamingPath

variable {keeps : Prop}

theorem answered_response (m : Machine φ) (str : String) : Answered keeps m (sessionResponse m str) :=
  ⟨⟨_, rfl⟩, rfl, rfl, rfl, rfl, rfl, fun _ => rfl⟩

theorem answered_perform {call : FileCall} {outcome : φ × Bool} {done failed : String}
    {doneArgs failedArgs : List (List INT8U)} :
    Answered keeps m (m.perform call outcome (sessionFormatResponse · done doneArgs)
      (sessionFormatResponse · failed failedArgs)) := by
  unfold Machine.perform
  dsimp only
  split
  · exact ⟨⟨_, rfl⟩, rfl, rfl, rfl, rfl, rfl, fun _ => rfl⟩
  · exact ⟨⟨_, rfl⟩, rfl, rfl, rfl, rfl, rfl, fun _ => rfl⟩

/-- Calls made before do not matter. -/
theorem Answered.of_call {call : FileCall} (answered : Answered keeps (m.call call) m') :
    Answered keeps m m' :=
  ⟨answered.replied, answered.sockList, answered.self, answered.cmdSock, answered.dataSock,
    answered.rootDir, answered.renamingPath⟩

theorem answered_removeAt {wanted : Stat → Bool} {call : Path → FileCall}
    {remove : φ → Path → φ × Bool} {done failed missing : String} {path : Path} :
    Answered keeps m (removeAt fs m param wanted call remove done failed missing path) := by
  unfold removeAt
  dsimp only
  split
  · exact answered_perform.of_call
  · exact ⟨⟨_, rfl⟩, rfl, rfl, rfl, rfl, rfl, fun _ => rfl⟩

theorem answered_renameAt {oldName : List INT8U} {oldPath path : Path} :
    Answered keeps m (renameAt fs m oldName param oldPath path) := by
  unfold renameAt
  dsimp only
  split
  · exact answered_perform.of_call
  · exact ⟨⟨_, rfl⟩, rfl, rfl, rfl, rfl, rfl, fun _ => rfl⟩

theorem answered_createAt {path : Path} : Answered keeps m (createAt fs m param path) := by
  unfold createAt
  dsimp only
  split
  · exact ⟨⟨_, rfl⟩, rfl, rfl, rfl, rfl, rfl, fun _ => rfl⟩
  · exact answered_perform.of_call

theorem answered_atPath {size : Nat} {failed : String}
    {act : List INT8U → Path → Option (Machine φ)}
    (acts : ∀ block path, act block path = some m' → Answered keeps m m')
    (taken : atPath env m size param failed act = some m') : Answered keeps m m' := by
  unfold atPath at taken
  split at taken
  · cases taken
    exact answered_response m failed
  · simp only [Option.bind_eq_bind] at taken
    obtain ⟨block, -, taken⟩ := Option.bind_eq_some_iff.mp taken
    obtain ⟨path, -, taken⟩ := Option.bind_eq_some_iff.mp taken
    exact acts block path taken

theorem answered_map_ok {handled : Option (Machine φ)}
    (answered : ∀ m', handled = some m' → Answered keeps m m')
    (taken : handled.map (·, HfStatus.ok) = some (m', status)) :
    Answered keeps m m' ∧ status = .ok := by
  obtain ⟨out, made, same⟩ := Option.map_eq_some_iff.mp taken
  cases same
  exact ⟨answered m' made, rfl⟩

/-- The handlers whose reply may wait for a data connection. -/
def opensData : FtpHandler → Bool
  | .list | .retr | .stor => true
  | _ => false

theorem answered_type (m : Machine φ) (param : List INT8U) :
    Answered keeps m (typeHandler m param).1 ∧ (typeHandler m param).2 = .ok := by
  unfold typeHandler
  split
  · exact ⟨answered_response m _, rfl⟩
  · split
    · exact ⟨answered_response m _, rfl⟩
    · exact ⟨answered_response m _, rfl⟩

theorem answered_port (m : Machine φ) (param : List INT8U) :
    Answered keeps m (portHandler m param).1 ∧ (portHandler m param).2 = .ok := by
  unfold portHandler
  dsimp only
  split
  · exact ⟨⟨⟨_, rfl⟩, rfl, rfl, rfl, rfl, rfl, fun _ => rfl⟩, rfl⟩
  · exact ⟨answered_response m _, rfl⟩

theorem answered_cwd (taken : cwdHandler m param = some (m', status)) :
    Answered keeps m m' ∧ status = .ok := by
  obtain ⟨currentDir, -, same⟩ := Option.map_eq_some_iff.mp taken
  cases same
  exact ⟨⟨⟨_, rfl⟩, rfl, rfl, rfl, rfl, rfl, fun _ => rfl⟩, rfl⟩

theorem answered_rnfr (taken : rnfrHandler fs env m param = some (m', status)) :
    Answered False m m' ∧ status = .ok := by
  refine answered_map_ok (fun out made => answered_atPath (fun block path acts => ?_) made) taken
  dsimp only at acts
  split at acts
  · simp only [Option.bind_eq_bind] at acts
    obtain ⟨name, -, same⟩ := Option.bind_eq_some_iff.mp acts
    cases same
    exact ⟨⟨_, rfl⟩, rfl, rfl, rfl, rfl, rfl, False.elim⟩
  · cases acts
    exact ⟨⟨_, rfl⟩, rfl, rfl, rfl, rfl, rfl, fun _ => rfl⟩

theorem answered_rnto (taken : rntoHandler fs env m param = some (m', status)) :
    Answered keeps m m' ∧ status = .ok := by
  unfold rntoHandler at taken
  split at taken
  · cases taken
    exact ⟨answered_response m _, rfl⟩
  · simp only [Option.bind_eq_bind] at taken
    obtain ⟨oldBlock, -, taken⟩ := Option.bind_eq_some_iff.mp taken
    obtain ⟨block, -, taken⟩ := Option.bind_eq_some_iff.mp taken
    obtain ⟨oldPath, -, taken⟩ := Option.bind_eq_some_iff.mp taken
    obtain ⟨path, -, taken⟩ := Option.bind_eq_some_iff.mp taken
    cases taken
    exact ⟨answered_renameAt, rfl⟩

theorem answered_mkd (taken : mkdHandler fs env m param = some (m', status)) :
    Answered keeps m m' ∧ status = .ok := by
  unfold mkdHandler at taken
  split at taken
  · cases taken
    exact ⟨answered_response m _, rfl⟩
  · simp only [Option.bind_eq_bind] at taken
    obtain ⟨block, -, taken⟩ := Option.bind_eq_some_iff.mp taken
    obtain ⟨path, -, taken⟩ := Option.bind_eq_some_iff.mp taken
    cases taken
    exact ⟨answered_createAt, rfl⟩

/-- Every other handler that has a result replies, and returns what the table of
statuses says. -/
theorem handle_answered {handler : FtpHandler} (silent : opensData handler = false)
    (taken : handle fs env m param handler = some (m', status)) :
    Answered (handler ≠ .rnfr) m m' ∧ status = handler.status := by
  cases handler with
  | list | retr | stor => exact absurd silent Bool.noConfusion
  | noop | syst | user | pass | quit =>
    cases taken
    exact ⟨answered_response m _, rfl⟩
  | pwd | fmt =>
    cases taken
    exact ⟨⟨⟨_, rfl⟩, rfl, rfl, rfl, rfl, rfl, fun _ => rfl⟩, rfl⟩
  | type =>
    obtain ⟨answered, ok⟩ := answered_type m param
    rw [Option.some.inj taken] at answered ok
    exact ⟨answered, ok⟩
  | port =>
    obtain ⟨answered, ok⟩ := answered_port m param
    rw [Option.some.inj taken] at answered ok
    exact ⟨answered, ok⟩
  | cwd => exact answered_cwd taken
  | dele | rmd =>
    refine answered_map_ok (fun out made => answered_atPath (fun block path acts => ?_) made) taken
    cases acts
    exact answered_removeAt
  | rnfr =>
    obtain ⟨answered, ok⟩ := answered_rnfr taken
    exact ⟨⟨answered.replied, answered.sockList, answered.self, answered.cmdSock,
      answered.dataSock, answered.rootDir, fun differs => absurd rfl differs⟩, ok⟩
  | rnto => exact answered_rnto taken
  | mkd => exact answered_mkd taken

/-! ### Sockets of data connections -/

theorem socketAlloc_some {socks socks' : SockList} {i : Slot}
    (allocated : socketAlloc socks = some (i, socks')) :
    (socks i).fd = none ∧ socks' = Function.update socks i Hfsocket.cleared := by
  obtain ⟨j, found, same⟩ := Option.map_eq_some_iff.mp allocated
  cases same
  have free := List.find?_some found
  exact ⟨of_decide_eq_true free, rfl⟩

theorem socketAlloc_none_iff {socks : SockList} :
    socketAlloc socks = none ↔ ∀ i, (socks i).fd ≠ none := by
  unfold socketAlloc
  rw [Option.map_eq_none_iff, List.find?_eq_none]
  constructor
  · intro full i free
    exact full i (List.mem_finRange i) (decide_eq_true free)
  · intro full i _ free
    exact full i (of_decide_eq_true free)

/-- A data connection can be had: a socket is free, and lwIP gives a descriptor and connects it. -/
def Connects (env : Surroundings) (addr : List INT8U) (port : INT16U) (socks : SockList) : Prop :=
  (∃ i, (socks i).fd = none) ∧ env.socket ≠ none ∧ env.setNonblock = true ∧
    env.connect addr port = true

theorem socketClient_connects {addr : List INT8U} {port : INT16U} {socks : SockList}
    (connects : Connects env addr port socks) :
    ∃ i fd, (socks i).fd = none ∧ socketClient env addr port socks = (some i,
      Function.update socks i { Hfsocket.cleared with fd := some fd, state := .connecting }) := by
  obtain ⟨⟨free, isFree⟩, socket, nonblock, connect⟩ := connects
  obtain ⟨fd, opened⟩ := Option.ne_none_iff_exists'.mp socket
  cases allocated : socketAlloc socks with
  | none => exact absurd isFree (socketAlloc_none_iff.mp allocated free)
  | some given =>
    obtain ⟨i, cleared⟩ := given
    obtain ⟨isFree, rfl⟩ := socketAlloc_some allocated
    refine ⟨i, fd, isFree, ?_⟩
    unfold socketClient
    simp only [allocated, opened, nonblock, connect, and_self, if_true, Function.update_self,
      Function.update_idem]

/-- Without one, no socket is taken. -/
theorem socketClient_refused {addr : List INT8U} {port : INT16U} {socks : SockList}
    (refused : ¬ Connects env addr port socks) :
    ∃ socks', socketClient env addr port socks = (none, socks') ∧
      ∀ i, socks' i = socks i ∨ ((socks i).fd = none ∧ (socks' i).fd = none) := by
  unfold socketClient
  cases allocated : socketAlloc socks with
  | none => exact ⟨socks, rfl, fun i => Or.inl rfl⟩
  | some given =>
    obtain ⟨i, cleared⟩ := given
    obtain ⟨isFree, rfl⟩ := socketAlloc_some allocated
    have untaken : ∀ j, Function.update socks i Hfsocket.cleared j = socks j ∨
        ((socks j).fd = none ∧ (Function.update socks i Hfsocket.cleared j).fd = none) := by
      intro j
      by_cases same : j = i
      · subst same
        rw [Function.update_self]
        exact Or.inr ⟨isFree, rfl⟩
      · exact Or.inl (Function.update_of_ne same _ _)
    cases opened : env.socket with
    | none => exact ⟨_, rfl, untaken⟩
    | some fd =>
      have failed : ¬ (env.setNonblock = true ∧ env.connect addr port = true) := fun both =>
        refused ⟨⟨i, isFree⟩, by rw [opened]; exact Option.some_ne_none fd, both.1, both.2⟩
      simp only [if_neg failed]
      exact ⟨_, rfl, untaken⟩

/-- A data connection on slot `i`, announced to the client. -/
structure Opened (m m' : Machine φ) (i : Slot) : Prop where
  replied : m'.replies = m.replies ++ [.response "150 Opening data connection."]
  free : (m.sockList i).fd = none
  taken : (m'.sockList i).fd ≠ none
  userData : (m'.sockList i).userData = some m.self
  others : ∀ j, j ≠ i → m'.sockList j = m.sockList j
  self : m'.self = m.self
  cmdSock : m'.session.cmdSock = m.session.cmdSock
  dataSock : m'.session.dataSock = some i
  rootDir : m'.session.rootDir = m.session.rootDir
  renamingPath : m'.session.renamingPath = m.session.renamingPath

/-- No data connection and no reply. -/
structure Unopened (m m' : Machine φ) : Prop where
  silent : m'.replies = m.replies
  untaken : ∀ i, m'.sockList i = m.sockList i ∨
    ((m.sockList i).fd = none ∧ (m'.sockList i).fd = none)
  self : m'.self = m.self
  cmdSock : m'.session.cmdSock = m.session.cmdSock
  dataSock : m'.session.dataSock = m.session.dataSock
  rootDir : m'.session.rootDir = m.session.rootDir
  renamingPath : m'.session.renamingPath = m.session.renamingPath

def ConnectsFor (env : Surroundings) (m : Machine φ) : Prop :=
  Connects env m.session.addr m.session.port m.sockList

theorem sessionOpendata_opened {type : Char} (known : type = 'r' ∨ type = 'w')
    {callback : SessionCallback} (connects : ConnectsFor env m) :
    ∃ i, Opened m (sessionOpendata env m type callback param).1 i := by
  have valid : ¬ (type ≠ 'r' ∧ type ≠ 'w') := fun both => known.elim both.1 both.2
  obtain ⟨i, fd, free, client⟩ := socketClient_connects connects
  refine ⟨i, ?_⟩
  unfold sessionOpendata
  simp only [if_neg valid, client, Function.update_self, Function.update_idem]
  refine ⟨rfl, free, ?_, ?_, fun j other => Function.update_of_ne other _ _, rfl, rfl, rfl, rfl, rfl⟩
  · simp only [sessionResponse, Function.update_self, dataSocket]
    exact Option.some_ne_none fd
  · simp only [sessionResponse, Function.update_self, dataSocket]

theorem sessionOpendata_unopened {type : Char} {callback : SessionCallback}
    (refused : ¬ ConnectsFor env m) :
    Unopened m (sessionOpendata env m type callback param).1 := by
  obtain ⟨socks, client, untaken⟩ := socketClient_refused refused
  unfold sessionOpendata
  split
  · exact ⟨rfl, fun i => Or.inl rfl, rfl, rfl, rfl, rfl, rfl⟩
  · simp only [client]
    exact ⟨rfl, untaken, rfl, rfl, rfl, rfl, rfl⟩

/-- LIST, NLST, RETR and STOR open a data connection where one can be had, and are
silent where not. -/
theorem handle_opens (fs : FileSystem φ) (env : Surroundings) (m : Machine φ) (param : List INT8U)
    {handler : FtpHandler} (opens : opensData handler = true) :
    ∃ m', handle fs env m param handler = some (m', handler.status) ∧
      (ConnectsFor env m → ∃ i, Opened m m' i) ∧ (¬ ConnectsFor env m → Unopened m m') := by
  cases handler with
  | list =>
    exact ⟨_, rfl, sessionOpendata_opened (Or.inr rfl), sessionOpendata_unopened⟩
  | retr =>
    exact ⟨_, rfl, sessionOpendata_opened (Or.inr rfl), sessionOpendata_unopened⟩
  | stor =>
    exact ⟨_, rfl, sessionOpendata_opened (Or.inl rfl), sessionOpendata_unopened⟩
  | _ => exact absurd opens Bool.noConfusion

end GasSub.Source.Hvsftpd
