import GasSub.Source.FtpEffects

/-!
# What commands and transfers do to the sockets

A command takes a socket only for a data connection, and a callback of a data
connection always closes it. Everything else leaves each socket with the session
it belongs to.
-/
namespace GasSub.Source.Hvsftpd
open GasSub.Library.CharArray

variable {φ : Type} {fs : FileSystem φ} {env : Surroundings}

/-- The session of a socket in use; `NULL` is nobody's. -/
def Hfsocket.owner (sock : Hfsocket) : Option (Option Nat) := sock.fd.map fun _ => sock.userData

/-- The two sockets a session refers to. -/
def Session.refers (s : Session) : Option Slot × Option Slot := (s.cmdSock, s.dataSock)

theorem owner_eq_none_iff {sock : Hfsocket} : sock.owner = none ↔ sock.fd = none :=
  Option.map_eq_none_iff

/-! ### A session at work -/

variable {m m' : Machine φ}

/-- No socket in use changes, and none is taken; `root_dir` is as before. -/
structure SocketsKept (m m' : Machine φ) : Prop where
  untaken : ∀ i, m'.sockList i = m.sockList i ∨
    ((m.sockList i).fd = none ∧ (m'.sockList i).fd = none)
  self : m'.self = m.self
  refers : m'.session.refers = m.session.refers
  rootDir : m'.session.rootDir = m.session.rootDir

/-- The data connection, on slot `d`, is closed. -/
structure Closed (m m' : Machine φ) (d : Slot) : Prop where
  opened : m.session.dataSock = some d
  freed : (m'.sockList d).fd = none
  others : ∀ j, j ≠ d → m'.sockList j = m.sockList j
  self : m'.self = m.self
  cmdSock : m'.session.cmdSock = m.session.cmdSock
  dataSock : m'.session.dataSock = none
  rootDir : m'.session.rootDir = m.session.rootDir

theorem Answered.sockets {keeps : Prop} (answered : Answered keeps m m') : SocketsKept m m' :=
  ⟨fun i => Or.inl (by rw [answered.sockList]), answered.self,
    Prod.ext answered.cmdSock answered.dataSock, answered.rootDir⟩

theorem Unopened.sockets (unopened : Unopened m m') : SocketsKept m m' :=
  ⟨unopened.untaken, unopened.self, Prod.ext unopened.cmdSock unopened.dataSock, unopened.rootDir⟩

theorem SocketsKept.owner (kept : SocketsKept m m') (i : Slot) :
    (m'.sockList i).owner = (m.sockList i).owner := by
  rcases kept.untaken i with same | ⟨free, stillFree⟩
  · rw [same]
  · rw [owner_eq_none_iff.mpr free, owner_eq_none_iff.mpr stillFree]

/-- The line asks for a data connection. -/
def OpensLine (cmd : List INT8U) : Prop :=
  ∃ handler, cmdHandler cmd = some handler ∧ opensData handler = true

theorem cmdDisptach_opens (fs : FileSystem φ) {cmd : List INT8U} (opens : OpensLine cmd)
    (connects : ConnectsFor env m) :
    ∃ m' i, Hvsftpd.cmdDisptach fs env cmd m = some (m', .ok) ∧ Opened m m' i := by
  obtain ⟨handler, names, opens⟩ := opens
  obtain ⟨m', handled, opened, -⟩ :=
    handle_opens fs env m (cmdParam cmd) opens
  obtain ⟨i, opened⟩ := opened connects
  have ok : handler.status = .ok := by
    cases handler with
    | list | retr | stor => rfl
    | _ => exact absurd opens Bool.noConfusion
  refine ⟨m', i, ?_, opened⟩
  rw [cmdDisptach_handler names, handled, ok]

theorem cmdDisptach_sockets {cmd : List INT8U} {status : HfStatus}
    (taken : Hvsftpd.cmdDisptach fs env cmd m = some (m', status))
    (none : ¬ (OpensLine cmd ∧ ConnectsFor env m)) : SocketsKept m m' := by
  cases names : cmdHandler cmd with
  | none =>
    unfold Hvsftpd.cmdDisptach at taken
    rw [names] at taken
    cases taken
    exact ⟨fun _ => Or.inl rfl, rfl, rfl, rfl⟩
  | some handler =>
    rw [cmdDisptach_handler names] at taken
    cases opens : opensData handler with
    | false => exact (handle_answered opens taken).1.sockets
    | true =>
      obtain ⟨out, handled, -, unopened⟩ :=
        handle_opens fs env m (cmdParam cmd) opens
      rw [handled] at taken
      cases taken
      exact (unopened fun connects => none ⟨⟨handler, names, opens⟩, connects⟩).sockets

theorem cmdDisptach_cases {cmd : List INT8U} {status : HfStatus}
    (taken : Hvsftpd.cmdDisptach fs env cmd m = some (m', status)) :
    SocketsKept m m' ∨ ∃ i, Opened m m' i := by
  by_cases opens : OpensLine cmd ∧ ConnectsFor env m
  · obtain ⟨out, i, handled, opened⟩ := cmdDisptach_opens fs opens.1 opens.2
    rw [taken] at handled
    cases handled
    exact Or.inr ⟨i, opened⟩
  · exact Or.inl (cmdDisptach_sockets taken opens)

theorem cmdDisptach_self {cmd : List INT8U} {status : HfStatus}
    (taken : Hvsftpd.cmdDisptach fs env cmd m = some (m', status)) : m'.self = m.self := by
  rcases cmdDisptach_cases taken with kept | ⟨i, opened⟩
  · exact kept.self
  · exact opened.self

/-- A command does not write to a socket in use. -/
theorem cmdDisptach_inUse {cmd : List INT8U} {status : HfStatus}
    (taken : Hvsftpd.cmdDisptach fs env cmd m = some (m', status)) {i : Slot}
    (inUse : (m.sockList i).fd ≠ none) : m'.sockList i = m.sockList i := by
  rcases cmdDisptach_cases taken with kept | ⟨j, opened⟩
  · exact (kept.untaken i).resolve_right fun free => inUse free.1
  · refine opened.others i fun same => inUse ?_
    rw [same]
    exact opened.free

/-- The status is the one of the table. -/
theorem cmdDisptach_status {cmd : List INT8U} {status : HfStatus}
    (taken : Hvsftpd.cmdDisptach fs env cmd m = some (m', status)) :
    status = Source.cmdDisptach cmd := by
  unfold Source.cmdDisptach
  cases names : cmdHandler cmd with
  | none =>
    unfold Hvsftpd.cmdDisptach at taken
    rw [names] at taken
    cases taken
    rfl
  | some handler =>
    rw [cmdDisptach_handler names] at taken
    cases opens : opensData handler with
    | false => exact (handle_answered opens taken).2
    | true =>
      obtain ⟨out, handled, -⟩ := handle_opens fs env m (cmdParam cmd) opens
      rw [handled] at taken
      cases taken
      rfl

/-! ### Callbacks of a data connection -/

/-- Work that leaves the session's sockets as they are, but for the data socket itself. -/
structure Works (m m' : Machine φ) : Prop where
  others : ∀ j, m.session.dataSock ≠ some j → m'.sockList j = m.sockList j
  self : m'.self = m.self
  cmdSock : m'.session.cmdSock = m.session.cmdSock
  dataSock : m'.session.dataSock = m.session.dataSock
  rootDir : m'.session.rootDir = m.session.rootDir

theorem Works.refl (m : Machine φ) : Works m m := ⟨fun _ _ => rfl, rfl, rfl, rfl, rfl⟩

theorem Works.trans {m'' : Machine φ} (first : Works m m') (second : Works m' m'') :
    Works m m'' where
  others := fun j other =>
    (second.others j (first.dataSock ▸ other)).trans (first.others j other)
  self := second.self.trans first.self
  cmdSock := second.cmdSock.trans first.cmdSock
  dataSock := second.dataSock.trans first.dataSock
  rootDir := second.rootDir.trans first.rootDir

theorem Works.closed {out : Machine φ} (works : Works m m') (taken : sessionClosedata m' = some out) :
    ∃ d, Closed m out d := by
  obtain ⟨d, opened, same⟩ := Option.map_eq_some_iff.mp taken
  cases same
  rw [works.dataSock] at opened
  refine ⟨d, opened, ?_, fun j other => ?_, works.self, works.cmdSock, rfl, works.rootDir⟩
  · simp only [socketFree, Function.update_self]
  · simp only [socketFree, Function.update_of_ne other]
    refine works.others j fun same => other ?_
    rw [opened] at same
    exact (Option.some.inj same).symm

theorem works_listEntries {path : Path} {names : List Path} {buf : List INT8U}
    (taken : listEntries fs path names buf m = some m') : Works m m' := by
  induction names generalizing m buf with
  | nil =>
    cases taken
    exact ⟨fun _ _ => rfl, rfl, rfl, rfl, rfl⟩
  | cons name rest ih =>
    simp only [listEntries, Option.bind_eq_bind] at taken
    obtain ⟨⟨buf', fits⟩, -, taken⟩ := Option.bind_eq_some_iff.mp taken
    obtain ⟨entry, -, taken⟩ := Option.bind_eq_some_iff.mp taken
    refine Works.trans ?_ (ih taken)
    exact ⟨fun _ _ => rfl, rfl, rfl, rfl, rfl⟩

theorem works_atPath {size : Nat} {param : List INT8U} {failed : String}
    {act : List INT8U → Path → Option (Machine φ)}
    (acts : ∀ block path, act block path = some m' → Works m m')
    (taken : atPath env m size param failed act = some m') : Works m m' := by
  unfold atPath at taken
  split at taken
  · cases taken
    exact ⟨fun _ _ => rfl, rfl, rfl, rfl, rfl⟩
  · simp only [Option.bind_eq_bind] at taken
    obtain ⟨block, -, taken⟩ := Option.bind_eq_some_iff.mp taken
    obtain ⟨path, -, taken⟩ := Option.bind_eq_some_iff.mp taken
    exact acts block path taken

theorem works_retrAt {param : List INT8U} {path : Path} : Works m (retrAt fs m param path) := by
  unfold retrAt
  dsimp only
  split
  · split
    · exact ⟨fun _ _ => rfl, rfl, rfl, rfl, rfl⟩
    · exact ⟨fun _ _ => rfl, rfl, rfl, rfl, rfl⟩
  · exact ⟨fun _ _ => rfl, rfl, rfl, rfl, rfl⟩

/-- STOR writes to the state of its data socket. -/
theorem works_storAt {path : Path} (taken : storAt fs env m path = some m') : Works m m' := by
  unfold storAt at taken
  dsimp only at taken
  split at taken
  · simp only [Option.bind_eq_bind] at taken
    obtain ⟨d, opened, taken⟩ := Option.bind_eq_some_iff.mp taken
    obtain ⟨blocks, -, same⟩ := Option.bind_eq_some_iff.mp taken
    cases same
    refine ⟨fun j other => ?_, rfl, rfl, rfl, rfl⟩
    have differs : j ≠ d := fun same => other (same ▸ opened)
    exact Function.update_of_ne differs _ _
  · cases taken
    exact ⟨fun _ _ => rfl, rfl, rfl, rfl, rfl⟩

theorem works_listDir (taken : listDir fs env m = some m') : Works m m' := by
  unfold listDir at taken
  split at taken
  · cases taken
    exact Works.refl m
  · simp only [Option.bind_eq_bind] at taken
    obtain ⟨⟨block, fits⟩, -, taken⟩ := Option.bind_eq_some_iff.mp taken
    obtain ⟨path, -, taken⟩ := Option.bind_eq_some_iff.mp taken
    have called : Works m (m.call (.opendir path)) := ⟨fun _ _ => rfl, rfl, rfl, rfl, rfl⟩
    split at taken
    · cases taken
      exact called
    · split at taken
      · cases taken
      · exact called.trans (works_listEntries taken)

/-- Every callback of a data connection closes it. -/
theorem runCallback_closed {callback : SessionCallback}
    (taken : runCallback fs env m callback = some m') : ∃ d, Closed m m' d := by
  cases callback with
  | listWrite =>
    unfold runCallback listWrite at taken
    simp only [Option.bind_eq_bind] at taken
    obtain ⟨listed, works, taken⟩ := Option.bind_eq_some_iff.mp taken
    obtain ⟨out, closes, same⟩ := Option.bind_eq_some_iff.mp taken
    cases same
    obtain ⟨d, closed⟩ := (works_listDir works).closed closes
    exact ⟨d, closed.opened, closed.freed, closed.others, closed.self, closed.cmdSock, closed.dataSock,
      closed.rootDir⟩
  | retrWrite =>
    unfold runCallback retrWrite at taken
    simp only [Option.bind_eq_bind] at taken
    obtain ⟨sent, works, closes⟩ := Option.bind_eq_some_iff.mp taken
    refine (works_atPath (fun block path acts => ?_) works).closed closes
    cases acts
    exact works_retrAt
  | storRead =>
    unfold runCallback storRead at taken
    simp only [Option.bind_eq_bind] at taken
    obtain ⟨received, works, closes⟩ := Option.bind_eq_some_iff.mp taken
    exact (works_atPath (fun block path acts => works_storAt acts) works).closed closes

end GasSub.Source.Hvsftpd
