import GasSub.Library.CountedMap
import GasSub.Guarantees.SlotLiveness
import GasSub.Source.FtpFileCommands

/-!
# Sessions are counted, and each has a command socket of its own

`session_count` against the sessions in memory, and `cmd_sock` against the socket
table. A client that is refused takes a socket and gives it back. Nothing here
depends on how many data connections a session opens. A run ends where a path that is
joined overruns its block, a pointer that is followed is `NULL` or to a freed session,
or an upload does not end; which commands end it is said below.
-/
namespace GasSub.Guarantees.SessionAccounting
open GasSub.Source GasSub.Source.Hvsftpd GasSub.Library.Run GasSub.Library.CountedMap
open GasSub.Guarantees.SlotLiveness

variable {φ : Type} {fs : FileSystem φ} {env : Surroundings} {s t : Hvsftpd.Server φ}

/-- The account of the sessions in memory. -/
structure Accounted (s : Hvsftpd.Server φ) : Prop where
  counted : Counts s.sessions s.sessionCount
  limit : s.sessionCount ≤ maxSession
  occupied : ∀ a session, s.sessions a = some session →
    ∃ i, session.cmdSock = some i ∧ (s.sockList i).fd ≠ none ∧ (s.sockList i).userData = some a
  distinct : ∀ a b session other i, s.sessions a = some session → s.sessions b = some other →
    session.cmdSock = some i → other.cmdSock = some i → a = b

/-- The server is about to accept a client, with as many sessions as there may be. -/
def AcceptsThird (s : Hvsftpd.Server φ) (o : Occurrence) : Prop :=
  (s.sockList o.slot).fd ≠ none ∧ (s.sockList o.slot).callback o.ready = some .commandAccept ∧
    s.sessionCount = maxSession

/-- A refused client leaves the sessions and the set of occupied slots as they were. -/
def RefusalUnchanged (fs : FileSystem φ) (s : Hvsftpd.Server φ) (o : Occurrence) : Prop :=
  AcceptsThird s o → ∃ t, serverStep fs s o = some t ∧ t.sessions = s.sessions ∧
    ∀ i, (t.sockList i).fd = none ↔ (s.sockList i).fd = none

/-! ### What `session.c` keeps by itself -/

structure Enrolled (s : Hvsftpd.Server φ) : Prop where
  counted : Counts s.sessions s.sessionCount
  limit : s.sessionCount ≤ maxSession
  commanded : ∀ a session, s.sessions a = some session → session.cmdSock ≠ none
  rooted : ∀ a session, s.sessions a = some session → session.Rooted

/-- The same sessions, each with the command socket and the `root_dir` it had. -/
structure SameRoster (s t : Hvsftpd.Server φ) : Prop where
  sessionCount : t.sessionCount = s.sessionCount
  cmdSocks : ∀ a, (t.sessions a).map Session.cmdSock = (s.sessions a).map Session.cmdSock
  rootDirs : ∀ a, (t.sessions a).map Session.rootDir = (s.sessions a).map Session.rootDir

theorem SameRoster.refl (s : Hvsftpd.Server φ) : SameRoster s s := ⟨rfl, fun _ => rfl, fun _ => rfl⟩

/-- A session that is there was there before, with the field that is the same. -/
theorem found_before {α : Type} {field : Session → α} {a : Nat} {session : Session}
    (same : (t.sessions a).map field = (s.sessions a).map field) (live : t.sessions a = some session) :
    ∃ before, s.sessions a = some before ∧ field before = field session := by
  rw [live, Option.map_some, eq_comm] at same
  exact Option.map_eq_some_iff.mp same

theorem SameRoster.enrolled (same : SameRoster s t) (enrolled : Enrolled s) : Enrolled t where
  counted := by
    rw [same.sessionCount]
    refine counts_congr (fun a => ?_) enrolled.counted
    rw [← Option.map_eq_none_iff, same.cmdSocks, Option.map_eq_none_iff]
  limit := same.sessionCount ▸ enrolled.limit
  commanded := by
    intro a session live
    obtain ⟨before, found, cmdSock⟩ := found_before (same.cmdSocks a) live
    rw [← cmdSock]
    exact enrolled.commanded a before found
  rooted := by
    intro a session live
    obtain ⟨before, found, rootDir⟩ := found_before (same.rootDirs a) live
    rw [Session.Rooted, ← rootDir]
    exact enrolled.rooted a before found

/-- What a session keeps at work is the same in the server it is put back to. -/
theorem after_map {α : Type} {a : Nat} {session : Session} {m : Machine φ} (field : Session → α)
    (live : s.sessions a = some session) (self : m.self = a) (same : field m.session = field session)
    (b : Nat) : ((s.after m).sessions b).map field = (s.sessions b).map field := by
  subst self
  by_cases mine : b = m.self
  · rw [mine, s.after_sessions m, live, Option.map_some, Option.map_some, same]
  · have other : (s.after m).sessions b = s.sessions b := Function.update_of_ne mine _ _
    rw [other]

theorem sameRoster_after {a : Nat} {session : Session} {m : Machine φ}
    (live : s.sessions a = some session) (self : m.self = a)
    (cmdSock : m.session.cmdSock = session.cmdSock) (rootDir : m.session.rootDir = session.rootDir) :
    SameRoster s (s.after m) where
  sessionCount := rfl
  cmdSocks := after_map Session.cmdSock live self cmdSock
  rootDirs := after_map Session.rootDir live self rootDir

theorem sessionFree_enrolled {a : Nat} (taken : sessionFree s a = some t)
    (enrolled : Enrolled s) : Enrolled t := by
  obtain ⟨session, live, rfl⟩ := Option.map_eq_some_iff.mp taken
  have before : ∀ b other, Function.update s.sessions a none b = some other → s.sessions b = some other := by
    intro b other found
    by_cases gone : b = a
    · rw [gone, Function.update_self] at found
      cases found
    · rwa [Function.update_of_ne gone] at found
  refine ⟨counts_erase enrolled.counted (live ▸ Option.some_ne_none session), ?_, ?_, ?_⟩
  · exact (Int.sub_le_self _ Int.one_nonneg).trans enrolled.limit
  · exact fun b other found => enrolled.commanded b other (before b other found)
  · exact fun b other found => enrolled.rooted b other (before b other found)

theorem sessionAlloc_count {a : Nat} {address : Option Nat}
    (allocated : sessionAlloc s address = some (a, t)) :
    s.sessionCount < maxSession ∧ t.sessionCount = s.sessionCount + 1 := by
  unfold sessionAlloc at allocated
  split at allocated
  · case isTrue room =>
    split at allocated
    · cases allocated
    · split at allocated
      · cases allocated
      · cases allocated
        exact ⟨room, rfl⟩
  · cases allocated

/-- What holds of the new session and held of every other one holds of all. -/
theorem sessions_insert {P : Session → Prop} {a : Nat} {session : Session}
    (sessions : t.sessions = Function.update s.sessions a (some session)) (new : P session)
    (before : ∀ b other, s.sessions b = some other → P other) (b : Nat) (other : Session)
    (found : t.sessions b = some other) : P other := by
  rw [sessions] at found
  by_cases here : b = a
  · rw [here, Function.update_self] at found
    cases found
    exact new
  · rw [Function.update_of_ne here] at found
    exact before b other found

theorem enrolled_insert {a : Nat} {session : Session} (enrolled : Enrolled s)
    (fresh : s.sessions a = none) (room : s.sessionCount < maxSession)
    (sessions : t.sessions = Function.update s.sessions a (some session))
    (count : t.sessionCount = s.sessionCount + 1) (cmdSock : session.cmdSock ≠ none)
    (rooted : session.Rooted) : Enrolled t where
  counted := by
    rw [sessions, count]
    exact counts_insert enrolled.counted fresh session
  limit := count ▸ room
  commanded := sessions_insert sessions cmdSock enrolled.commanded
  rooted := sessions_insert sessions rooted enrolled.rooted

theorem sockAccept_enrolled (o : Occurrence) (enrolled : Enrolled s) :
    Enrolled (Hvsftpd.sockAccept s o) := by
  unfold Hvsftpd.sockAccept
  rcases socketAccept_cases o s.sockList with refused | ⟨i, fd, -, accepted⟩
  · rw [refused]
    exact enrolled
  · rw [accepted]
    dsimp only
    cases allocated : sessionAlloc s o.address with
    | none => exact ⟨enrolled.counted, enrolled.limit, enrolled.commanded, enrolled.rooted⟩
    | some given =>
      obtain ⟨a, u⟩ := given
      obtain ⟨fresh, sessions, -⟩ := sessionAlloc_some allocated
      obtain ⟨room, count⟩ := sessionAlloc_count allocated
      have cmdSock : (Session.accepted i).cmdSock ≠ none := Option.some_ne_none i
      refine enrolled_insert enrolled fresh room ?_ count cmdSock (rooted_accepted i)
      simp only [sessions, Function.update_idem]

/-! ### Callbacks -/

/-- A command moves neither the session nor its command socket nor its `root_dir`. -/
theorem cmdDisptach_roster {cmd : List INT8U} {m m' : Machine φ} {status : HfStatus}
    (taken : Hvsftpd.cmdDisptach fs env cmd m = some (m', status)) :
    m'.self = m.self ∧ m'.session.cmdSock = m.session.cmdSock ∧
      m'.session.rootDir = m.session.rootDir := by
  rcases cmdDisptach_cases taken with kept | ⟨i, opened⟩
  · exact ⟨kept.self, (Prod.mk.inj kept.refers).1, kept.rootDir⟩
  · exact ⟨opened.self, opened.cmdSock, opened.rootDir⟩

theorem commandReceived_sameRoster {i : Slot} {a : Nat} {buf : List INT8U}
    (taken : commandReceived fs env s i a buf = some t) : SameRoster s t := by
  obtain ⟨session, live⟩ := commandReceived_live taken
  unfold commandReceived at taken
  rw [live, Option.bind_some] at taken
  dsimp only at taken
  split at taken
  · obtain ⟨⟨m, status⟩, handled, same⟩ := Option.map_eq_some_iff.mp taken
    obtain ⟨self, cmdSock, rootDir⟩ := cmdDisptach_roster handled
    have put : SameRoster s (s.after { m with session := m.session.withCommand [] }) :=
      sameRoster_after live self cmdSock rootDir
    dsimp only at same
    split at same
    · exact same ▸ put
    · exact same ▸ ⟨put.sessionCount, put.cmdSocks, put.rootDirs⟩
  · cases taken
    exact sameRoster_after live rfl rfl rfl

theorem chunkReceived_sameRoster {i : Slot} {userData : Option Nat} {buf : List INT8U}
    (taken : chunkReceived fs env s i userData buf = some t) : SameRoster s t := by
  unfold chunkReceived at taken
  split at taken
  · cases taken
    exact SameRoster.refl s
  · obtain ⟨a, -, taken⟩ := Option.bind_eq_some_iff.mp taken
    exact commandReceived_sameRoster taken

theorem freeClosed_enrolled {i : Slot} {userData : Option Nat}
    (taken : freeClosed s i userData = some t) (enrolled : Enrolled s) : Enrolled t := by
  unfold freeClosed at taken
  split at taken
  · obtain ⟨a, -, taken⟩ := Option.bind_eq_some_iff.mp taken
    exact sessionFree_enrolled taken enrolled
  · cases taken
    exact enrolled

theorem sameRoster_setState (s : Hvsftpd.Server φ) (i : Slot) (state : SocketState) :
    SameRoster s (s.setState i state) := ⟨rfl, fun _ => rfl, fun _ => rfl⟩

theorem sockRead_enrolled {o : Occurrence} {i : Slot}
    (taken : Hvsftpd.sockRead fs s o i = some t) (enrolled : Enrolled s) : Enrolled t := by
  unfold Hvsftpd.sockRead at taken
  obtain ⟨after, received, freed⟩ := Option.bind_eq_some_iff.mp taken
  refine freeClosed_enrolled freed ((chunkReceived_sameRoster received).enrolled ?_)
  split
  · exact (sameRoster_setState s i .closed).enrolled enrolled
  · exact enrolled

/-- A data socket at work leaves the command socket of its session alone. -/
theorem ofSession_sameRoster {i : Slot} {work : Machine φ → Option (Machine φ)}
    (closes : ∀ m m', work m = some m' → ∃ d, Closed m m' d)
    (taken : ofSession s i work = some t) : SameRoster s t := by
  unfold ofSession at taken
  obtain ⟨a, -, taken⟩ := Option.bind_eq_some_iff.mp taken
  obtain ⟨session, live, taken⟩ := Option.bind_eq_some_iff.mp taken
  obtain ⟨m, worked, same⟩ := Option.map_eq_some_iff.mp taken
  obtain ⟨d, closed⟩ := closes _ m worked
  exact same ▸ sameRoster_after live closed.self closed.cmdSock closed.rootDir

theorem callBack_enrolled {o : Occurrence} {i : Slot} {callback : SockCallback}
    (taken : callBack fs s o i callback = some t) (enrolled : Enrolled s) : Enrolled t := by
  cases callback with
  | commandAccept =>
    cases taken
    exact sockAccept_enrolled o enrolled
  | commandRead => exact sockRead_enrolled taken enrolled
  | dataRead | dataWrite =>
    exact (ofSession_sameRoster sockTransfer_closes taken).enrolled enrolled
  | dataExcept =>
    exact (ofSession_sameRoster sockExcept_closes taken).enrolled enrolled

theorem sameRoster_reported (s : Hvsftpd.Server φ) (i : Slot) (ready : Readiness) :
    SameRoster s (s.reported i ready) := by
  cases ready with
  | readable => exact sameRoster_setState s i _
  | writeable | exceptional => exact SameRoster.refl s

theorem serverStep_enrolled {o : Occurrence} (taken : serverStep fs s o = some t)
    (enrolled : Enrolled s) : Enrolled t := by
  unfold serverStep at taken
  dsimp only at taken
  split at taken
  · cases taken
    exact enrolled
  · obtain ⟨callback, -, taken⟩ := Option.bind_eq_some_iff.mp taken
    exact callBack_enrolled taken ((sameRoster_reported s o.slot o.ready).enrolled enrolled)

/-! ### The account -/

/-- A socket that a session refers to is its own. -/
theorem linked_owned (linked : s.Linked) {a : Nat} {session : Session} {i : Slot}
    (live : s.sessions a = some session) (refers : session.cmdSock = some i) :
    (s.sockList i).fd ≠ none ∧ (s.sockList i).userData = some a := by
  have held : i ∈ s.ledger.holds (some a) := by
    have slots : s.ledger.holds (some a) = session.slots := slotsOf_some live
    exact slots ▸ Or.inl refers
  have owned := linked.backed i (some a) held
  rw [Server.ledger_owner_client (linked.client held)] at owned
  obtain ⟨fd, inUse, mine⟩ := Option.map_eq_some_iff.mp owned
  exact ⟨inUse ▸ Option.some_ne_none fd, mine⟩

theorem accounted_of (linked : s.Linked) (enrolled : Enrolled s) : Accounted s where
  counted := enrolled.counted
  limit := enrolled.limit
  occupied := by
    intro a session live
    obtain ⟨i, refers⟩ := Option.ne_none_iff_exists'.mp (enrolled.commanded a session live)
    exact ⟨i, refers, linked_owned linked live refers⟩
  distinct := by
    intro a b session other i live live' refers refers'
    have mine := (linked_owned linked live refers).2
    have yours := (linked_owned linked live' refers').2
    exact Option.some.inj (mine.symm.trans yours)

theorem refusal_unchanged (fs : FileSystem φ) (s : Hvsftpd.Server φ) (o : Occurrence) :
    RefusalUnchanged fs s o := by
  intro third
  obtain ⟨inUse, points, full⟩ := third
  have step : serverStep fs s o = some (Hvsftpd.sockAccept (s.reported o.slot o.ready) o) := by
    unfold serverStep
    simp only [if_neg inUse, points, Option.bind_some]
    rfl
  have alike := alike_reported s o.slot o.ready
  have sessions : (s.reported o.slot o.ready).sessions = s.sessions := by
    cases o.ready <;> rfl
  have count : (s.reported o.slot o.ready).sessionCount = maxSession :=
    (sameRoster_reported s o.slot o.ready).sessionCount.trans full
  have free : ∀ i, ((s.reported o.slot o.ready).sockList i).fd = none ↔
      (s.sockList i).fd = none := by
    intro i
    rw [← owner_eq_none_iff, alike.owner, owner_eq_none_iff]
  have refuses : sessionAlloc (s.reported o.slot o.ready) o.address = none := by
    unfold sessionAlloc
    rw [count, if_neg (lt_irrefl _)]
  refine ⟨_, step, ?_⟩
  unfold Hvsftpd.sockAccept
  rcases socketAccept_cases o (s.reported o.slot o.ready).sockList with
    missed | ⟨i, fd, unused, accepted⟩
  · rw [missed]
    exact ⟨sessions, free⟩
  · rw [accepted]
    simp only [refuses]
    refine ⟨sessions, fun j => ?_⟩
    by_cases here : j = i
    · subst here
      simp only [socketFree, Function.update_self]
      exact iff_of_true trivial ((free j).mp unused)
    · simp only [socketFree, Function.update_of_ne here]
      exact free j

/-! ### Runs -/

theorem enrolled_started (fd : Nat) (files : φ) : Enrolled (Server.started fd files) :=
  ⟨counts_empty, Int.natCast_nonneg maxSession, (fun _ _ live => nomatch live),
    fun _ _ live => nomatch live⟩

/-- In every state that a run from the start reaches the sessions are counted, there are at most
`MAX_SESSION`, each has an occupied slot of its own, and a client accepted beyond them changes
neither the sessions nor the set of occupied slots. A run reaches no further state where a path
overruns its block, a `NULL` pointer or a freed session is used, or an upload does not end. -/
theorem sessions_accounted (fs : FileSystem φ) (fd : Nat) (files : φ) (events : List Occurrence) :
    Throughout (serverStep fs) Accounted (Server.started fd files) events ∧
      EachStep (serverStep fs) (RefusalUnchanged fs) (Server.started fd files) events := by
  have kept : ∀ s o t, Server.Linked s ∧ Enrolled s → serverStep fs s o = some t →
      Server.Linked t ∧ Enrolled t := by
    intro s o t both taken
    exact ⟨(serverStep_keeps taken both.1).1, serverStep_enrolled taken both.2⟩
  have start := And.intro (linked_started fd files) (enrolled_started fd files)
  constructor
  · exact throughout_of_invariant kept (fun s both => accounted_of both.1 both.2) start
  · exact eachStep_of_invariant kept (fun s o _ => refusal_unchanged fs s o) start

/-! ### Where a run ends -/

/-- A chunk is read on the command socket of the session at `a`. -/
structure ReadsCommand (s : Hvsftpd.Server φ) (o : Occurrence) (a : Nat) (session : Session) : Prop where
  inUse : (s.sockList o.slot).fd ≠ none
  points : (s.sockList o.slot).callback o.ready = some .commandRead
  userData : (s.sockList o.slot).userData = some a
  live : s.sessions a = some session

/-- The paths that a command completed by the chunk joins stay inside their blocks. -/
def StaysInside (env : Surroundings) (session : Session) (buf : List INT8U) : Prop :=
  let appended := cmdAppend session.cmdBuf.text buf
  let stored := session.withCommand appended.2
  appended.1 = true → ∀ handler, cmdHandler stored.cmdBuf.text = some handler →
    FitsMemory env stored stored.commandLine.param handler

theorem commandReceived_defined_iff (fs : FileSystem φ) {i : Slot} {a : Nat} {session : Session}
    {buf : List INT8U} (live : s.sessions a = some session) (rooted : session.Rooted) :
    (commandReceived fs env s i a buf).isSome ↔ StaysInside env session buf := by
  unfold commandReceived StaysInside
  rw [live, Option.bind_some]
  dsimp only
  split
  · case isTrue completed =>
    rw [Option.isSome_map, imp_iff_right completed]
    exact cmdDisptach_defined_iff (m := s.machine a (session.withCommand _)) fs env rooted
  · case isFalse unfinished => exact iff_of_true rfl fun completed => absurd completed unfinished

/-- The session is still there for `freeClosed`. -/
theorem commandReceived_stays {i : Slot} {a : Nat} {buf : List INT8U}
    (taken : commandReceived fs env s i a buf = some t) : (t.sessions a).isSome := by
  obtain ⟨session, live⟩ := commandReceived_live taken
  have same := (commandReceived_sameRoster taken).cmdSocks a
  rw [live, Option.map_some, Option.map_eq_some_iff] at same
  obtain ⟨after, still, -⟩ := same
  exact Option.isSome_iff_exists.mpr ⟨after, still⟩

theorem sockRead_defined_iff {o : Occurrence} {i : Slot} {a : Nat} {session : Session}
    (userData : (s.sockList i).userData = some a) (live : s.sessions a = some session)
    (rooted : session.Rooted) :
    (Hvsftpd.sockRead fs s o i).isSome ↔
      ((socketRead o.received).1 ≠ [] → StaysInside o.env session (socketRead o.received).1) := by
  unfold Hvsftpd.sockRead chunkReceived
  rw [userData]
  dsimp only
  have still : (if (socketRead o.received).2 = true then s.setState i .closed else s).sessions a =
      some session := by
    split <;> exact live
  generalize (if (socketRead o.received).2 = true then s.setState i .closed else s) = closed at still ⊢
  split
  · case isTrue empty =>
    obtain ⟨t, freed⟩ := freeClosed_defined (s := closed) (i := i) (still ▸ rfl : (closed.sessions a).isSome)
    rw [Option.bind_some, freed]
    exact iff_of_true rfl fun full => absurd empty full
  · case isFalse full =>
    rw [Option.bind_some, imp_iff_right full, ← commandReceived_defined_iff fs (i := i) still rooted]
    constructor
    · intro defined
      obtain ⟨t, taken⟩ := Option.isSome_iff_exists.mp defined
      obtain ⟨after, received, -⟩ := Option.bind_eq_some_iff.mp taken
      exact Option.isSome_iff_exists.mpr ⟨after, received⟩
    · intro defined
      obtain ⟨after, received⟩ := Option.isSome_iff_exists.mp defined
      obtain ⟨t, freed⟩ := freeClosed_defined (i := i) (commandReceived_stays received)
      rw [received, Option.bind_some, freed]
      rfl

theorem serverStep_defined_iff {o : Occurrence} {a : Nat} {session : Session}
    (reads : ReadsCommand s o a session) (rooted : session.Rooted) :
    (serverStep fs s o).isSome ↔
      ((socketRead o.received).1 ≠ [] → StaysInside o.env session (socketRead o.received).1) := by
  have userData : ((s.reported o.slot o.ready).sockList o.slot).userData = some a := by
    cases o.ready with
    | readable => exact (setState_userData s o.slot o.slot _).trans reads.userData
    | writeable | exceptional => exact reads.userData
  have live : (s.reported o.slot o.ready).sessions a = some session := by
    cases o.ready <;> exact reads.live
  unfold serverStep
  rw [if_neg reads.inUse, reads.points, Option.bind_some]
  exact sockRead_defined_iff userData live rooted

/-- In every state reached, a run goes on over a chunk for a session in memory exactly where the
paths joined by the command that the chunk completes stay inside their blocks. -/
theorem commands_defined (fs : FileSystem φ) (fd : Nat) (files : φ) (events : List Occurrence) :
    Throughout (serverStep fs)
      (fun s => ∀ o a session, ReadsCommand s o a session → ((serverStep fs s o).isSome ↔
        ((socketRead o.received).1 ≠ [] → StaysInside o.env session (socketRead o.received).1)))
      (Server.started fd files) events := by
  refine throughout_of_invariant (fun s o t enrolled taken => serverStep_enrolled taken enrolled)
    (fun s enrolled o a session reads => ?_) (enrolled_started fd files)
  exact serverStep_defined_iff reads (enrolled.rooted a session reads.live)

end GasSub.Guarantees.SessionAccounting
