import GasSub.Library.Run
import GasSub.Source.FtpSlots

/-!
# No FTP socket outlives its session

Every socket in use, besides the server's, against the sessions in memory: its
`user_data` should be a session that refers to it. `session_opendata` writes
`data_sock` over whatever it was, so a second data connection leaves the first one
behind; everything else that accepts, opens, closes and frees keeps the two sides
together.
-/
namespace GasSub.Guarantees.SlotLiveness
open GasSub.Source GasSub.Source.Hvsftpd GasSub.Library.CharArray GasSub.Library.Run

variable {φ : Type} {fs : FileSystem φ} {env : Surroundings} {s t : Hvsftpd.Server φ}

/-- `user_data` is a session in memory that refers to the socket. -/
def Live (s : Hvsftpd.Server φ) (i : Slot) : Prop :=
  ∃ a session, (s.sockList i).userData = some a ∧ s.sessions a = some session ∧
    (session.cmdSock = some i ∨ session.dataSock = some i)

def SlotsLive (s : Hvsftpd.Server φ) : Prop :=
  ∀ i, i ≠ s.sockServer → (s.sockList i).fd ≠ none → Live s i

/-- A chunk for `session` completes a LIST, NLST, RETR or STOR whose data connection can
be had, while the session still has one. -/
def SecondOpened (env : Surroundings) (s : Hvsftpd.Server φ) (session : Session) (buf : List INT8U) :
    Prop :=
  let appended := cmdAppend session.cmdBuf.text buf
  appended.1 = true ∧ OpensLine (session.withCommand appended.2).cmdBuf.text ∧
    Connects env session.addr session.port s.sockList ∧ session.dataSock ≠ none

/-- Such a chunk is read on the command socket `i` of a session. -/
def ReadsSecond (s : Hvsftpd.Server φ) (o : Occurrence) (i : Slot) : Prop :=
  (socketRead o.received).1 ≠ [] ∧
    ∃ a session, (s.sockList i).userData = some a ∧ s.sessions a = some session ∧
      SecondOpened o.env s session (socketRead o.received).1

def OpensSecond (s : Hvsftpd.Server φ) (o : Occurrence) : Prop :=
  (s.sockList o.slot).fd ≠ none ∧ (s.sockList o.slot).callback o.ready = some .commandRead ∧
    ReadsSecond s o o.slot

theorem slotsLive_iff : SlotsLive s ↔ s.ledger.Accounted := by
  constructor
  · intro live i k owned
    have client : i ≠ s.sockServer := by
      intro same
      have free : s.ledger.owner i = none := if_pos same
      rw [free] at owned
      cases owned
    rw [Server.ledger_owner_client client] at owned
    obtain ⟨fd, inUse, rfl⟩ := Option.map_eq_some_iff.mp owned
    exact mem_slotsOf_iff.mpr (live i client (inUse ▸ Option.some_ne_none fd))
  · intro accounted i client inUse
    obtain ⟨fd, given⟩ := Option.ne_none_iff_exists'.mp inUse
    have owned : s.ledger.owner i = some (s.sockList i).userData := by
      rw [Server.ledger_owner_client client, Hfsocket.owner, given, Option.map_some]
    exact mem_slotsOf_iff.mp (accounted i _ owned)

/-! ### One callback -/

theorem connects_congr {socks socks' : SockList} {addr : List INT8U} {port : INT16U}
    (same : ∀ i, (socks' i).owner = (socks i).owner) :
    Connects env addr port socks' ↔ Connects env addr port socks := by
  unfold Connects
  refine and_congr_left fun _ => exists_congr fun i => ?_
  rw [← owner_eq_none_iff, same i, owner_eq_none_iff]

theorem freeClosed_keeps {i : Slot} {session : Option Nat}
    (taken : freeClosed s i session = some t) : s.Keeps t True := by
  unfold freeClosed at taken
  split at taken
  · obtain ⟨a, -, taken⟩ := Option.bind_eq_some_iff.mp taken
    exact sessionFree_keeps taken
  · cases taken
    exact Server.Keeps.refl s

/-- The command that a chunk completes; its buffer is emptied behind it. -/
theorem dispatched_keeps {a : Nat} {session stored : Session} {cmd : List INT8U} {m : Machine φ}
    {status : HfStatus} (live : s.sessions a = some session)
    (taken : Hvsftpd.cmdDisptach fs env cmd (s.machine a stored) = some (m, status))
    (refers : stored.refers = session.refers) :
    s.Keeps (s.after { m with session := m.session.withCommand [] })
      (OpensLine cmd ∧ ConnectsFor env (s.machine a stored) → session.dataSock = none) := by
  by_cases opens : OpensLine cmd ∧ ConnectsFor env (s.machine a stored)
  · obtain ⟨out, i, handled, opened⟩ := cmdDisptach_opens fs opens.1 opens.2
    rw [taken] at handled
    cases handled
    exact ((opened.withCommand []).keeps live refers).congr (imp_iff_right opens).symm
  · have emptied := (cmdDisptach_sockets taken opens).withCommand []
    exact (emptied.alike live refers).keeps.congr (iff_of_true trivial fun now => absurd now opens)

theorem not_secondOpened_iff {a : Nat} {session : Session} {buf : List INT8U}
    (completed : (cmdAppend session.cmdBuf.text buf).1 = true) :
    (OpensLine (session.withCommand (cmdAppend session.cmdBuf.text buf).2).cmdBuf.text ∧
        ConnectsFor env
          (s.machine a (session.withCommand (cmdAppend session.cmdBuf.text buf).2)) →
      session.dataSock = none) ↔ ¬ SecondOpened env s session buf := by
  unfold SecondOpened
  simp only [completed, true_and, not_and, not_not, and_imp]
  exact Iff.rfl

theorem commandReceived_keeps {i : Slot} {a : Nat} {session : Session} {buf : List INT8U}
    (live : s.sessions a = some session) (taken : commandReceived fs env s i a buf = some t) :
    s.Keeps t (¬ SecondOpened env s session buf) := by
  unfold commandReceived at taken
  rw [live, Option.bind_some] at taken
  dsimp only at taken
  split at taken
  · case isTrue completed =>
    obtain ⟨⟨m, status⟩, handled, same⟩ := Option.map_eq_some_iff.mp taken
    have dispatched := (dispatched_keeps live handled rfl).congr (not_secondOpened_iff completed)
    dsimp only at same
    split at same
    · exact same ▸ dispatched
    · have closed := dispatched.trans (Server.alike_setState _ i .closed).keeps
      exact same ▸ closed.congr (and_iff_left trivial)
  · case isFalse unfinished =>
    cases taken
    have kept : SocketsKept (s.machine a session)
        (s.machine a (session.withCommand (cmdAppend session.cmdBuf.text buf).2)) :=
      ⟨fun _ => Or.inl rfl, rfl, rfl, rfl⟩
    exact (kept.alike live rfl).keeps.congr
      (iff_of_true trivial fun second => unfinished second.1)

theorem setState_userData (s : Hvsftpd.Server φ) (i j : Slot) (state : SocketState) :
    ((s.setState i state).sockList j).userData = (s.sockList j).userData := by
  unfold Server.setState
  dsimp only
  by_cases here : j = i
  · rw [here, Function.update_self]
  · rw [Function.update_of_ne here]

theorem secondOpened_setState {i : Slot} {state : SocketState} {session : Session}
    {buf : List INT8U} :
    SecondOpened env (s.setState i state) session buf ↔ SecondOpened env s session buf := by
  unfold SecondOpened
  dsimp only
  rw [connects_congr (s.alike_setState i state).owner]

theorem readsSecond_setState {o : Occurrence} {i j : Slot} {state : SocketState} :
    ReadsSecond (s.setState j state) o i ↔ ReadsSecond s o i := by
  unfold ReadsSecond
  rw [setState_userData]
  simp only [secondOpened_setState]
  exact Iff.rfl

theorem alike_reported (s : Hvsftpd.Server φ) (i : Slot) (ready : Readiness) :
    s.Alike (s.reported i ready) := by
  cases ready with
  | readable => exact s.alike_setState i _
  | writeable | exceptional => exact ⟨rfl, fun _ => rfl, fun _ => rfl⟩

theorem readsSecond_reported {o : Occurrence} {i j : Slot} (ready : Readiness) :
    ReadsSecond (s.reported j ready) o i ↔ ReadsSecond s o i := by
  cases ready with
  | readable => exact readsSecond_setState
  | writeable | exceptional => exact Iff.rfl

theorem commandReceived_live {i : Slot} {a : Nat} {buf : List INT8U}
    (taken : commandReceived fs env s i a buf = some t) :
    ∃ session, s.sessions a = some session := by
  unfold commandReceived at taken
  obtain ⟨session, live, -⟩ := Option.bind_eq_some_iff.mp taken
  exact ⟨session, live⟩

theorem chunkReceived_keeps {i : Slot} {userData : Option Nat} {buf : List INT8U}
    (taken : chunkReceived fs env s i userData buf = some t) :
    s.Keeps t (¬ (buf ≠ [] ∧ ∃ a session, userData = some a ∧ s.sessions a = some session ∧
      SecondOpened env s session buf)) := by
  unfold chunkReceived at taken
  split at taken
  · case isTrue empty =>
    cases taken
    exact (Server.Keeps.refl s).congr (iff_of_true trivial fun reads => reads.1 empty)
  · case isFalse full =>
    obtain ⟨a, rfl, taken⟩ := Option.bind_eq_some_iff.mp taken
    obtain ⟨session, live⟩ := commandReceived_live taken
    refine (commandReceived_keeps live taken).congr (not_congr ?_)
    constructor
    · exact fun second => ⟨full, a, session, rfl, live, second⟩
    · intro reads
      obtain ⟨-, b, other, same, found, second⟩ := reads
      cases same
      rw [live] at found
      cases found
      exact second

theorem sockRead_keeps {o : Occurrence} {i : Slot}
    (taken : Hvsftpd.sockRead fs s o i = some t) : s.Keeps t (¬ ReadsSecond s o i) := by
  unfold Hvsftpd.sockRead at taken
  obtain ⟨after, received, freed⟩ := Option.bind_eq_some_iff.mp taken
  split at received
  · have closed := (s.alike_setState i .closed).keeps
    have kept := closed.trans ((chunkReceived_keeps received).trans (freeClosed_keeps freed))
    refine kept.congr ?_
    rw [true_and, and_true]
    unfold ReadsSecond
    simp only [secondOpened_setState]
    exact Iff.rfl
  · have kept := (chunkReceived_keeps received).trans (freeClosed_keeps freed)
    exact kept.congr (and_iff_left trivial)

/-- A callback of a data socket closes the data connection of its session. -/
theorem ofSession_keeps {i : Slot} {work : Machine φ → Option (Machine φ)}
    (closes : ∀ m m', work m = some m' → ∃ d, Closed m m' d)
    (taken : ofSession s i work = some t) : s.Keeps t True := by
  unfold ofSession at taken
  obtain ⟨a, -, taken⟩ := Option.bind_eq_some_iff.mp taken
  obtain ⟨session, live, taken⟩ := Option.bind_eq_some_iff.mp taken
  obtain ⟨m, worked, same⟩ := Option.map_eq_some_iff.mp taken
  obtain ⟨d, closed⟩ := closes _ m worked
  exact same ▸ closed.keeps live rfl

theorem sockTransfer_closes (m m' : Machine φ)
    (worked : m.session.callback.bind (runCallback fs env m) = some m') : ∃ d, Closed m m' d := by
  obtain ⟨callback, -, worked⟩ := Option.bind_eq_some_iff.mp worked
  exact runCallback_closed worked

theorem sockExcept_closes (m m' : Machine φ)
    (worked : sessionClosedata
      (sessionResponse m "501 Cannot RETR. Client data socket connection Error.") = some m') :
    ∃ d, Closed m m' d := by
  have replied : Works m (sessionResponse m
      "501 Cannot RETR. Client data socket connection Error.") := ⟨fun _ _ => rfl, rfl, rfl, rfl, rfl⟩
  exact replied.closed worked

theorem callBack_keeps {o : Occurrence} {i : Slot} {callback : SockCallback}
    (taken : callBack fs s o i callback = some t) :
    s.Keeps t (¬ (callback = .commandRead ∧ ReadsSecond s o i)) := by
  cases callback with
  | commandAccept =>
    cases taken
    exact (sockAccept_keeps o).congr (iff_of_true trivial fun reads => nomatch reads.1)
  | commandRead =>
    exact (sockRead_keeps taken).congr (not_congr (and_iff_right rfl).symm)
  | dataRead | dataWrite =>
    exact (ofSession_keeps sockTransfer_closes taken).congr
      (iff_of_true trivial fun reads => nomatch reads.1)
  | dataExcept =>
    exact (ofSession_keeps sockExcept_closes taken).congr
      (iff_of_true trivial fun reads => nomatch reads.1)

/-- Of every state and every callback that has a result. -/
theorem serverStep_keeps {o : Occurrence} (taken : serverStep fs s o = some t) :
    s.Keeps t (¬ OpensSecond s o) := by
  unfold serverStep at taken
  dsimp only at taken
  split at taken
  · case isTrue unused =>
    cases taken
    exact (Server.Keeps.refl s).congr (iff_of_true trivial fun opens => opens.1 unused)
  · case isFalse inUse =>
    obtain ⟨callback, points, taken⟩ := Option.bind_eq_some_iff.mp taken
    refine ((alike_reported s o.slot o.ready).keeps.trans (callBack_keeps taken)).congr ?_
    rw [true_and, readsSecond_reported]
    unfold OpensSecond
    rw [points, Option.some.injEq]
    exact not_congr (and_iff_right inUse).symm

/-! ### Callbacks that open a second data connection have a result -/

theorem commandReceived_opens {i : Slot} {a : Nat} {session : Session} {buf : List INT8U}
    (live : s.sessions a = some session) (second : SecondOpened env s session buf) :
    ∃ t, commandReceived fs env s i a buf = some t ∧ (t.sessions a).isSome := by
  obtain ⟨completed, opens, connects, -⟩ := second
  have connects : ConnectsFor env
      (s.machine a (session.withCommand (cmdAppend session.cmdBuf.text buf).2)) := connects
  obtain ⟨m, j, handled, opened⟩ := cmdDisptach_opens fs opens connects
  refine ⟨s.after { m with session := m.session.withCommand [] }, ?_, ?_⟩
  · unfold commandReceived
    simp only [live, Option.bind_some, completed, if_true, handled, Option.map_some]
  · have self : m.self = a := opened.self
    have put := s.after_sessions { m with session := m.session.withCommand [] }
    rw [← self]
    exact Option.isSome_iff_exists.mpr ⟨_, put⟩

theorem freeClosed_defined {i : Slot} {a : Nat} (live : (s.sessions a).isSome) :
    ∃ t, freeClosed s i (some a) = some t := by
  obtain ⟨session, live⟩ := Option.isSome_iff_exists.mp live
  unfold freeClosed
  split
  · unfold sessionFree
    rw [Option.bind_some, live]
    exact ⟨_, rfl⟩
  · exact ⟨s, rfl⟩

theorem sockRead_opens {o : Occurrence} {i : Slot} (reads : ReadsSecond s o i) :
    ∃ t, Hvsftpd.sockRead fs s o i = some t := by
  obtain ⟨full, a, session, userData, live, second⟩ := reads
  unfold Hvsftpd.sockRead chunkReceived
  simp only [if_neg full, userData, Option.bind_some]
  have received : ∃ after, commandReceived fs o.env
      (if (socketRead o.received).2 = true then s.setState i .closed else s) i a
        (socketRead o.received).1 = some after ∧ (after.sessions a).isSome := by
    split
    · exact commandReceived_opens live (secondOpened_setState.mpr second)
    · exact commandReceived_opens live second
  obtain ⟨after, received, still⟩ := received
  rw [received, Option.bind_some]
  exact freeClosed_defined still

theorem serverStep_opens (fs : FileSystem φ) {o : Occurrence} (opens : OpensSecond s o) :
    ∃ t, serverStep fs s o = some t := by
  obtain ⟨inUse, points, reads⟩ := opens
  unfold serverStep
  simp only [if_neg inUse, points, Option.bind_some]
  exact sockRead_opens ((readsSecond_reported o.ready).mpr reads)

/-! ### Runs -/

theorem linked_started (fd : Nat) (files : φ) : (Server.started fd files).Linked := by
  refine ⟨?_, fun a session live => (nomatch live), Option.some_ne_none fd⟩
  intro i k held
  obtain ⟨a, session, -, live, -⟩ := mem_slotsOf_iff.mp held
  cases live

theorem slotsLive_started (fd : Nat) (files : φ) : SlotsLive (Server.started fd files) := by
  intro i client inUse
  have other : i ≠ 0 := client
  have cleared : (Server.started fd files).sockList i = Hfsocket.cleared := by
    unfold Server.started
    dsimp only
    rw [Function.update_of_ne other]
  rw [cleared] at inUse
  exact absurd rfl inUse

/-- A step keeps every socket accounted for exactly when it opens no second data
connection. -/
theorem serverStep_iff (s : Hvsftpd.Server φ) (o : Occurrence) (linked : s.Linked) (live : SlotsLive s) :
    ¬ OpensSecond s o ↔ ∀ t, serverStep fs s o = some t → SlotsLive t := by
  constructor
  · intro first t taken
    obtain ⟨-, counts⟩ := serverStep_keeps taken linked
    exact slotsLive_iff.mpr (counts.mpr ⟨slotsLive_iff.mp live, first⟩)
  · intro lives opens
    obtain ⟨t, taken⟩ := serverStep_opens fs opens
    obtain ⟨-, counts⟩ := serverStep_keeps taken linked
    exact (counts.mp (slotsLive_iff.mp (lives t taken))).2 opens

/-- In every run from the start, every socket in use belongs to a session in memory that
refers to it, throughout the run exactly when no command opens a second data connection. A run
reaches no further state where a path overruns its block, a `NULL` pointer or a freed session is
used, or an upload does not end. -/
theorem slotsLive_throughout_iff (fs : FileSystem φ) (fd : Nat) (files : φ)
    (events : List Occurrence) :
    Throughout (serverStep fs) SlotsLive (Server.started fd files) events ↔
      EachStep (serverStep fs) (fun s o => ¬ OpensSecond s o) (Server.started fd files) events :=
  throughout_iff (fun _ _ _ linked taken => (serverStep_keeps taken linked).1) serverStep_iff
    (linked_started fd files) (slotsLive_started fd files)

/-- A client that is given slot 1, and a session at address 100. -/
def clientAccepted : Occurrence where
  slot := 0
  ready := .readable
  accept := some 5
  nodelay := true
  address := some 100
  received := ⟨none, true⟩
  env := Surroundings.plain

/-- What the client sends. -/
def clientSends (text : String) : Occurrence :=
  { clientAccepted with slot := 1, received := ⟨some (asciiBytes text), false⟩ }

def listTwice : List Occurrence :=
  [clientAccepted, clientSends "PORT 192,168,0,9,4,1\r\n", clientSends "LIST\r\n",
    clientSends "LIST\r\n"]

/-- The first data connection of a client that asks for two is left behind, on slot 2. -/
theorem not_slotsLive_listTwice :
    ¬ Throughout (serverStep FileSystem.names) SlotsLive (Server.started 3 []) listTwice := by
  intro throughout
  have reached : (listTwice.foldlM (serverStep FileSystem.names) (Server.started 3 [])).any
      (fun t => t.sockServer ≠ 2 ∧ (t.sockList 2).fd ≠ none ∧ (t.sockList 2).userData = some 100 ∧
        (t.sessions 100).map Session.refers = some (some 1, some 3)) = true := by decide +kernel
  obtain ⟨t, run, observed⟩ := (Option.any_eq_true _ _).mp reached
  obtain ⟨server, inUse, userData, refers⟩ := of_decide_eq_true observed
  obtain ⟨a, session, owner, live, held⟩ := throughout_last throughout run 2 server.symm inUse
  rw [userData] at owner
  cases owner
  rw [live] at refers
  obtain ⟨cmdSock, dataSock⟩ := Prod.mk.inj (Option.some.inj refers)
  rw [cmdSock, dataSock] at held
  exact absurd held (by decide)

end GasSub.Guarantees.SlotLiveness
