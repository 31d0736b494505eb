import GasSub.Library.Ownership
import GasSub.Source.FtpServer
import GasSub.Source.FtpTransfers

/-!
# Who uses the FTP sockets

The socket table of the server against its sessions: which session `user_data`
says a socket belongs to, and which sockets a session refers to. Every callback
gives a session one free socket, takes sockets away from one, or does neither.
-/
namespace GasSub.Source.Hvsftpd
open GasSub.Library.Ownership GasSub.Library.CharArray

variable {φ : Type} {m m' : Machine φ}

def Session.slots (s : Session) : Set Slot := { i | s.cmdSock = some i ∨ s.dataSock = some i }

def slotsOf (sessions : Nat → Option Session) : Option Nat → Set Slot
  | none => ∅
  | some a => ((sessions a).map Session.slots).getD ∅

/-- The sockets of the clients, without the one the server listens on. -/
def Server.ledger (s : Server φ) : Ledger Slot (Option Nat) where
  owner := fun i => if i = s.sockServer then none else (s.sockList i).owner
  holds := slotsOf s.sessions

/-- What every callback keeps: a session refers to sockets of its own, its data socket is
not its command socket, and the server listens. -/
structure Server.Linked (s : Server φ) : Prop where
  backed : s.ledger.Backed
  apart : ∀ a session, s.sessions a = some session →
    ∀ i, session.dataSock = some i → session.cmdSock ≠ some i
  listens : (s.sockList s.sockServer).fd ≠ none

theorem slotsOf_some {sessions : Nat → Option Session} {a : Nat} {session : Session}
    (live : sessions a = some session) : slotsOf sessions (some a) = session.slots := by
  rw [slotsOf, live, Option.map_some, Option.getD_some]

theorem slotsOf_gone {sessions : Nat → Option Session} {a : Nat} (gone : sessions a = none) :
    slotsOf sessions (some a) = ∅ := by
  rw [slotsOf, gone, Option.map_none, Option.getD_none]

theorem mem_slotsOf_iff {sessions : Nat → Option Session} {k : Option Nat} {i : Slot} :
    i ∈ slotsOf sessions k ↔
      ∃ a session, k = some a ∧ sessions a = some session ∧ i ∈ session.slots := by
  constructor
  · intro held
    cases k with
    | none => exact held.elim
    | some a =>
      cases live : sessions a with
      | none =>
        rw [slotsOf_gone live] at held
        exact held.elim
      | some session =>
        rw [slotsOf_some live] at held
        exact ⟨a, session, rfl, live, held⟩
  · intro refers
    obtain ⟨a, session, same, live, held⟩ := refers
    rw [same, slotsOf_some live]
    exact held

theorem slotsOf_update_of_ne {sessions : Nat → Option Session} {a : Nat} {k : Option Nat}
    (other : k ≠ some a) (session : Option Session) :
    slotsOf (Function.update sessions a session) k = slotsOf sessions k := by
  cases k with
  | none => rfl
  | some b =>
    have differs : b ≠ a := fun same => other (congrArg some same)
    rw [slotsOf, slotsOf, Function.update_of_ne differs]

theorem Server.ledger_owner_free {s : Server φ} {i : Slot} (free : (s.sockList i).fd = none) :
    s.ledger.owner i = none := by
  unfold Server.ledger
  dsimp only
  split
  · rfl
  · exact owner_eq_none_iff.mpr free

theorem Server.ledger_owner_client {s : Server φ} {i : Slot} (client : i ≠ s.sockServer) :
    s.ledger.owner i = (s.sockList i).owner := if_neg client

theorem Server.Linked.client_of_free {s : Server φ} (linked : s.Linked) {i : Slot}
    (free : (s.sockList i).fd = none) : i ≠ s.sockServer := by
  intro same
  rw [same] at free
  exact linked.listens free

theorem Server.Linked.client {s : Server φ} (linked : s.Linked) {k : Option Nat} {i : Slot}
    (held : i ∈ s.ledger.holds k) : i ≠ s.sockServer :=
  linked.backed.ne_of_free (if_pos rfl) held

/-! ### What a step does to the ledger -/

/-- From a linked server to a linked server, with every socket accounted for exactly when
it was before and `cond` holds. -/
def Server.Keeps (s t : Server φ) (cond : Prop) : Prop :=
  s.Linked → t.Linked ∧ (t.ledger.Accounted ↔ s.ledger.Accounted ∧ cond)

theorem Server.Keeps.trans {s t u : Server φ} {cond other : Prop} (first : s.Keeps t cond)
    (second : t.Keeps u other) : s.Keeps u (cond ∧ other) := by
  intro linked
  obtain ⟨linked, counts⟩ := first linked
  obtain ⟨linked, counts'⟩ := second linked
  refine ⟨linked, ?_⟩
  rw [counts', counts, and_assoc]

theorem Server.Keeps.congr {s t : Server φ} {cond other : Prop} (keeps : s.Keeps t cond)
    (agree : cond ↔ other) : s.Keeps t other := propext agree ▸ keeps

theorem Session.slots_single {s : Session} (only : s.dataSock = none) :
    s.slots = { i | s.cmdSock = some i } := by
  ext i
  unfold slots
  rw [only]
  exact or_iff_left fun absent => nomatch absent

theorem Session.slots_pair {s : Session} {d : Slot} (isData : s.dataSock = some d) :
    s.slots = insert d { i | s.cmdSock = some i } := by
  ext i
  unfold slots
  rw [isData]
  have here : some d = some i ↔ i = d := by rw [Option.some.injEq, eq_comm]
  exact or_comm.trans (or_congr_left here)

theorem Session.slots_congr {s t : Session} (same : t.refers = s.refers) : t.slots = s.slots := by
  obtain ⟨cmdSock, dataSock⟩ := Prod.mk.inj same
  unfold Session.slots
  rw [cmdSock, dataSock]

/-- Sockets and sessions belong together as before. -/
structure Server.Alike (s t : Server φ) : Prop where
  sockServer : t.sockServer = s.sockServer
  owner : ∀ i, (t.sockList i).owner = (s.sockList i).owner
  sessions : ∀ a, (t.sessions a).map Session.refers = (s.sessions a).map Session.refers

theorem Server.Alike.ledger {s t : Server φ} (alike : s.Alike t) : t.ledger = s.ledger := by
  refine Ledger.ext (funext fun i => ?_) (funext fun k => ?_)
  · change (if i = t.sockServer then none else (t.sockList i).owner) = _
    rw [alike.sockServer, alike.owner]
    rfl
  · change slotsOf t.sessions k = slotsOf s.sessions k
    cases k with
    | none => rfl
    | some a =>
      have same := alike.sessions a
      cases live : s.sessions a with
      | none =>
        rw [live, Option.map_none, Option.map_eq_none_iff] at same
        rw [slotsOf_gone live, slotsOf_gone same]
      | some session =>
        rw [live, Option.map_some, Option.map_eq_some_iff] at same
        obtain ⟨other, live', refers⟩ := same
        rw [slotsOf_some live, slotsOf_some live', Session.slots_congr refers]

theorem Server.Alike.keeps {s t : Server φ} (alike : s.Alike t) : s.Keeps t True := by
  intro linked
  refine ⟨⟨alike.ledger ▸ linked.backed, ?_, ?_⟩, by rw [alike.ledger, and_true]⟩
  · intro a session live
    have same := alike.sessions a
    rw [live, Option.map_some, eq_comm, Option.map_eq_some_iff] at same
    obtain ⟨other, live', refers⟩ := same
    obtain ⟨cmdSock, dataSock⟩ := Prod.mk.inj refers
    rw [← cmdSock, ← dataSock]
    exact linked.apart a other live'
  · intro free
    rw [alike.sockServer, ← owner_eq_none_iff, alike.owner, owner_eq_none_iff] at free
    exact linked.listens free

theorem Server.Keeps.refl (s : Server φ) : s.Keeps s True :=
  fun linked => ⟨linked, (and_true _).symm ▸ Iff.rfl⟩

theorem Server.alike_setState (s : Server φ) (i : Slot) (state : SocketState) :
    s.Alike (s.setState i state) := by
  refine ⟨rfl, fun j => ?_, fun _ => rfl⟩
  unfold setState
  dsimp only
  by_cases here : j = i
  · rw [here, Function.update_self]
    rfl
  · rw [Function.update_of_ne here]

/-! ### Callbacks of the server -/

variable {s : Server φ} {a : Nat} {session stored : Session}

/-- The command buffer is none of the sockets' business. -/
theorem Opened.withCommand {i : Slot} (opened : Opened m m' i) (cmd : List INT8U) :
    Opened m { m' with session := m'.session.withCommand cmd } i :=
  ⟨opened.replied, opened.free, opened.taken, opened.userData, opened.others, opened.self,
    opened.cmdSock, opened.dataSock, opened.rootDir, opened.renamingPath⟩

theorem SocketsKept.withCommand (kept : SocketsKept m m') (cmd : List INT8U) :
    SocketsKept m { m' with session := m'.session.withCommand cmd } :=
  ⟨kept.untaken, kept.self, kept.refers, kept.rootDir⟩

theorem Server.after_slotsOf (self : m.self = a) :
    (s.after m).ledger.holds (some a) = m.session.slots :=
  slotsOf_some (self ▸ s.after_sessions m)

theorem Server.after_slotsOf_of_ne (self : m.self = a) {k : Option Nat} (other : k ≠ some a) :
    (s.after m).ledger.holds k = s.ledger.holds k :=
  slotsOf_update_of_ne (self ▸ other) _

/-- A session whose two sockets differ, put back among the others. -/
theorem Server.Linked.apart_after (linked : s.Linked)
    (differ : ∀ i, m.session.dataSock = some i → m.session.cmdSock ≠ some i) :
    ∀ b session, (s.after m).sessions b = some session →
      ∀ i, session.dataSock = some i → session.cmdSock ≠ some i := by
  intro b session live
  by_cases mine : b = m.self
  · subst mine
    rw [s.after_sessions m] at live
    cases live
    exact differ
  · have same : (s.after m).sessions b = s.sessions b := Function.update_of_ne mine _ _
    exact linked.apart b session (same ▸ live)

theorem SocketsKept.alike (live : s.sessions a = some session)
    (refers : stored.refers = session.refers) (kept : SocketsKept (s.machine a stored) m) :
    s.Alike (s.after m) where
  sockServer := rfl
  owner := kept.owner
  sessions := by
    intro b
    have self : m.self = a := kept.self
    by_cases mine : b = a
    · subst mine
      have same : (s.after m).sessions b = some m.session := self ▸ s.after_sessions m
      rw [same, live, Option.map_some, Option.map_some, kept.refers, ← refers]
      rfl
    · have same : (s.after m).sessions b = s.sessions b :=
        Function.update_of_ne (self ▸ mine) _ _
      rw [same]

theorem Server.after_owner {j : Slot} (same : m.sockList j = s.sockList j) :
    (s.after m).ledger.owner j = s.ledger.owner j := by
  change (if j = s.sockServer then none else (m.sockList j).owner) = _
  rw [same]
  rfl

theorem Opened.assigned {i : Slot} (linked : s.Linked) (live : s.sessions a = some session)
    (refers : stored.refers = session.refers) (opened : Opened (s.machine a stored) m i) :
    Ledger.Assigned s.ledger (s.after m).ledger (some a) i { j | session.cmdSock = some j } := by
  have self : m.self = a := opened.self
  have held : s.ledger.holds (some a) = session.slots := slotsOf_some live
  obtain ⟨cmdSock, -⟩ := Prod.mk.inj refers
  have sameCmd : m.session.cmdSock = session.cmdSock := opened.cmdSock.trans cmdSock
  have client := linked.client_of_free opened.free
  have owned : (m.sockList i).owner = some (some a) := by
    obtain ⟨fd, given⟩ := Option.ne_none_iff_exists'.mp opened.taken
    rw [Hfsocket.owner, given, Option.map_some, opened.userData]
    rfl
  refine ⟨Server.ledger_owner_free opened.free, ?_, ?_, ?_, ?_, ?_⟩
  · exact (Server.ledger_owner_client (s := s.after m) client).trans owned
  · exact fun j other => Server.after_owner (opened.others j other)
  · exact fun j cmd => held.symm ▸ Or.inl cmd
  · rw [Server.after_slotsOf self, Session.slots_pair opened.dataSock, sameCmd]
  · exact fun o other => Server.after_slotsOf_of_ne self other

/-- A data connection keeps the sockets accounted for exactly when it is the only one. -/
theorem Opened.keeps {i : Slot} (live : s.sessions a = some session)
    (refers : stored.refers = session.refers) (opened : Opened (s.machine a stored) m i) :
    s.Keeps (s.after m) (session.dataSock = none) := by
  intro linked
  have assigned := opened.assigned linked live refers
  have held : s.ledger.holds (some a) = session.slots := slotsOf_some live
  obtain ⟨cmdSock, -⟩ := Prod.mk.inj refers
  have sameCmd : m.session.cmdSock = session.cmdSock := opened.cmdSock.trans cmdSock
  refine ⟨⟨assigned.backed linked.backed, linked.apart_after ?_, ?_⟩, ?_⟩
  · intro j isData isCmd
    rw [opened.dataSock] at isData
    cases isData
    -- the new socket was free, the command socket is in use
    have cmd : i ∈ s.ledger.holds (some a) := held ▸ Or.inl (sameCmd ▸ isCmd)
    exact linked.backed.ne_of_free assigned.free cmd rfl
  · intro free
    have client := linked.client_of_free opened.free
    have same : m.sockList s.sockServer = s.sockList s.sockServer := opened.others _ client.symm
    exact linked.listens (same ▸ free)
  · rw [assigned.accounted_iff linked.backed, held]
    refine and_congr_right fun _ => ?_
    constructor
    · intro all
      by_contra second
      obtain ⟨d, isData⟩ := Option.ne_none_iff_exists'.mp second
      exact linked.apart a session live d isData (all (Or.inr isData))
    · intro first
      rw [Session.slots_single first]

theorem Closed.vacated {d : Slot} (linked : s.Linked) (live : s.sessions a = some session)
    (refers : stored.refers = session.refers) (closed : Closed (s.machine a stored) m d) :
    Ledger.Vacated s.ledger (s.after m).ledger (some a) {d} := by
  obtain ⟨cmdSock, dataSock⟩ := Prod.mk.inj refers
  have sameCmd : m.session.cmdSock = session.cmdSock := closed.cmdSock.trans cmdSock
  have isData : session.dataSock = some d := dataSock.symm.trans closed.opened
  have self : m.self = a := closed.self
  have held : s.ledger.holds (some a) = session.slots := slotsOf_some live
  have notCmd : d ∉ { i | session.cmdSock = some i } := linked.apart a session live d isData
  refine ⟨?_, ?_, ?_, ?_, ?_⟩
  · intro j here
    rw [Set.mem_singleton_iff.mp here]
    exact Server.ledger_owner_free closed.freed
  · exact fun j other => Server.after_owner (closed.others j other)
  · exact Set.singleton_subset_iff.mpr (held.symm ▸ Or.inr isData)
  · rw [Server.after_slotsOf self, held, Session.slots_single closed.dataSock, sameCmd,
      Session.slots_pair isData, Set.insert_sdiff_self_of_notMem notCmd]
  · exact fun o other => Server.after_slotsOf_of_ne self other

theorem Closed.keeps {d : Slot} (live : s.sessions a = some session)
    (refers : stored.refers = session.refers) (closed : Closed (s.machine a stored) m d) :
    s.Keeps (s.after m) True := by
  intro linked
  have vacated := closed.vacated linked live refers
  refine ⟨⟨vacated.backed linked.backed, linked.apart_after ?_, ?_⟩, ?_⟩
  · intro i isData
    rw [closed.dataSock] at isData
    cases isData
  · intro free
    have client := linked.client (vacated.within rfl)
    have same : m.sockList s.sockServer = s.sockList s.sockServer := closed.others _ client.symm
    exact linked.listens (same ▸ free)
  · rw [vacated.accounted_iff linked.backed, and_true]

theorem freeIfSet_self (socks : SockList) (i : Slot) : (freeIfSet socks (some i) i).fd = none := by
  simp only [freeIfSet, socketFree, Function.update_self]

theorem freeIfSet_of_ne {socks : SockList} {o : Option Slot} {i : Slot} (other : o ≠ some i) :
    freeIfSet socks o i = socks i := by
  cases o with
  | none => rfl
  | some j => exact Function.update_of_ne (fun same => other (congrArg some same.symm)) _ _

theorem freeIfSet_free {socks : SockList} {o : Option Slot} {i : Slot}
    (free : (socks i).fd = none) : (freeIfSet socks o i).fd = none := by
  by_cases here : o = some i
  · rw [here, freeIfSet_self]
  · rw [freeIfSet_of_ne here, free]

theorem freeIfSet_others {socks : SockList} {i : Slot} (outside : i ∉ session.slots) :
    freeIfSet (freeIfSet socks session.cmdSock) session.dataSock i = socks i := by
  rw [freeIfSet_of_ne fun isData => outside (Or.inr isData),
    freeIfSet_of_ne fun isCmd => outside (Or.inl isCmd)]

/-- Freeing a session frees its sockets, and no other. -/
theorem sessionFree_vacated {t : Server φ} (live : s.sessions a = some session)
    (taken : sessionFree s a = some t) :
    Ledger.Vacated s.ledger t.ledger (some a) session.slots := by
  have held : s.ledger.holds (some a) = session.slots := slotsOf_some live
  unfold sessionFree at taken
  rw [live] at taken
  cases taken
  refine ⟨?_, ?_, held.symm.subset, ?_, ?_⟩
  · intro j mine
    apply Server.ledger_owner_free
    dsimp only
    rcases mine with isCmd | isData
    · apply freeIfSet_free
      rw [isCmd, freeIfSet_self]
    · rw [isData, freeIfSet_self]
  · intro j outside
    unfold Server.ledger
    dsimp only
    rw [freeIfSet_others outside]
  · rw [held, Set.sdiff_self]
    exact slotsOf_gone (Function.update_self _ _ _)
  · exact fun o other => slotsOf_update_of_ne other _

theorem sessionFree_keeps {t : Server φ} (taken : sessionFree s a = some t) : s.Keeps t True := by
  intro linked
  obtain ⟨session, live, same⟩ := Option.map_eq_some_iff.mp taken
  have vacated := sessionFree_vacated live taken
  subst same
  refine ⟨⟨vacated.backed linked.backed, fun b other found => ?_, fun free => ?_⟩, ?_⟩
  · dsimp only at found
    by_cases gone : b = a
    · rw [gone, Function.update_self] at found
      cases found
    · rw [Function.update_of_ne gone] at found
      exact linked.apart b other found
  · dsimp only at free
    have outside : s.sockServer ∉ session.slots := fun held =>
      linked.client (vacated.within held) rfl
    rw [freeIfSet_others outside] at free
    exact linked.listens free
  · rw [vacated.accounted_iff linked.backed, and_true]

/-! ### Accepting a client -/

theorem socketAccept_cases (o : Occurrence) (socks : SockList) :
    socketAccept o socks = (none, socks) ∨
      ∃ i fd, (socks i).fd = none ∧ socketAccept o socks = (some i,
        Function.update socks i { Hfsocket.cleared with fd := some fd, state := .connected }) := by
  unfold socketAccept
  cases o.accept with
  | none => exact Or.inl rfl
  | some fd =>
    dsimp only
    by_cases nodelay : o.nodelay = true
    · rw [if_pos nodelay]
      cases allocated : socketAlloc socks with
      | none => exact Or.inl rfl
      | some given =>
        obtain ⟨i, cleared⟩ := given
        obtain ⟨free, rfl⟩ := socketAlloc_some allocated
        refine Or.inr ⟨i, fd, free, ?_⟩
        simp only [Function.update_self, Function.update_idem]
    · rw [if_neg nodelay]
      exact Or.inl rfl

theorem sessionAlloc_some {address : Option Nat} {t : Server φ}
    (allocated : sessionAlloc s address = some (a, t)) :
    s.sessions a = none ∧ t.sessions = Function.update s.sessions a (some Session.cleared) ∧
      t.sockServer = s.sockServer := by
  unfold sessionAlloc at allocated
  split at allocated
  · split at allocated
    · cases allocated
    · split at allocated
      · cases allocated
      · case isFalse unused =>
        cases allocated
        exact ⟨Option.not_isSome_iff_eq_none.mp unused, rfl, rfl⟩
  · cases allocated

/-- A session of a client that has just been accepted, on a socket that was free. -/
theorem accepted_keeps {t : Server φ} {i : Slot} (free : (s.sockList i).fd = none)
    (fresh : s.sessions a = none) (sockServer : t.sockServer = s.sockServer)
    (sessions : t.sessions = Function.update s.sessions a (some (Session.accepted i)))
    (taken : (t.sockList i).owner = some (some a))
    (others : ∀ j, j ≠ i → t.sockList j = s.sockList j) : s.Keeps t True := by
  intro linked
  have client := linked.client_of_free free
  have live : t.sessions a = some (Session.accepted i) := by
    rw [sessions, Function.update_self]
  have gone : s.ledger.holds (some a) = ∅ := slotsOf_gone fresh
  have held : t.ledger.holds (some a) = insert i ∅ := by
    refine (slotsOf_some live).trans ((Session.slots_single rfl).trans ?_)
    ext j
    rw [insert_empty_eq, Set.mem_singleton_iff]
    exact Option.some_inj.trans eq_comm
  have assigned : Ledger.Assigned s.ledger t.ledger (some a) i ∅ := by
    refine ⟨Server.ledger_owner_free free, ?_, ?_, Set.empty_subset _, held, ?_⟩
    · exact (Server.ledger_owner_client (sockServer ▸ client)).trans taken
    · intro j other
      change (if j = t.sockServer then none else (t.sockList j).owner) = _
      rw [sockServer, others j other]
      rfl
    · intro o other
      change slotsOf t.sessions o = _
      rw [sessions, slotsOf_update_of_ne other]
      rfl
  refine ⟨⟨assigned.backed linked.backed, fun b session found => ?_, fun closed => ?_⟩, ?_⟩
  · by_cases new : b = a
    · rw [new, live] at found
      cases found
      exact fun _ isData => nomatch isData
    · rw [sessions, Function.update_of_ne new] at found
      exact linked.apart b session found
  · rw [sockServer, others _ client.symm] at closed
    exact linked.listens closed
  · rw [assigned.accounted_iff linked.backed, gone]
    exact and_congr_right fun _ => iff_of_true (Set.Subset.refl ∅) trivial

theorem sockAccept_keeps (o : Occurrence) : s.Keeps (sockAccept s o) True := by
  unfold sockAccept
  rcases socketAccept_cases o s.sockList with refused | ⟨i, fd, free, accepted⟩
  · rw [refused]
    exact Server.Keeps.refl s
  · rw [accepted]
    dsimp only
    cases allocated : sessionAlloc s o.address with
    | none =>
      refine Server.Alike.keeps ⟨rfl, fun j => ?_, fun _ => rfl⟩
      by_cases here : j = i
      · subst here
        rw [owner_eq_none_iff.mpr free, owner_eq_none_iff]
        simp only [socketFree, Function.update_self]
      · simp only [socketFree, Function.update_of_ne here]
    | some given =>
      obtain ⟨a, t⟩ := given
      obtain ⟨fresh, sessions, sockServer⟩ := sessionAlloc_some allocated
      refine accepted_keeps free fresh sockServer ?_ ?_ fun j other => ?_
      · simp only [sessions, Function.update_idem]
      · simp only [Function.update_self]
        rfl
      · simp only [Function.update_of_ne other]

end GasSub.Source.Hvsftpd
