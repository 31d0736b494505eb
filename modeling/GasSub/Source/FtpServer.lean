import GasSub.Source.FtpEffects

/-!
# The FTP server

`hvsftpd.c` over the socket table: accepting a client, reading its commands, and
the callbacks that `socket_block` makes for a socket `select` reports. A session
that was freed is not in memory any more; using it, or a `NULL` pointer, has no
result.
-/
namespace GasSub.Source.Hvsftpd
open GasSub.Library.CharArray

variable {φ : Type}

/-- The sockets, the sessions in memory by address, and the count of `session.c`. -/
structure Server (φ : Type) where
  sockList : SockList
  sockServer : Slot
  sessions : Nat → Option Session
  sessionCount : Int
  files : φ

/-- What `select` reports of a socket. -/
inductive Readiness where
  | readable | writeable | exceptional
  deriving DecidableEq, Repr

/-- One callback of `socket_block`, and what it meets: the descriptor `accept` gives, the
status of `socket_set_nodelay` (whose result is not initialised), the address `malloc`
gives for a session, and what `recv` gives on the socket itself. -/
structure Occurrence where
  slot : Slot
  ready : Readiness
  accept : Option Nat
  nodelay : Bool
  address : Option Nat
  received : Received
  env : Surroundings

/-- After `hvsftpd_main` has set up the socket it listens on. -/
def Server.started (fd : Nat) (files : φ) : Server φ where
  sockList := Function.update (fun _ => Hfsocket.cleared) 0
    { Hfsocket.cleared with
      fd := some fd
      interest := socketReadable
      sockAccept := some .commandAccept }
  sockServer := 0
  sessions := fun _ => none
  sessionCount := 0
  files := files

/-! ### `session_alloc` and `session_free` -/

/-- An address in use is not given out. -/
def sessionAlloc (s : Server φ) (address : Option Nat) : Option (Nat × Server φ) :=
  if s.sessionCount < maxSession then
    match address with
    | none => none
    | some a =>
      if (s.sessions a).isSome then none
      else
        some (a, { s with
          sessions := Function.update s.sessions a (some Session.cleared)
          sessionCount := s.sessionCount + 1 })
  else none

def freeIfSet (socks : SockList) : Option Slot → SockList
  | none => socks
  | some i => socketFree socks i

def sessionFree (s : Server φ) (a : Nat) : Option (Server φ) :=
  (s.sessions a).map fun session =>
    { s with
      sockList := freeIfSet (freeIfSet s.sockList session.cmdSock) session.dataSock
      sessions := Function.update s.sessions a none
      sessionCount := s.sessionCount - 1 }

/-! ### Callbacks -/

def socketAccept (o : Occurrence) (socks : SockList) : Option Slot × SockList :=
  match o.accept with
  | none => (none, socks)
  | some fd =>
    if o.nodelay then
      match socketAlloc socks with
      | none => (none, socks)
      | some (i, socks) =>
        (some i, Function.update socks i { socks i with fd := some fd, state := .connected })
    else (none, socks)

/-- The socket of a client, as `sockAccept` sets it up. -/
def clientSocket (sock : Hfsocket) (session : Option Nat) : Hfsocket :=
  { sock with
    userData := session
    sockRead := some .commandRead
    interest := socketReadable }

def sockAccept (s : Server φ) (o : Occurrence) : Server φ :=
  match socketAccept o s.sockList with
  | (none, socks) => { s with sockList := socks }
  | (some i, socks) =>
    match sessionAlloc s o.address with
    | none =>
      { s with
        sockList := socketFree (Function.update socks i (clientSocket (socks i) none)) i }
    | some (a, s) =>
      { s with
        sockList := Function.update socks i (clientSocket (socks i) (some a))
        sessions := Function.update s.sessions a (some (Session.accepted i)) }

/-- A session at work. -/
def Server.machine (s : Server φ) (a : Nat) (session : Session) : Machine φ :=
  ⟨s.sockList, a, session, s.files, [], [], []⟩

def Server.after (s : Server φ) (m : Machine φ) : Server φ :=
  { s with
    sockList := m.sockList
    sessions := Function.update s.sessions m.self (some m.session)
    files := m.files }

theorem Server.after_sessions (s : Server φ) (m : Machine φ) :
    (s.after m).sessions m.self = some m.session := Function.update_self _ _ _

def Server.setState (s : Server φ) (i : Slot) (state : SocketState) : Server φ :=
  { s with sockList := Function.update s.sockList i { s.sockList i with state } }

def Session.withCommand (session : Session) (cmd : List INT8U) : Session :=
  { session with cmdBuf := session.cmdBuf.write cmd }

/-- The command a chunk completes is run; a status other than `HF_OK` closes the socket. -/
def commandReceived (fs : FileSystem φ) (env : Surroundings) (s : Server φ) (i : Slot) (a : Nat)
    (buf : List INT8U) : Option (Server φ) :=
  (s.sessions a).bind fun session =>
    let appended := cmdAppend session.cmdBuf.text buf
    let stored := session.withCommand appended.2
    if appended.1 then
      (cmdDisptach fs env stored.cmdBuf.text (s.machine a stored)).map fun out =>
        let s := s.after { out.1 with session := out.1.session.withCommand [] }
        if out.2 = .ok then s else s.setState i .closed
    else some (s.after (s.machine a stored))

def chunkReceived (fs : FileSystem φ) (env : Surroundings) (s : Server φ) (i : Slot)
    (session : Option Nat) (buf : List INT8U) : Option (Server φ) :=
  if buf = [] then some s else session.bind fun a => commandReceived fs env s i a buf

def freeClosed (s : Server φ) (i : Slot) (session : Option Nat) : Option (Server φ) :=
  if (s.sockList i).state = .closed then session.bind (sessionFree s) else some s

def sockRead (fs : FileSystem φ) (s : Server φ) (o : Occurrence) (i : Slot) :
    Option (Server φ) :=
  let session := (s.sockList i).userData
  let read := socketRead o.received
  let s := if read.2 then s.setState i .closed else s
  (chunkReceived fs o.env s i session read.1).bind fun s => freeClosed s i session

/-- The session a data socket belongs to, at work. -/
def ofSession (s : Server φ) (i : Slot) (work : Machine φ → Option (Machine φ)) :
    Option (Server φ) :=
  (s.sockList i).userData.bind fun a =>
    (s.sessions a).bind fun session => (work (s.machine a session)).map s.after

/-- `sockRead` and `sockWrite` of `session.c`. -/
def sockTransfer (fs : FileSystem φ) (s : Server φ) (o : Occurrence) (i : Slot) :
    Option (Server φ) :=
  ofSession s i fun m => m.session.callback.bind (runCallback fs o.env m)

def sockExcept (s : Server φ) (i : Slot) : Option (Server φ) :=
  ofSession s i fun m =>
    sessionClosedata
      (sessionResponse m "501 Cannot RETR. Client data socket connection Error.")

def callBack (fs : FileSystem φ) (s : Server φ) (o : Occurrence) (i : Slot) :
    SockCallback → Option (Server φ)
  | .commandAccept => some (sockAccept s o)
  | .commandRead => sockRead fs s o i
  | .dataRead => sockTransfer fs s o i
  | .dataWrite => sockTransfer fs s o i
  | .dataExcept => sockExcept s i

/-! ### `socket_block` -/

/-- A connecting socket that becomes readable is connected. -/
def SocketState.readable : SocketState → SocketState
  | .connecting => .connected
  | state => state

def Hfsocket.callback (sock : Hfsocket) : Readiness → Option SockCallback
  | .readable => if sock.state.readable = .listening then sock.sockAccept else sock.sockRead
  | .writeable => sock.sockWrite
  | .exceptional => sock.sockExcept

def Server.reported (s : Server φ) (i : Slot) : Readiness → Server φ
  | .readable => s.setState i (s.sockList i).state.readable
  | _ => s

/-- One callback; a socket that is not in use any more is passed over. -/
def serverStep (fs : FileSystem φ) (s : Server φ) (o : Occurrence) : Option (Server φ) :=
  let sock := s.sockList o.slot
  if sock.fd = none then some s
  else (sock.callback o.ready).bind (callBack fs (s.reported o.slot o.ready) o o.slot)

end GasSub.Source.Hvsftpd
