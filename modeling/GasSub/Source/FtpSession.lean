import Mathlib.Data.List.FinRange
import Mathlib.Logic.Function.Basic
import GasSub.Source.FtpPath

/-!
# FTP sockets and sessions

The socket table of `hfsocket.c` and the sessions of `session.c`. A descriptor
or pointer that is missing is `INVALID_SOCKET` or `NULL`; a session is known by
its address. The answers of lwIP and of `malloc` are given by the surroundings.
What is written to the command socket is recorded reply by reply: the text of a
`session_response`, or the format and arguments of a `session_format_response`.
-/
namespace GasSub.Source.Hvsftpd
open GasSub.Library.CharArray

def maxSession : Nat := 2
def maxSocket : Nat := 8

instance : NeZero maxSocket := ⟨by decide⟩

abbrev Slot := Fin maxSocket

/-! ### `hfsocket.h` and `session.h` -/

inductive SocketState where
  | listening | connecting | connected | closed
  deriving DecidableEq, Repr

def socketReadable : INT8U := 1
def socketWriteable : INT8U := 2
def socketException : INT8U := 4

/-- The functions the callbacks of a socket point to: `sockAccept` and `sockRead` of
`hvsftpd.c`, `sockRead`, `sockWrite` and `sockExcept` of `session.c`. -/
inductive SockCallback where
  | commandAccept | commandRead | dataRead | dataWrite | dataExcept
  deriving DecidableEq, Repr

structure Hfsocket where
  fd : Option Nat
  state : SocketState
  interest : INT8U
  sockAccept : Option SockCallback
  sockRead : Option SockCallback
  sockWrite : Option SockCallback
  sockExcept : Option SockCallback
  userData : Option Nat
  deriving DecidableEq, Repr

/-- After `memset`, with `INVALID_SOCKET`. -/
def Hfsocket.cleared : Hfsocket := ⟨none, .listening, 0, none, none, none, none, none⟩

abbrev SockList := Slot → Hfsocket

/-- The functions `session->callback` points to. -/
inductive SessionCallback where
  | listWrite | retrWrite | storRead
  deriving DecidableEq, Repr

/-- A `char [129]` that `strncpy` and `strncat` write with a bound of 128. -/
abbrev CharArray := Terminated (0 : INT8U) maxPathLen

structure Session where
  cmdSock : Option Slot
  dataSock : Option Slot
  callback : Option SessionCallback
  param : CharArray
  rootDir : CharArray
  currentDir : CharArray
  cmdBuf : CharArray
  renamingPath : CharArray
  addr : List INT8U
  port : INT16U

/-- After `memset`. -/
def Session.cleared : Session where
  cmdSock := none
  dataSock := none
  callback := none
  param := Terminated.zero 0 maxPathLen
  rootDir := Terminated.zero 0 maxPathLen
  currentDir := Terminated.zero 0 maxPathLen
  cmdBuf := Terminated.zero 0 maxPathLen
  renamingPath := Terminated.zero 0 maxPathLen
  addr := List.replicate 16 0
  port := 0

/-- As `sockAccept` sets it up. -/
def Session.accepted (sock : Slot) : Session :=
  { Session.cleared with
    cmdSock := some sock
    currentDir := Session.cleared.currentDir.write (asciiBytes "/")
    rootDir := Session.cleared.rootDir.write (asciiBytes "/nand") }

/-! ### Surroundings of a command -/

/-- What `recv` gives, without a result an error, and whether `errno` then is `EWOULDBLOCK`. -/
structure Received where
  result : Option (List INT8U)
  wouldBlock : Bool
  deriving DecidableEq, Repr

structure Surroundings where
  /-- The block as it is found, without a promise about its bytes. -/
  malloc : Nat → Option (List INT8U)
  malloc_size : ∀ n block, malloc n = some block → block.length = n
  socket : Option Nat
  setNonblock : Bool
  /-- Connected, or about to be. -/
  connect : List INT8U → INT16U → Bool
  /-- On the data socket, one call after another. -/
  recv : List Received

/-- A call into the file system, with the names it is given. -/
inductive FileCall where
  | stat (path : Path)
  | opendir (path : Path)
  | openFile (path : Path) (create : Bool)
  | unlink (path : Path)
  | rmdir (path : Path)
  | mkdir (path : Path)
  | rename (old new : Path)
  deriving DecidableEq, Repr

inductive Reply where
  | response (str : String)
  | format (fmt : String) (args : List (List INT8U))
  deriving DecidableEq, Repr

/-- What a command works on: the sockets, its session and its address, the files, and
what has been replied, called and sent over the data socket so far. -/
structure Machine (φ : Type) where
  sockList : SockList
  self : Nat
  session : Session
  files : φ
  replies : List Reply
  calls : List FileCall
  sent : List (List INT8U)

section
variable {φ : Type}

def sessionResponse (m : Machine φ) (str : String) : Machine φ :=
  { m with replies := m.replies ++ [.response str] }

def sessionFormatResponse (m : Machine φ) (fmt : String) (args : List (List INT8U)) :
    Machine φ :=
  { m with replies := m.replies ++ [.format fmt args] }

/-! ### `hfsocket.c` -/

def socketAlloc (socks : SockList) : Option (Slot × SockList) :=
  ((List.finRange maxSocket).find? fun i => (socks i).fd = none).map fun i =>
    (i, Function.update socks i Hfsocket.cleared)

def socketClient (env : Surroundings) (addr : List INT8U) (port : INT16U) (socks : SockList) :
    Option Slot × SockList :=
  match socketAlloc socks with
  | none => (none, socks)
  | some (i, socks) =>
    match env.socket with
    | none => (none, socks)
    | some fd =>
      if env.setNonblock ∧ env.connect addr port then
        (some i, Function.update socks i { socks i with fd := some fd, state := .connecting })
      else (none, socks)

def socketFree (socks : SockList) (i : Slot) : SockList :=
  Function.update socks i { socks i with fd := none }

/-- The bytes read, and whether the socket now is closed. -/
def socketRead (received : Received) : List INT8U × Bool :=
  match received.result with
  | some buf => (buf, buf.isEmpty)
  | none => ([], !received.wouldBlock)

/-! ### Data connections -/

/-- The socket that `session_opendata` sets up. -/
def dataSocket (sock : Hfsocket) (self : Nat) (type : Char) : Hfsocket :=
  { sock with
    userData := some self
    sockExcept := some .dataExcept
    sockRead := some .dataRead
    sockWrite := some .dataWrite
    interest := socketException ||| if type = 'r' then socketReadable else socketWriteable }

def sessionOpendata (env : Surroundings) (m : Machine φ) (type : Char)
    (callback : SessionCallback) (param : List INT8U) : Machine φ × HfStatus :=
  if type ≠ 'r' ∧ type ≠ 'w' then (m, .err)
  else
    let s := { m.session with callback := some callback, param := m.session.param.copy param }
    match socketClient env s.addr s.port m.sockList with
    | (none, socks) => ({ m with session := s, sockList := socks }, .err)
    | (some i, socks) =>
      (sessionResponse
        { m with
          session := { s with dataSock := some i }
          sockList := Function.update socks i (dataSocket (socks i) m.self type) }
        "150 Opening data connection.", .ok)

/-- `socket_free(NULL)` has no result. -/
def sessionClosedata (m : Machine φ) : Option (Machine φ) :=
  m.session.dataSock.map fun i =>
    { m with sockList := socketFree m.sockList i, session := { m.session with dataSock := none } }

end

end GasSub.Source.Hvsftpd
