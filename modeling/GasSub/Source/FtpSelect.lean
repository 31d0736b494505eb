import GasSub.Source.FtpServer

/-!
# One pass of `socket_block`

The function as a whole, over the socket table: the sets handed to `select`, and the
three tests of each slot on the sets that it returns. The callbacks may free slots
and open new ones; each test reads the descriptor of its slot anew. To tell one
connection from another that uses the same slot, the connections are numbered.
-/
namespace GasSub.Source.Hvsftpd

/-! ### `fd_set` -/

abbrev FdSet := Nat → Bool

/-- The three sets, by what they are asked for. -/
abbrev FdSets := Readiness → FdSet

def FdSet.set (fds : FdSet) (fd : Nat) : FdSet := Function.update fds fd true

/-- `FD_ISSET`. Of `INVALID_SOCKET`, which is -1, the byte -1/8 is the first and the bit
-1&7 is the last one in it. -/
def FdSet.isSet (fds : FdSet) (fd : Option Nat) : Bool := fds (fd.getD 7)

def Readiness.interest : Readiness → INT8U
  | .readable => socketReadable
  | .writeable => socketWriteable
  | .exceptional => socketException

/-- The sets handed to `select`, with `max_fd`. -/
structure Watched where
  maxFd : Nat
  sets : FdSets

/-- One pass of the loop that watches the sockets, all of them if `sock` is `NULL`. -/
def watchSlot (sock : Option Slot) (socks : SockList) (watched : Watched) (i : Slot) : Watched :=
  match (socks i).fd with
  | none => watched
  | some fd =>
    if sock = some i ∨ sock = none then
      { maxFd := if watched.maxFd < fd then fd else watched.maxFd
        sets := fun ready =>
          if (socks i).interest &&& ready.interest ≠ 0 then (watched.sets ready).set fd
          else watched.sets ready }
    else watched

def watch (sock : Option Slot) (socks : SockList) : Watched :=
  (List.finRange maxSocket).foldl (watchSlot sock socks) ⟨0, fun _ _ => false⟩

/-! ### The callbacks -/

/-- What a callback does to the table: `socket_free`, `socket_alloc` with a descriptor for
the new socket, and stores to the other members of a socket. -/
inductive SlotOp where
  | free (i : Slot)
  | connect (fd : Nat) (state : SocketState)
  | assign (i : Slot) (sock : Hfsocket)

/-- The table with the numbers of the connections in its slots, and the number the next
connection gets. -/
structure NumberedTable where
  sockList : SockList
  connection : Slot → Nat
  next : Nat

/-- When `select` is called: a connection is numbered by its slot. -/
def NumberedTable.atSelect (socks : SockList) : NumberedTable :=
  { sockList := socks, connection := Fin.val, next := maxSocket }

def SlotOp.apply (t : NumberedTable) : SlotOp → NumberedTable
  | .free i => { t with sockList := socketFree t.sockList i }
  | .connect fd state =>
    match socketAlloc t.sockList with
    | none => t
    | some (i, socks) =>
      { sockList := Function.update socks i { socks i with fd := some fd, state := state }
        connection := Function.update t.connection i t.next
        next := t.next + 1 }
  | .assign i sock =>
    { t with sockList := Function.update t.sockList i { sock with fd := (t.sockList i).fd } }

/-- The slot that an operation frees. -/
def SlotOp.freed : SlotOp → Option Slot
  | .free i => some i
  | _ => none

/-- What each callback of the pass does; a slot has one call at most for each of its tests. -/
abbrev Effects := Slot → Readiness → List SlotOp

/-! ### The tests -/

/-- A call through a function pointer of a slot, with the table as it is then. -/
structure SockCall where
  slot : Slot
  ready : Readiness
  callback : Option SockCallback
  table : NumberedTable

/-- The table, the calls made and the slots that they have freed. -/
structure DispatchPass where
  table : NumberedTable
  calls : List SockCall
  freed : List Slot

def DispatchPass.atSelect (socks : SockList) : DispatchPass :=
  { table := .atSelect socks, calls := [], freed := [] }

/-- A connecting socket that becomes readable is connected. -/
def NumberedTable.reported (t : NumberedTable) (i : Slot) : Readiness → NumberedTable
  | .readable =>
    { t with
      sockList := Function.update t.sockList i
        { t.sockList i with state := (t.sockList i).state.readable } }
  | _ => t

/-- One `if` on a returned set. -/
def testSlot (sets : FdSets) (effects : Effects) (i : Slot) (ready : Readiness)
    (p : DispatchPass) : DispatchPass :=
  let sock := p.table.sockList i
  if (sets ready).isSet sock.fd then
    let table := p.table.reported i ready
    { table := (effects i ready).foldl SlotOp.apply table
      calls := p.calls ++ [⟨i, ready, sock.callback ready, table⟩]
      freed := p.freed ++ (effects i ready).filterMap SlotOp.freed }
  else p

/-- One slot of the loop that checks the result sets. -/
def checkSlot (sets : FdSets) (effects : Effects) (p : DispatchPass) (i : Slot) : DispatchPass :=
  if (p.table.sockList i).fd = none then p
  else
    testSlot sets effects i .exceptional
      (testSlot sets effects i .writeable (testSlot sets effects i .readable p))

/-- `socket_block`; `select` gets `max_fd + 1` and the sets. -/
def socketBlock (sock : Option Slot) (process : Bool) (select : Nat → FdSets → Int × FdSets)
    (effects : Effects) (socks : SockList) : HfStatus × DispatchPass :=
  let watched := watch sock socks
  let answer := select (watched.maxFd + 1) watched.sets
  let start := DispatchPass.atSelect socks
  if answer.1 ≤ 0 then (.err, start)
  else if process then (.ok, (List.finRange maxSocket).foldl (checkSlot answer.2 effects) start)
  else (.ok, start)

end GasSub.Source.Hvsftpd
