import GasSub.Source.OsSem

/-!
# Message queues

The calls of `os_q.c` up to the end of their first critical section, and the second one
of `OSQPend`. `OSQIn` and `OSQOut` are places in the storage of the queue, and `OSQEnd`
is its size. `OSQPostOpt`, `OSQFlush`, `OSQDel` and `OSQQuery` have no caller and are left
out.
-/
namespace GasSub.Source

/-- `OSQCreate` with its storage. -/
def osQCreate (start : Nat → INT32U) (size : INT16U) : OsQ where
  osQStart := start
  osQSize := size.toNat
  osQIn := 0
  osQOut := 0
  osQEntries := 0

/-- The oldest message is taken out. -/
def OsQ.extract (pq : OsQ) : INT32U × OsQ :=
  let out := pq.osQOut + 1
  (pq.osQStart pq.osQOut,
    { pq with osQOut := if out = pq.osQSize then 0 else out, osQEntries := pq.osQEntries - 1 })

/-- A message is put in behind the others. -/
def OsQ.insert (pq : OsQ) (pmsg : INT32U) : OsQ :=
  let osQIn := pq.osQIn + 1
  { pq with
    osQStart := Function.update pq.osQStart pq.osQIn pmsg
    osQEntries := pq.osQEntries + 1
    osQIn := if osQIn = pq.osQSize then 0 else osQIn }

/-- A message is put in before the others. -/
def OsQ.insertFront (pq : OsQ) (pmsg : INT32U) : OsQ :=
  let out := if pq.osQOut = 0 then pq.osQSize else pq.osQOut
  { pq with
    osQOut := out - 1
    osQStart := Function.update pq.osQStart (out - 1) pmsg
    osQEntries := pq.osQEntries + 1 }

def OsKernel.setQ (k : OsKernel) (pevent : Nat) (pq : OsQ) : OsKernel :=
  k.setEvent pevent { k.osEventTbl pevent with osEventPtr := pq }

def osQAccept (k : OsKernel) (pevent : Nat) : OsFlow × OsKernel :=
  let event := k.osEventTbl pevent
  if event.osEventType ≠ .q then (.ret ⟨.eventType, 0⟩, k)
  else if 0 < event.osEventPtr.osQEntries then
    let taken := event.osEventPtr.extract
    (.ret ⟨.none, taken.1⟩, k.setQ pevent taken.2)
  else (.ret ⟨.qEmpty, 0⟩, k)

def osQPend (k : OsKernel) (pevent : Nat) (timeout : INT32U) : Option (OsFlow × OsKernel) :=
  let event := k.osEventTbl pevent
  if event.osEventType ≠ .q then some (.ret ⟨.eventType, 0⟩, k)
  else if 0 < k.osIntNesting then some (.ret ⟨.pendISR, 0⟩, k)
  else if 0 < k.osLockNesting then some (.ret ⟨.pendLocked, 0⟩, k)
  else if 0 < event.osEventPtr.osQEntries then
    let taken := event.osEventPtr.extract
    some (.ret ⟨.none, taken.1⟩, k.setQ pevent taken.2)
  else (osEventTaskWait k pevent osStatQ timeout).map fun k => (.wait, k)

/-- `OSQPend` after `OS_Sched`: the message is in the TCB, which is cleared. -/
def osQPendFinish (k : OsKernel) (pevent : Nat) : Option (OsRet × OsKernel) :=
  match k.osTCBCur with
  | none => none
  | some ptcb => some (osPendFinish k ptcb pevent ptcb.osTCBMsg 0)

def osQPendAbort : OsKernel → Nat → Bool → Option (OsFlow × OsKernel) := osPendAbort .q osStatQ

/-- `OSQPost` and `OSQPostFront` differ in how the message is put in. -/
def osQPostWith (insert : OsQ → INT32U → OsQ) (k : OsKernel) (pevent : Nat) (pmsg : INT32U) :
    Option (OsFlow × OsKernel) :=
  let event := k.osEventTbl pevent
  if event.osEventType ≠ .q then some (.ret ⟨.eventType, 0⟩, k)
  else if event.osEventTbl.group ≠ 0 then
    (osEventTaskRdy k pevent pmsg osStatQ .ok).map fun k => (.sched ⟨.none, 0⟩, k)
  else if event.osEventPtr.osQSize ≤ event.osEventPtr.osQEntries then
    some (.ret ⟨.qFull, 0⟩, k)
  else some (.ret ⟨.none, 0⟩, k.setQ pevent (insert event.osEventPtr pmsg))

def osQPost : OsKernel → Nat → INT32U → Option (OsFlow × OsKernel) := osQPostWith OsQ.insert

def osQPostFront : OsKernel → Nat → INT32U → Option (OsFlow × OsKernel) :=
  osQPostWith OsQ.insertFront

end GasSub.Source
