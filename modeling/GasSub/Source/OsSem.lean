import GasSub.Source.OsCore

/-!
# Semaphores

The calls of `os_sem.c` up to the end of their first critical section, and the second
one of `OSSemPend`. The options of `OSSemPendAbort` are one task or all of them.
Creating, deleting and querying a semaphore are left out: the events are there from the
start.
-/
namespace GasSub.Source

/-- The passes of a loop over a wait list: one for each priority, and the one that ends it. -/
def osMaxWaiters : Nat := 65

def osSemAccept (k : OsKernel) (pevent : Nat) : OsFlow × OsKernel :=
  let event := k.osEventTbl pevent
  if event.osEventType ≠ .sem then (.ret ⟨.none, 0⟩, k)
  else
    let cnt := event.osEventCnt
    if 0 < cnt then
      (.ret ⟨.none, cnt.setWidth 32⟩, k.setEvent pevent { event with osEventCnt := cnt - 1 })
    else (.ret ⟨.none, cnt.setWidth 32⟩, k)

def osSemPend (k : OsKernel) (pevent : Nat) (timeout : INT32U) : Option (OsFlow × OsKernel) :=
  let event := k.osEventTbl pevent
  if event.osEventType ≠ .sem then some (.ret ⟨.eventType, 0⟩, k)
  else if 0 < k.osIntNesting then some (.ret ⟨.pendISR, 0⟩, k)
  else if 0 < k.osLockNesting then some (.ret ⟨.pendLocked, 0⟩, k)
  else if 0 < event.osEventCnt then
    some (.ret ⟨.none, 0⟩, k.setEvent pevent { event with osEventCnt := event.osEventCnt - 1 })
  else (osEventTaskWait k pevent osStatSem timeout).map fun k => (.wait, k)

/-- The rest of a pend, by what became of the wait; the message is that of a queue. -/
def osPendFinish (k : OsKernel) (ptcb : OsTcb) (pevent : Nat) (pmsg : INT32U) (cleared : INT32U) :
    OsRet × OsKernel :=
  let ready := { ptcb with
    osTCBStat := osStatRdy
    osTCBStatPend := .ok
    osTCBEventPtr := none
    osTCBMsg := cleared }
  match ptcb.osTCBStatPend with
  | .ok => (⟨.none, pmsg⟩, k.setTcb k.osPrioCur ready)
  | .abort => (⟨.pendAbort, 0⟩, k.setTcb k.osPrioCur ready)
  | .timeout =>
    (⟨.timeout, 0⟩, (osEventTaskRemove k k.osPrioCur pevent).setTcb k.osPrioCur ready)

/-- `OSSemPend` after `OS_Sched`; the message field is left as it is. -/
def osSemPendFinish (k : OsKernel) (pevent : Nat) : Option (OsRet × OsKernel) :=
  match k.osTCBCur with
  | none => none
  | some ptcb => some (osPendFinish k ptcb pevent 0 ptcb.osTCBMsg)

/-- `OSSemPendAbort` and `OSQPendAbort` differ in the kind of event and its status bit. -/
def osPendAbort (kind : OsEventType) (msk : INT8U) (k : OsKernel) (pevent : Nat) (broadcast : Bool) :
    Option (OsFlow × OsKernel) :=
  let event := k.osEventTbl pevent
  if event.osEventType ≠ kind then some (.ret ⟨.eventType, 0⟩, k)
  else if event.osEventTbl.group ≠ 0 then
    if broadcast then
      (osEventTaskRdyAll pevent 0 msk .abort osMaxWaiters k).map fun r =>
        (.sched ⟨.pendAbort, BitVec.ofNat 32 r.1⟩, r.2)
    else
      (osEventTaskRdy k pevent 0 msk .abort).map fun k => (.sched ⟨.pendAbort, 1⟩, k)
  else some (.ret ⟨.none, 0⟩, k)

def osSemPendAbort : OsKernel → Nat → Bool → Option (OsFlow × OsKernel) :=
  osPendAbort .sem osStatSem

def osSemPost (k : OsKernel) (pevent : Nat) : Option (OsFlow × OsKernel) :=
  let event := k.osEventTbl pevent
  if event.osEventType ≠ .sem then some (.ret ⟨.eventType, 0⟩, k)
  else if event.osEventTbl.group ≠ 0 then
    (osEventTaskRdy k pevent 0 osStatSem .ok).map fun k => (.sched ⟨.none, 0⟩, k)
  else if event.osEventCnt < 65535 then
    some (.ret ⟨.none, 0⟩, k.setEvent pevent { event with osEventCnt := event.osEventCnt + 1 })
  else some (.ret ⟨.semOvf, 0⟩, k)

def osSemSet (k : OsKernel) (pevent : Nat) (cnt : INT16U) : OsFlow × OsKernel :=
  let event := k.osEventTbl pevent
  if event.osEventType ≠ .sem then (.ret ⟨.eventType, 0⟩, k)
  else if 0 < event.osEventCnt then
    (.ret ⟨.none, 0⟩, k.setEvent pevent { event with osEventCnt := cnt })
  else if event.osEventTbl.group = 0 then
    (.ret ⟨.none, 0⟩, k.setEvent pevent { event with osEventCnt := cnt })
  else (.ret ⟨.taskWaiting, 0⟩, k)

end GasSub.Source
