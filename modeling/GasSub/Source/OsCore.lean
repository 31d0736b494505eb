import GasSub.Library.PrioritySet
import GasSub.Source.Sensor

/-!
# The core of the kernel

Tasks are known by their priority, 0 being the highest. The ready list and the wait
list of every event are two-level bit maps over the priorities. The tasks have been
created and `OSRunning` is set; `OSTCBList` holds them, the last one created first. A
context switch is asked for by `pendSV` and done by the exception behind it once no
interrupt routine is active. Mutexes, mailboxes, flags and waiting for several events at
once are not part of this model.
-/
namespace GasSub.Source
open GasSub.Library

def osLowestPrio : Nat := 63
def osTaskIdlePrio : Nat := osLowestPrio

def osStatRdy : INT8U := 0x00
def osStatSem : INT8U := 0x01
def osStatQ : INT8U := 0x04
def osStatSuspend : INT8U := 0x08
def osStatPendAny : INT8U := 0x37

inductive OsStatPend where
  | ok | timeout | abort
  deriving DecidableEq, Repr

inductive OsEventType where
  | unused | q | sem
  deriving DecidableEq, Repr

inductive OsErr where
  | none | eventType | pendISR | timeout | pendLocked | pendAbort | qFull | qEmpty | prioInvalid
  | semOvf | taskNotExist | taskNotSuspended | taskResumePrio | taskSuspendPrio | taskWaiting
  | timeNotDly
  deriving DecidableEq, Repr

/-- What a call gives back: `*perr` or the error returned, and the count or pointer. -/
structure OsRet where
  err : OsErr
  value : INT32U := 0
  deriving DecidableEq, Repr

structure OsTcb where
  osTCBEventPtr : Option Nat
  osTCBMsg : INT32U
  osTCBDly : INT32U
  osTCBStat : INT8U
  osTCBStatPend : OsStatPend
  deriving DecidableEq, Repr

/-- A queue control block: the storage, the places of the next entry in and out. -/
structure OsQ where
  osQStart : Nat → INT32U
  osQSize : Nat
  osQIn : Nat
  osQOut : Nat
  osQEntries : Nat

structure OsEvent where
  osEventType : OsEventType
  osEventCnt : INT16U
  osEventPtr : OsQ
  osEventTbl : PrioritySet 8

/-- A pend that has not returned yet. -/
structure OsPend where
  kind : OsEventType
  pevent : Nat
  timeout : INT32U
  deriving DecidableEq, Repr

/-- Where the code of a task stands: outside the kernel, before a call of `OS_Sched`, or
in a pend from which `OS_Sched` has returned. -/
inductive CodePoint where
  | app
  | sched (pend : Option OsPend)
  | finish (pend : OsPend)
  deriving DecidableEq, Repr

structure OsKernel where
  osIntNesting : Nat
  osLockNesting : Nat
  osPrioCur : Nat
  osPrioHighRdy : Nat
  pendSV : Bool
  osRdyTbl : PrioritySet 8
  osTCBPrioTbl : Nat → Option OsTcb
  osTCBList : List Nat
  osEventTbl : Nat → OsEvent
  code : Nat → CodePoint

/-! ### Priorities in a list -/

/-- A row of `OSUnMapTbl`; the rows differ in their first entry only. -/
def osUnMapRow (first : Nat) : List Nat := [first, 0, 1, 0, 2, 0, 1, 0, 3, 0, 1, 0, 2, 0, 1, 0]

def osUnMapTbl : List Nat :=
  [0, 4, 5, 4, 6, 4, 5, 4, 7, 4, 5, 4, 6, 4, 5, 4].flatMap osUnMapRow

def osUnMap (bits : INT8U) : Nat := osUnMapTbl.getD bits.toNat 0

def osTCBY (prio : Nat) : Nat := prio >>> 3
def osTCBX (prio : Nat) : Nat := prio &&& 7
def osTCBBitY (prio : Nat) : INT8U := 1 <<< osTCBY prio
def osTCBBitX (prio : Nat) : INT8U := 1 <<< osTCBX prio

def listAdd (list : PrioritySet 8) (prio : Nat) : PrioritySet 8 where
  group := list.group ||| osTCBBitY prio
  rows := Function.update list.rows (osTCBY prio) (list.rows (osTCBY prio) ||| osTCBBitX prio)

def listRemove (list : PrioritySet 8) (prio : Nat) : PrioritySet 8 :=
  let row := list.rows (osTCBY prio) &&& ~~~osTCBBitX prio
  { group := if row = 0 then list.group &&& ~~~osTCBBitY prio else list.group
    rows := Function.update list.rows (osTCBY prio) row }

/-- The highest priority in a list. -/
def listHighest (list : PrioritySet 8) : Nat :=
  let y := osUnMap list.group
  (y <<< 3) + osUnMap (list.rows y)

theorem osTCBY_eq (prio : Nat) : osTCBY prio = prio / 8 := Nat.shiftRight_eq_div_pow prio 3

theorem osTCBX_eq (prio : Nat) : osTCBX prio = prio % 8 := Nat.and_two_pow_sub_one_eq_mod prio 3

theorem listAdd_eq (list : PrioritySet 8) (prio : Nat) : listAdd list prio = list.insert prio := by
  rw [listAdd, osTCBBitY, osTCBBitX, osTCBY_eq, osTCBX_eq]
  rfl

theorem listRemove_eq (list : PrioritySet 8) (prio : Nat) : listRemove list prio = list.erase prio := by
  rw [listRemove, osTCBBitY, osTCBBitX, osTCBY_eq, osTCBX_eq]
  rfl

@[simp] theorem has_listAdd (list : PrioritySet 8) (prio q : Nat) :
    (listAdd list prio).has q = (decide (q = prio) || list.has q) := by
  rw [listAdd_eq, PrioritySet.has_insert list prio q (by decide)]

@[simp] theorem has_listRemove (list : PrioritySet 8) (prio q : Nat) :
    (listRemove list prio).has q = (!decide (q = prio) && list.has q) := by
  rw [listRemove_eq, PrioritySet.has_erase list prio q (by decide)]

theorem listAdd_sound {list : PrioritySet 8} (sound : list.Sound) {prio : Nat} (small : prio < 64) :
    (listAdd list prio).Sound := by
  rw [listAdd_eq]
  exact PrioritySet.insert_sound sound (by omega) (by decide)

theorem listRemove_sound {list : PrioritySet 8} (sound : list.Sound) (prio : Nat) :
    (listRemove list prio).Sound := by
  rw [listRemove_eq]
  exact PrioritySet.erase_sound sound prio

/-- The table holds the place of the lowest set bit. -/
theorem osUnMap_eq (bits : INT8U) (some : bits ≠ 0) : osUnMap bits = bits.ctz.toNat := by
  have all : ∀ b : Fin 256, b ≠ 0 →
      osUnMapTbl.getD b.val 0 = (BitVec.ofFin (w := 8) b).ctz.toNat := by decide +kernel
  exact all bits.toFin fun zero => some (BitVec.eq_of_toFin_eq zero)

/-- The table finds the minimum of a list that is not empty. -/
theorem isLeast_listHighest {list : PrioritySet 8} (sound : list.Sound) (some : list.group ≠ 0) :
    list.IsLeast (listHighest list) := by
  have same : listHighest list = list.least := by
    rw [listHighest, PrioritySet.least, osUnMap_eq _ some, osUnMap_eq _ (PrioritySet.least_row sound some),
      Nat.shiftLeft_eq]
    omega
  rw [same]
  exact PrioritySet.isLeast_least sound some

/-! ### Updates of the kernel's tables -/

namespace OsKernel

def setTcb (k : OsKernel) (prio : Nat) (tcb : OsTcb) : OsKernel :=
  { k with osTCBPrioTbl := Function.update k.osTCBPrioTbl prio (some tcb) }

def setEvent (k : OsKernel) (pevent : Nat) (event : OsEvent) : OsKernel :=
  { k with osEventTbl := Function.update k.osEventTbl pevent event }

def setCode (k : OsKernel) (prio : Nat) (code : CodePoint) : OsKernel :=
  { k with code := Function.update k.code prio code }

def makeReady (k : OsKernel) (prio : Nat) : OsKernel :=
  { k with osRdyTbl := listAdd k.osRdyTbl prio }

def makeUnready (k : OsKernel) (prio : Nat) : OsKernel :=
  { k with osRdyTbl := listRemove k.osRdyTbl prio }

/-- The task is put in the wait list of the event. -/
def addWaiter (k : OsKernel) (prio pevent : Nat) : OsKernel :=
  let event := k.osEventTbl pevent
  k.setEvent pevent { event with osEventTbl := listAdd event.osEventTbl prio }

def osTCBCur (k : OsKernel) : Option OsTcb := k.osTCBPrioTbl k.osPrioCur

end OsKernel

/-! ### Tasks and events -/

def osEventTaskRemove (k : OsKernel) (prio pevent : Nat) : OsKernel :=
  let event := k.osEventTbl pevent
  k.setEvent pevent { event with osEventTbl := listRemove event.osEventTbl prio }

/-- The highest waiting task is made ready, unless it is suspended. There is no result where
`OSTCBPrioTbl` has no task of that priority. -/
def osEventTaskRdy (k : OsKernel) (pevent : Nat) (pmsg : INT32U) (msk : INT8U)
    (pendStat : OsStatPend) : Option OsKernel :=
  let prio := listHighest (k.osEventTbl pevent).osEventTbl
  match k.osTCBPrioTbl prio with
  | none => none
  | some ptcb =>
    let ptcb := { ptcb with
      osTCBDly := 0
      osTCBMsg := pmsg
      osTCBStat := ptcb.osTCBStat &&& ~~~msk
      osTCBStatPend := pendStat }
    let k := k.setTcb prio ptcb
    let k := if ptcb.osTCBStat &&& osStatSuspend = osStatRdy then k.makeReady prio else k
    some (osEventTaskRemove k prio pevent)

/-- `while (pevent->OSEventGrp != 0) OS_EventTaskRdy(...)`, with the number of tasks made ready. -/
def osEventTaskRdyAll (pevent : Nat) (pmsg : INT32U) (msk : INT8U) (pendStat : OsStatPend) :
    (fuel : Nat) → OsKernel → Option (Nat × OsKernel)
  | 0, _ => none
  | fuel + 1, k =>
    if (k.osEventTbl pevent).osEventTbl.group ≠ 0 then
      (osEventTaskRdy k pevent pmsg msk pendStat).bind fun k =>
        (osEventTaskRdyAll pevent pmsg msk pendStat fuel k).map fun r => (r.1 + 1, r.2)
    else some (0, k)

/-- `OSTCBCur` waits for the event: the status that `OSSemPend` and `OSQPend` set, and
`OS_EventTaskWait`. -/
def osEventTaskWait (k : OsKernel) (pevent : Nat) (msk : INT8U) (timeout : INT32U) :
    Option OsKernel :=
  match k.osTCBCur with
  | none => none
  | some ptcb =>
    let ptcb := { ptcb with
      osTCBStat := ptcb.osTCBStat ||| msk
      osTCBStatPend := .ok
      osTCBDly := timeout
      osTCBEventPtr := some pevent }
    some (((k.setTcb k.osPrioCur ptcb).addWaiter k.osPrioCur pevent).makeUnready k.osPrioCur)

/-- How a call goes on after its critical section: it is over, or it calls `OS_Sched` and is
over then, or it calls `OS_Sched` and has the rest of a pend to run. -/
inductive OsFlow where
  | ret (r : OsRet)
  | sched (r : OsRet)
  | wait
  deriving DecidableEq, Repr

/-! ### The scheduler -/

def osSchedNew (k : OsKernel) : OsKernel := { k with osPrioHighRdy := listHighest k.osRdyTbl }

/-- The part that `OS_Sched` and `OSIntExit` share. -/
def osSwitch (k : OsKernel) : OsKernel :=
  if k.osIntNesting = 0 ∧ k.osLockNesting = 0 then
    let k := osSchedNew k
    if k.osPrioHighRdy ≠ k.osPrioCur then { k with pendSV := true } else k
  else k

def osSched (k : OsKernel) : OsKernel := osSwitch k

def osIntEnter (k : OsKernel) : OsKernel :=
  if k.osIntNesting < 255 then { k with osIntNesting := k.osIntNesting + 1 } else k

def osIntExit (k : OsKernel) : OsKernel := osSwitch { k with osIntNesting := k.osIntNesting - 1 }

/-- `OS_CPU_PendSVHandler`; the stack pointer comes from the TCB of the task. -/
def pendSVHandler (k : OsKernel) : Option OsKernel :=
  match k.osTCBPrioTbl k.osPrioHighRdy with
  | none => none
  | some _ => some { k with osPrioCur := k.osPrioHighRdy, pendSV := false }

/-- A delay is over: a pend that was under way has timed out. -/
def OsTcb.delayOver (ptcb : OsTcb) : OsTcb :=
  if ptcb.osTCBStat &&& osStatPendAny ≠ osStatRdy then
    { ptcb with
      osTCBDly := 0
      osTCBStat := ptcb.osTCBStat &&& ~~~osStatPendAny
      osTCBStatPend := .timeout }
  else { ptcb with osTCBDly := 0, osTCBStatPend := .ok }

/-- The task is ready then, unless it is suspended. -/
def delayOver (k : OsKernel) (prio : Nat) (ptcb : OsTcb) : OsKernel :=
  let ptcb := ptcb.delayOver
  let k := k.setTcb prio ptcb
  if ptcb.osTCBStat &&& osStatSuspend = osStatRdy then k.makeReady prio else k

/-- One pass of the loop in `OSTimeTick`. -/
def osTimeTickPass (k : OsKernel) (prio : Nat) : Option OsKernel :=
  match k.osTCBPrioTbl prio with
  | none => none
  | some ptcb =>
    if ptcb.osTCBDly ≠ 0 then
      let dly := ptcb.osTCBDly - 1
      if dly = 0 then some (delayOver k prio ptcb)
      else some (k.setTcb prio { ptcb with osTCBDly := dly })
    else some k

/-- `while (ptcb->OSTCBPrio != OS_TASK_IDLE_PRIO)`, with no interrupt in between. There is no
result where the walk comes to the end of the list. -/
def osTimeTickWalk : List Nat → OsKernel → Option OsKernel
  | [], _ => none
  | prio :: rest, k =>
    if prio ≠ osTaskIdlePrio then (osTimeTickPass k prio).bind (osTimeTickWalk rest) else some k

def osTimeTick (k : OsKernel) : Option OsKernel := osTimeTickWalk k.osTCBList k

/-- The tasks that a tick passes: those in front of the idle task. -/
def OsKernel.ticked (k : OsKernel) : List Nat := k.osTCBList.takeWhile (· ≠ osTaskIdlePrio)

/-! ### Locking the scheduler -/

def osSchedLock (k : OsKernel) : OsFlow × OsKernel :=
  if k.osIntNesting = 0 ∧ k.osLockNesting < 255 then
    (.ret ⟨.none, 0⟩, { k with osLockNesting := k.osLockNesting + 1 })
  else (.ret ⟨.none, 0⟩, k)

def osSchedUnlock (k : OsKernel) : OsFlow × OsKernel :=
  if k.osIntNesting = 0 ∧ 0 < k.osLockNesting then
    let k := { k with osLockNesting := k.osLockNesting - 1 }
    if k.osLockNesting = 0 then (.sched ⟨.none, 0⟩, k) else (.ret ⟨.none, 0⟩, k)
  else (.ret ⟨.none, 0⟩, k)

end GasSub.Source
