import GasSub.Source.OsTask

/-!
# The kernel at work

One step is one critical section: of a call that the running task or an interrupt
routine makes, of `OS_Sched`, of the rest of a pend, of a pass of `OSTimeTick`, of
entering or leaving an interrupt routine, or the context switch. Interrupts come
between any two of them; a task only goes on when no interrupt routine is active and no
switch is due. A call is recorded with what it gave back at the step that decides it.
The calls are the sixteen of `OsCall`; the posts with options, flushing a queue, deleting,
changing a priority and creating after `OSStart` are not among them.
-/
namespace GasSub.Source

inductive OsCall where
  | semAccept (pevent : Nat)
  | semPend (pevent : Nat) (timeout : INT32U)
  | semPendAbort (pevent : Nat) (broadcast : Bool)
  | semPost (pevent : Nat)
  | semSet (pevent : Nat) (cnt : INT16U)
  | qAccept (pevent : Nat)
  | qPend (pevent : Nat) (timeout : INT32U)
  | qPendAbort (pevent : Nat) (broadcast : Bool)
  | qPost (pevent : Nat) (pmsg : INT32U)
  | qPostFront (pevent : Nat) (pmsg : INT32U)
  | timeDly (ticks : INT32U)
  | timeDlyResume (prio : Nat)
  | taskResume (prio : Nat)
  | taskSuspend (prio : Option Nat)
  | schedLock
  | schedUnlock
  deriving DecidableEq, Repr

def OsCall.run (k : OsKernel) : OsCall → Option (OsFlow × OsKernel)
  | .semAccept pevent => some (osSemAccept k pevent)
  | .semPend pevent timeout => osSemPend k pevent timeout
  | .semPendAbort pevent broadcast => osSemPendAbort k pevent broadcast
  | .semPost pevent => osSemPost k pevent
  | .semSet pevent cnt => some (osSemSet k pevent cnt)
  | .qAccept pevent => some (osQAccept k pevent)
  | .qPend pevent timeout => osQPend k pevent timeout
  | .qPendAbort pevent broadcast => osQPendAbort k pevent broadcast
  | .qPost pevent pmsg => osQPost k pevent pmsg
  | .qPostFront pevent pmsg => osQPostFront k pevent pmsg
  | .timeDly ticks => osTimeDly k ticks
  | .timeDlyResume prio => some (osTimeDlyResume k prio)
  | .taskResume prio => some (osTaskResume k prio)
  | .taskSuspend prio => some (osTaskSuspend k prio)
  | .schedLock => some (osSchedLock k)
  | .schedUnlock => some (osSchedUnlock k)

/-- The pend that a call is, when it waits. -/
def OsCall.pend : OsCall → Option OsPend
  | .semPend pevent timeout => some ⟨.sem, pevent, timeout⟩
  | .qPend pevent timeout => some ⟨.q, pevent, timeout⟩
  | _ => none

def OsPend.call (pend : OsPend) : OsCall :=
  match pend.kind with
  | .q => .qPend pend.pevent pend.timeout
  | _ => .semPend pend.pevent pend.timeout

def OsPend.finish (k : OsKernel) (pend : OsPend) : Option (OsRet × OsKernel) :=
  match pend.kind with
  | .q => osQPendFinish k pend.pevent
  | _ => osSemPendFinish k pend.pevent

inductive OsAction where
  | call (c : OsCall)
  | sched
  | finish
  | pendSV
  | intEnter
  | intExit
  | isr (c : OsCall)
  | tick (prio : Nat)
  deriving DecidableEq, Repr

/-- A call that has been decided, by a task or by an interrupt routine. -/
structure OsDone where
  task : Option Nat
  call : OsCall
  ret : OsRet
  deriving DecidableEq, Repr

namespace OsKernel

/-- No interrupt routine is active and no context switch is due: the running task goes on. -/
def TaskRuns (k : OsKernel) : Prop := k.osIntNesting = 0 ∧ k.pendSV = false

instance (k : OsKernel) : Decidable k.TaskRuns :=
  inferInstanceAs (Decidable (k.osIntNesting = 0 ∧ k.pendSV = false))

/-- The idle task makes no calls. -/
def Enabled (k : OsKernel) : OsAction → Prop
  | .call _ => k.TaskRuns ∧ k.code k.osPrioCur = .app ∧ k.osPrioCur ≠ osTaskIdlePrio
  | .sched => k.TaskRuns ∧ ∃ pend, k.code k.osPrioCur = .sched pend
  | .finish => k.TaskRuns ∧ ∃ pend, k.code k.osPrioCur = .finish pend
  | .pendSV => k.osIntNesting = 0 ∧ k.pendSV = true
  | .intEnter => True
  | .intExit => 0 < k.osIntNesting
  | .isr _ => 0 < k.osIntNesting
  | .tick prio => 0 < k.osIntNesting ∧ prio ∈ k.ticked

/-- The running task has called; what comes next is kept in its place. -/
def afterCall (prio : Nat) (c : OsCall) : OsFlow × OsKernel → Option (OsKernel × Option OsDone)
  | (.ret r, k) => some (k, some ⟨some prio, c, r⟩)
  | (.sched r, k) => some (k.setCode prio (.sched none), some ⟨some prio, c, r⟩)
  | (.wait, k) => some (k.setCode prio (.sched c.pend), none)

/-- In an interrupt routine `OS_Sched` does nothing, and nothing waits. -/
def afterIsr (c : OsCall) : OsFlow × OsKernel → Option (OsKernel × Option OsDone)
  | (.ret r, k) => some (k, some ⟨none, c, r⟩)
  | (.sched r, k) => some (k, some ⟨none, c, r⟩)
  | (.wait, _) => none

def afterSched (k : OsKernel) : Option OsPend → OsKernel
  | none => (osSched k).setCode k.osPrioCur .app
  | some pend => (osSched k).setCode k.osPrioCur (.finish pend)

def step (k : OsKernel) : OsAction → Option (OsKernel × Option OsDone)
  | .call c =>
    if k.TaskRuns ∧ k.code k.osPrioCur = .app ∧ k.osPrioCur ≠ osTaskIdlePrio then
      (c.run k).bind (afterCall k.osPrioCur c)
    else none
  | .sched =>
    if k.TaskRuns then
      match k.code k.osPrioCur with
      | .sched pend => some (k.afterSched pend, none)
      | _ => none
    else none
  | .finish =>
    if k.TaskRuns then
      match k.code k.osPrioCur with
      | .finish pend => (pend.finish k).map fun r =>
          (r.2.setCode k.osPrioCur .app, some ⟨some k.osPrioCur, pend.call, r.1⟩)
      | _ => none
    else none
  | .pendSV =>
    if k.osIntNesting = 0 ∧ k.pendSV = true then (pendSVHandler k).map fun k => (k, none) else none
  | .intEnter => some (osIntEnter k, none)
  | .intExit => if 0 < k.osIntNesting then some (osIntExit k, none) else none
  | .isr c => if 0 < k.osIntNesting then (c.run k).bind (afterIsr c) else none
  | .tick prio =>
    if 0 < k.osIntNesting ∧ prio ∈ k.ticked then
      (osTimeTickPass k prio).map fun k => (k, none)
    else none

end OsKernel
end GasSub.Source
