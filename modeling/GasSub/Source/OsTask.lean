import GasSub.Source.OsQ

/-!
# Delays and suspensions

The calls of `os_time.c` and `os_task.c` that change the state of a task. The arguments
are not checked, as `OS_ARG_CHK_EN` is off; `OS_PRIO_SELF` is no priority.
-/
namespace GasSub.Source

def osTimeDly (k : OsKernel) (ticks : INT32U) : Option (OsFlow × OsKernel) :=
  if 0 < k.osIntNesting then some (.ret ⟨.none, 0⟩, k)
  else if 0 < k.osLockNesting then some (.ret ⟨.none, 0⟩, k)
  else if 0 < ticks then
    match k.osTCBCur with
    | none => none
    | some ptcb =>
      some (.sched ⟨.none, 0⟩,
        (k.makeUnready k.osPrioCur).setTcb k.osPrioCur { ptcb with osTCBDly := ticks })
  else some (.ret ⟨.none, 0⟩, k)

def osTimeDlyResume (k : OsKernel) (prio : Nat) : OsFlow × OsKernel :=
  if osLowestPrio ≤ prio then (.ret ⟨.prioInvalid, 0⟩, k)
  else
    match k.osTCBPrioTbl prio with
    | none => (.ret ⟨.taskNotExist, 0⟩, k)
    | some ptcb =>
      if ptcb.osTCBDly = 0 then (.ret ⟨.timeNotDly, 0⟩, k)
      else if ptcb.osTCBStat &&& osStatSuspend = osStatRdy then
        (.sched ⟨.none, 0⟩, delayOver k prio ptcb)
      else (.ret ⟨.none, 0⟩, delayOver k prio ptcb)

def osTaskResume (k : OsKernel) (prio : Nat) : OsFlow × OsKernel :=
  match k.osTCBPrioTbl prio with
  | none => (.ret ⟨.taskResumePrio, 0⟩, k)
  | some ptcb =>
    if ptcb.osTCBStat &&& osStatSuspend ≠ osStatRdy then
      let ptcb := { ptcb with osTCBStat := ptcb.osTCBStat &&& ~~~osStatSuspend }
      let k := k.setTcb prio ptcb
      if ptcb.osTCBStat = osStatRdy ∧ ptcb.osTCBDly = 0 then
        (.sched ⟨.none, 0⟩, k.makeReady prio)
      else (.ret ⟨.none, 0⟩, k)
    else (.ret ⟨.taskNotSuspended, 0⟩, k)

def osTaskSuspend (k : OsKernel) (prio : Option Nat) : OsFlow × OsKernel :=
  let prio := prio.getD k.osPrioCur
  match k.osTCBPrioTbl prio with
  | none => (.ret ⟨.taskSuspendPrio, 0⟩, k)
  | some ptcb =>
    let k := (k.makeUnready prio).setTcb prio
      { ptcb with osTCBStat := ptcb.osTCBStat ||| osStatSuspend }
    if prio = k.osPrioCur then (.sched ⟨.none, 0⟩, k) else (.ret ⟨.none, 0⟩, k)

end GasSub.Source
