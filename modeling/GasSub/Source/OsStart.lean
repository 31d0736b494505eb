import GasSub.Source.OsKernel

/-!
# Starting the kernel

`OSInit` with the idle task, then tasks, semaphores and queues in any order, then `OSStart`.
The control blocks come from free lists that are large enough; `pevent` is the event block
that the list gives.
-/
namespace GasSub.Source
open GasSub.Library

/-- The control block that `OS_TCBInit` fills in. -/
def osTCBInitial : OsTcb where
  osTCBEventPtr := none
  osTCBMsg := 0
  osTCBDly := 0
  osTCBStat := osStatRdy
  osTCBStatPend := .ok

/-- The task is put in front of `OSTCBList`. -/
def osTCBInit (k : OsKernel) (prio : Nat) : OsKernel :=
  { (k.setTcb prio osTCBInitial).makeReady prio with osTCBList := prio :: k.osTCBList }

/-- A task that exists at this priority is left alone. -/
def osTaskCreate (k : OsKernel) (prio : Nat) : OsKernel :=
  if k.osTCBPrioTbl prio = none then osTCBInit k prio else k

def osEventInit : OsEvent where
  osEventType := .unused
  osEventCnt := 0
  osEventPtr := osQCreate (fun _ => 0) 0
  osEventTbl := .empty

/-- `OSInit`; the tables are cleared and the idle task is created. -/
def osInit : OsKernel :=
  osTaskCreate
    { osIntNesting := 0
      osLockNesting := 0
      osPrioCur := 0
      osPrioHighRdy := 0
      pendSV := false
      osRdyTbl := .empty
      osTCBPrioTbl := fun _ => none
      osTCBList := []
      osEventTbl := fun _ => osEventInit
      code := fun _ => .app } osTaskIdlePrio

def osSemCreate (k : OsKernel) (pevent : Nat) (cnt : INT16U) : OsKernel :=
  if (k.osEventTbl pevent).osEventType = .unused then
    k.setEvent pevent { osEventInit with osEventType := .sem, osEventCnt := cnt }
  else k

def osQCreateEvent (k : OsKernel) (pevent : Nat) (start : Nat → INT32U) (size : INT16U) : OsKernel :=
  if (k.osEventTbl pevent).osEventType = .unused then
    k.setEvent pevent { osEventInit with osEventType := .q, osEventPtr := osQCreate start size }
  else k

inductive OsCreate where
  | task (prio : Fin 64)
  | sem (pevent : Nat) (cnt : INT16U)
  | q (pevent : Nat) (start : Nat → INT32U) (size : INT16U)

def OsCreate.run (k : OsKernel) : OsCreate → OsKernel
  | .task prio => osTaskCreate k prio
  | .sem pevent cnt => osSemCreate k pevent cnt
  | .q pevent start size => osQCreateEvent k pevent start size

/-- `OSStart`: the highest task runs. -/
def osStart (k : OsKernel) : OsKernel := { osSchedNew k with osPrioCur := (osSchedNew k).osPrioHighRdy }

/-- The kernel as it starts after these calls. -/
def started (creates : List OsCreate) : OsKernel := osStart (creates.foldl OsCreate.run osInit)

end GasSub.Source
