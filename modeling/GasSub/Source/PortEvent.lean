import GasSub.Library.EventFlags
import GasSub.Source.Sensor

/-!
# The events of the Modbus master

`xMBMasterPortEventPost` and `xMBMasterPortEventGet` of `portevent_m.c` over an
event flag group of uC/OS-II. A task that pends on a group without the flags it
asks for is blocked; the post that sets one notes what the task will be given,
and the flags are consumed when the task runs again. The group is created and
never deleted, the wait has no timeout, and only the polling task pends for
these flags.
-/
namespace GasSub.Source
open GasSub.Library.EventFlags

/-- `OS_FLAGS` with `OS_FLAGS_NBITS` 16. -/
abbrev OSFlags := BitVec 16

/-- `eMBMasterEventType`. -/
inductive EMBMasterEventType where
  | ready | frameReceived | execute | frameSent | errorProcess
  | processSucess | errorRespondTimeout | errorReceiveData | errorExecuteFunction
  deriving DecidableEq, Repr

/-- The shifts of the enumeration. -/
def EMBMasterEventType.shift : EMBMasterEventType → Nat
  | .ready => 0
  | .frameReceived => 1
  | .execute => 2
  | .frameSent => 3
  | .errorProcess => 4
  | .processSucess => 5
  | .errorRespondTimeout => 6
  | .errorReceiveData => 7
  | .errorExecuteFunction => 8

/-- The bits of the events in a flag group. -/
def masterFlags : Coding EMBMasterEventType 16 where
  index := EMBMasterEventType.shift
  inside e := by cases e <;> decide
  apart a b same := by cases a <;> cases b <;> first | rfl | cases same

/-- The value of an enumerator, as a variable of the enumeration holds it. -/
def EMBMasterEventType.value (e : EMBMasterEventType) : INT32U := 1#32 <<< e.shift

theorem value_injective {a b : EMBMasterEventType} (same : a.value = b.value) : a = b := by
  cases a <;> cases b <;> first | rfl | exact absurd same (by decide)

/-! ### The flag group -/

/-- The task that pends: it runs, it waits for `flags`, or it was made ready with
`OSTCBFlagsRdy`. -/
inductive Waiter where
  | running
  | blocked (flags : OSFlags)
  | ready (flagsRdy : OSFlags)
  deriving DecidableEq, Repr

structure OSFlagGrp where
  osFlagFlags : OSFlags
  waiter : Waiter
  deriving DecidableEq, Repr

/-- `OSFlagPost` with `OS_FLAG_SET`. -/
def osFlagPost (g : OSFlagGrp) (flags : OSFlags) : OSFlagGrp :=
  let current := g.osFlagFlags ||| flags
  match g.waiter with
  | .blocked wanted =>
    if current &&& wanted = 0 then { g with osFlagFlags := current }
    else { osFlagFlags := current, waiter := .ready (current &&& wanted) }
  | _ => { g with osFlagFlags := current }

/-- `OSFlagPend` with `OS_FLAG_WAIT_SET_ANY | OS_FLAG_CONSUME`: what it returns, or
nothing when the task is blocked. -/
def osFlagPend (g : OSFlagGrp) (flags : OSFlags) : Option OSFlags × OSFlagGrp :=
  let flagsRdy := g.osFlagFlags &&& flags
  if flagsRdy = 0 then (none, { g with waiter := .blocked flags })
  else (some flagsRdy, { g with osFlagFlags := g.osFlagFlags &&& ~~~flagsRdy })

/-- The rest of `OSFlagPend` in a task that was blocked and is ready again. -/
def osFlagResume (g : OSFlagGrp) : Option OSFlags × OSFlagGrp :=
  match g.waiter with
  | .ready flagsRdy =>
    (some flagsRdy, { osFlagFlags := g.osFlagFlags &&& ~~~flagsRdy, waiter := .running })
  | _ => (none, g)

/-! ### Posting and getting -/

/-- The events that a get asks for. -/
def polledEvents : List EMBMasterEventType :=
  [.ready, .frameReceived, .execute, .frameSent, .errorProcess]

/-- `xMBMasterPortEventPost`; it returns `TRUE`. -/
def xMBMasterPortEventPost (g : OSFlagGrp) (eEvent : EMBMasterEventType) : OSFlagGrp :=
  osFlagPost g (masterFlags.code eEvent)

/-- The switch of `xMBMasterPortEventGet`: what `*eEvent` holds after it. -/
def storeEvent (recvedEvent : OSFlags) (eEvent : INT32U) : INT32U :=
  if recvedEvent = masterFlags.code .ready then EMBMasterEventType.value .ready
  else if recvedEvent = masterFlags.code .frameReceived then EMBMasterEventType.value .frameReceived
  else if recvedEvent = masterFlags.code .execute then EMBMasterEventType.value .execute
  else if recvedEvent = masterFlags.code .frameSent then EMBMasterEventType.value .frameSent
  else if recvedEvent = masterFlags.code .errorProcess then EMBMasterEventType.value .errorProcess
  else eEvent

/-- `xMBMasterPortEventGet` up to its return or up to the point where it is blocked; with
`TRUE` it returns the contents of `*eEvent`, which held `eEvent`. -/
def xMBMasterPortEventGet (g : OSFlagGrp) (eEvent : INT32U) : Option INT32U × OSFlagGrp :=
  let pended := osFlagPend g (masterFlags.mask polledEvents)
  (pended.1.map fun recvedEvent => storeEvent recvedEvent eEvent, pended.2)

/-- The rest of a get that was blocked. -/
def xMBMasterPortEventGetResume (g : OSFlagGrp) (eEvent : INT32U) : Option INT32U × OSFlagGrp :=
  let pended := osFlagResume g
  (pended.1.map fun recvedEvent => storeEvent recvedEvent eEvent, pended.2)

/-- A post sets its flags, whatever the task does. -/
theorem osFlagPost_flags (g : OSFlagGrp) (flags : OSFlags) :
    (osFlagPost g flags).osFlagFlags = g.osFlagFlags ||| flags := by
  unfold osFlagPost
  split
  · dsimp only
    split <;> rfl
  · rfl

/-- A post while no task is blocked. -/
theorem osFlagPost_waiter (g : OSFlagGrp) (flags : OSFlags)
    (awake : ∀ wanted, g.waiter ≠ .blocked wanted) :
    (osFlagPost g flags).waiter = g.waiter := by
  unfold osFlagPost
  split
  next wanted blocked => exact absurd blocked (awake wanted)
  next => rfl

/-- A blocked task is made ready by the flags it asks for. -/
theorem osFlagPost_blocked (g : OSFlagGrp) (flags wanted : OSFlags)
    (blocked : g.waiter = .blocked wanted) :
    (osFlagPost g flags).waiter =
      if (g.osFlagFlags ||| flags) &&& wanted = 0 then .blocked wanted
      else .ready ((g.osFlagFlags ||| flags) &&& wanted) := by
  unfold osFlagPost
  rw [blocked]
  dsimp only
  split <;> rfl

/-- A single bit is decoded. -/
theorem storeEvent_code (e : EMBMasterEventType) (polled : e ∈ polledEvents) (eEvent : INT32U) :
    storeEvent (masterFlags.code e) eEvent = e.value := by
  cases e <;> first | rfl | exact absurd polled (by decide)

/-- The switch decodes single bits only. -/
theorem storeEvent_other (recvedEvent : OSFlags) (eEvent : INT32U)
    (several : ∀ e ∈ polledEvents, recvedEvent ≠ masterFlags.code e) :
    storeEvent recvedEvent eEvent = eEvent := by
  have differs : ∀ e ∈ polledEvents, ¬ recvedEvent = masterFlags.code e := several
  rw [storeEvent, if_neg (differs .ready (by decide)), if_neg (differs .frameReceived (by decide)),
    if_neg (differs .execute (by decide)), if_neg (differs .frameSent (by decide)),
    if_neg (differs .errorProcess (by decide))]

end GasSub.Source
