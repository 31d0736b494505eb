import GasSub.Library.PostBox
import GasSub.Library.Run
import GasSub.Source.Sensor

/-!
# The infrared remote control

The decoder in `user_key.c` (`EINT0_IRQHandler`, `TIMER2_IRQHandler`) and the task that
passes its keys to the GUI (`task_Key`). Each post to `KeyQueueHead` is the address of
the one global `KeyValueSaved`, so the queue is a `PostBox` with a single cell. An
interrupt runs between two statements of the task, and none of them inside another.
-/
namespace GasSub.Source
open GasSub.Library

def keyAdd : INT32U := 0x0000E280
def keySub : INT32U := 0x0000E240
def keyFunc : INT32U := 0x0000E2C0
def keyExec : INT32U := 0x0000E200
def keyOk : INT32U := 0x807D40BF
def keyUp : INT32U := 0x807D00FF
def keyDown : INT32U := 0x807D807F
def keyLeft : INT32U := 0x807D40DF
def keyRight : INT32U := 0x807DA05F

/-- The keys that are not repeated while they are held down. -/
def debouncedKeys : List INT32U := [keyAdd, keySub, keyFunc, keyExec]

def repeatedKeys : List INT32U := [keyOk, keyUp, keyDown, keyLeft, keyRight]

/-- `KEYQSIZE` of `user_main.c`, where the queue is created. -/
def keyQSize : Nat := 8

/-- The globals of the decoder. -/
structure KeyDecoder where
  times : INT32U
  validtime : INT32U
  keyvalue : INT32U
  oldkeyvalue : INT32U
  keyValueSaved : INT32U
  oldVal : INT32U
  keyKeep : INT8U
  keyTmp : INT8U
  deriving DecidableEq, Repr

/-- The globals at power-on, after `KeyInit`. -/
def keyInit : KeyDecoder :=
  { times := 0
    validtime := 0
    keyvalue := 0
    oldkeyvalue := 0
    keyValueSaved := 0
    oldVal := 0
    keyKeep := 0
    keyTmp := 0 }

/-- The branch of a held key: every second time the last code counts again. -/
def keyRepeated (d : KeyDecoder) : KeyDecoder :=
  if d.keyKeep = 0 then { d with keyKeep := 1 }
  else if d.keyKeep = 1 then
    let counted := { d with keyTmp := d.keyTmp + 1 }
    if 2 ≤ counted.keyTmp then { counted with keyvalue := d.oldkeyvalue, keyTmp := 0 }
    else { counted with keyvalue := 0 }
  else d

/-- The first part of `EINT0_IRQHandler`: what the interval since the last edge means. -/
def keyInterval (d : KeyDecoder) : KeyDecoder :=
  let times := d.times
  let measured :=
    if 300 < times then { d with keyvalue := 0 }
    else if 6 ≤ times ∧ times ≤ 15 then { d with keyvalue := d.keyvalue <<< 1 ||| 0 }
    else if 18 < times ∧ times ≤ 26 then { d with keyvalue := d.keyvalue <<< 1 ||| 1 }
    else if 105 < times ∧ times ≤ 115 then { keyRepeated d with validtime := 0 }
    else if 125 ≤ times ∧ times ≤ 145 then { d with keyKeep := 0, keyTmp := 0, validtime := 0 }
    else { d with keyvalue := 0 }
  { measured with times := 0 }

/-- The switch posts for this decoder state. -/
def keyPosted (d : KeyDecoder) : Bool :=
  d.keyvalue ∈ repeatedKeys ∨ d.keyvalue ∈ debouncedKeys ∧ d.keyvalue ≠ d.oldkeyvalue

/-- The cases of the switch but for the post itself, which comes right after the store
to `KeyValueSaved`. -/
def keySwitch (d : KeyDecoder) : KeyDecoder :=
  if keyPosted d then
    { d with keyValueSaved := d.keyvalue, oldkeyvalue := d.keyvalue, validtime := 0, keyvalue := 0 }
  else if d.keyvalue ∈ debouncedKeys then { d with keyvalue := 0 }
  else d

/-- `EINT0_IRQHandler`, and whether it posts. -/
def eint0IRQHandler (d : KeyDecoder) : KeyDecoder × Bool :=
  let measured := keyInterval d
  let switched := keySwitch measured
  ({ switched with oldVal := switched.oldkeyvalue }, keyPosted measured)

/-- `TIMER2_IRQHandler` on a match of channel 0. -/
def timer2IRQHandler (d : KeyDecoder) : KeyDecoder :=
  let timed := if d.times ≤ 1000 then { d with times := d.times + 1 } else { d with keyvalue := 0 }
  let aged := { timed with validtime := timed.validtime + 1 }
  if 2100 ≤ aged.validtime then { aged with keyvalue := 0, validtime := 0, oldkeyvalue := 0 }
  else aged

/-- The `GUI_KEY_` codes that the task uses. -/
inductive GuiKey where
  | up | down | tab | enter | left
  deriving DecidableEq, Repr

/-- The cases that both switches of `task_Key` have in common. -/
def guiKey (code : INT32U) : Option GuiKey :=
  if code = keyAdd ∨ code = keyUp then some .up
  else if code = keySub ∨ code = keyDown then some .down
  else if code = keyFunc ∨ code = keyRight then some .tab
  else if code = keyExec ∨ code = keyOk then some .enter
  else if code = keyLeft then some .left
  else none

/-- The interrupts, the queue and the task. `delaying` holds from the first switch of an
iteration to the second one; `messages` are the calls of `GUI_StoreKeyMsg`. -/
structure KeySystem where
  decoder : KeyDecoder
  queue : PostBox Unit INT32U
  delaying : Bool
  messages : List (GuiKey × Bool)
  deriving DecidableEq, Repr

/-- The state in which the task starts. -/
def KeySystem.start (decoder : KeyDecoder) : KeySystem :=
  { decoder := decoder, queue := .empty, delaying := false, messages := [] }

/-- What a message points to: `KeyValueSaved`, as it is now. -/
def KeySystem.cells (s : KeySystem) : Unit → INT32U := fun _ => s.decoder.keyValueSaved

/-- The first switch of `task_Key`: `*KeyValue` is read here. -/
def keyDispatch (s : KeySystem) : KeySystem :=
  let pressed := (guiKey s.decoder.keyValueSaved).toList.map fun key => (key, true)
  { s with queue := s.queue.copy s.cells, delaying := true, messages := s.messages ++ pressed }

/-- The second switch of `task_Key`, behind the delay. -/
def keyRelease (s : KeySystem) : KeySystem :=
  let released := (guiKey s.decoder.oldVal).toList.map fun key => (key, false)
  let oldVal := if s.decoder.oldVal ∈ debouncedKeys then 0 else s.decoder.oldVal
  { s with
    decoder := { s.decoder with oldVal := oldVal }
    delaying := false
    messages := s.messages ++ released }

/-- The next statement of `task_Key`; with nothing in the queue it is blocked. -/
def taskKey (s : KeySystem) : KeySystem :=
  if s.delaying then keyRelease s
  else
    match s.queue.reader with
    | .holding _ => keyDispatch s
    | _ => { s with queue := s.queue.pend }

inductive KeyEvent where
  | eint0
  | timer2
  | task
  deriving DecidableEq, Repr

/-- One interrupt or one statement of the task. -/
def KeySystem.step (s : KeySystem) : KeyEvent → Option KeySystem
  | .eint0 =>
    let handled := eint0IRQHandler s.decoder
    let interrupted := { s with decoder := handled.1 }
    if handled.2 then
      some { interrupted with queue := s.queue.post keyQSize interrupted.cells () }
    else some interrupted
  | .timer2 => some { s with decoder := timer2IRQHandler s.decoder }
  | .task => some (taskKey s)

/-! ### What a step does to the queue and to its cell -/

@[simp] theorem keyRepeated_saved (d : KeyDecoder) :
    (keyRepeated d).keyValueSaved = d.keyValueSaved := by
  simp only [keyRepeated]
  split_ifs <;> rfl

@[simp] theorem keyInterval_saved (d : KeyDecoder) :
    (keyInterval d).keyValueSaved = d.keyValueSaved := by
  simp only [keyInterval]
  split_ifs <;> first
    | rfl
    | exact keyRepeated_saved d

/-- `KeyValueSaved` changes with a post only, and then to the code decoded. -/
theorem eint0IRQHandler_saved (d : KeyDecoder) :
    (eint0IRQHandler d).1.keyValueSaved =
      if keyPosted (keyInterval d) then (keyInterval d).keyvalue else d.keyValueSaved := by
  simp only [eint0IRQHandler, keySwitch]
  split_ifs
  · rfl
  · exact keyInterval_saved d
  · exact keyInterval_saved d

@[simp] theorem timer2IRQHandler_saved (d : KeyDecoder) :
    (timer2IRQHandler d).keyValueSaved = d.keyValueSaved := by
  simp only [timer2IRQHandler]
  split_ifs <;> rfl

@[simp] theorem taskKey_cells (s : KeySystem) : (taskKey s).cells = s.cells := by
  unfold taskKey
  split
  · rfl
  · split <;> rfl

theorem taskKey_queue (s : KeySystem) :
    PostBox.ReaderStep s.cells s.queue (taskKey s).queue := by
  unfold taskKey
  split
  · exact Or.inl rfl
  · split
    · exact Or.inr (Or.inr rfl)
    · exact Or.inr (Or.inl rfl)

end GasSub.Source
