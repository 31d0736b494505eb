import GasSub.Library.Run

/-!
# A busy flag between a task and an interrupt

A driver sends a frame by loading it, writing its first unit, arming an
interrupt for the rest and marking itself busy, each a statement of its own. The
interrupt that ends the frame disarms itself and takes the mark back. The two
writes of the flag come in the intended order unless the frame ends before the
task has marked the driver busy; then the mark stays for good.
-/
namespace GasSub.Library.BusyFlag
open GasSub.Library.Run

/-- A device with its flag (0 while busy, 1 while free), its interrupt enable, and the
statements of the task and the interrupt. Loading and interrupting may have no defined
result. -/
structure Transmitter (δ κ : Type) where
  flag : δ → BitVec 8
  armed : δ → Bool
  load : δ → κ → Option δ
  first : δ → δ
  arm : δ → δ
  mark : δ → δ
  interrupt : δ → Option δ
  armed_mark : ∀ d, armed (mark d) = armed d
  flag_mark : ∀ d, flag (mark d) = 0
  interrupt_ends : ∀ d e, interrupt d = some e → armed d = true → armed e = false → flag e = 1

/-- Between which statements the task stands. -/
inductive Place where
  | outside | loaded | started | arming
  deriving DecidableEq, Repr

structure State (δ : Type) where
  place : Place
  device : δ
  deriving DecidableEq, Repr

inductive Event (κ : Type) where
  /-- the task enters the send function -/
  | call (frame : κ)
  /-- the task executes its next statement -/
  | advance
  | interrupt
  deriving DecidableEq, Repr

variable {δ κ : Type} (T : Transmitter δ κ)

/-- One statement of the task, or one interrupt if it is enabled. -/
def step (s : State δ) : Event κ → Option (State δ)
  | .call frame =>
    if s.place = .outside ∧ T.flag s.device ≠ 0 then
      (T.load s.device frame).map fun d => ⟨.loaded, d⟩
    else some s
  | .advance =>
    match s.place with
    | .outside => some s
    | .loaded => some ⟨.started, T.first s.device⟩
    | .started => some ⟨.arming, T.arm s.device⟩
    | .arming => some ⟨.outside, T.mark s.device⟩
  | .interrupt =>
    if T.armed s.device = true then (T.interrupt s.device).map fun d => ⟨s.place, d⟩ else some s

/-- The send function without interrupts in between. -/
def send (d : δ) (frame : κ) : Option δ :=
  if T.flag d = 0 then some d else (T.load d frame).map fun l => T.mark (T.arm (T.first l))

/-- Its statements one after another do what the function does. -/
theorem foldlM_call (d : δ) (frame : κ) :
    [.call frame, .advance, .advance, .advance].foldlM (step T) ⟨.outside, d⟩ =
      (send T d frame).map fun e => ⟨.outside, e⟩ := by
  by_cases busy : T.flag d = 0
  · have ignored : step T ⟨.outside, d⟩ (.call frame) = some ⟨.outside, d⟩ :=
      if_neg fun entered => entered.2 busy
    rw [send, if_pos busy, List.foldlM_cons, ignored]
    rfl
  · have entered : step T ⟨.outside, d⟩ (.call frame) =
        (T.load d frame).map fun l => ⟨.loaded, l⟩ := if_pos ⟨rfl, busy⟩
    rw [send, if_neg busy, List.foldlM_cons, entered]
    cases T.load d frame with
    | none => rfl
    | some l => rfl

/-- With the task outside and the interrupt disabled, the next frame is accepted. -/
def Free (s : State δ) : Prop :=
  s.place = .outside → T.armed s.device = false → T.flag s.device = 1

/-- When the task marks the driver busy, the frame is still going out. -/
def MarksInTime (s : State δ) (event : Event κ) : Prop :=
  event = .advance → s.place = .arming → T.armed s.device = true

/-- Only the marking statement can leave the driver busy with nothing to send. -/
theorem marksInTime_iff (s : State δ) (event : Event κ) (free : Free T s) :
    MarksInTime T s event ↔ ∀ t, step T s event = some t → Free T t := by
  cases event with
  | call frame =>
    refine iff_of_true (fun no => nomatch no) fun t taken outside disarmed => ?_
    simp only [step] at taken
    split at taken
    · obtain ⟨d, -, rfl⟩ := Option.map_eq_some_iff.mp taken
      cases outside
    · obtain rfl : s = t := Option.some.inj taken
      exact free outside disarmed
  | interrupt =>
    refine iff_of_true (fun no => nomatch no) fun t taken outside disarmed => ?_
    simp only [step] at taken
    split at taken
    next armed =>
      obtain ⟨d, ended, rfl⟩ := Option.map_eq_some_iff.mp taken
      exact T.interrupt_ends _ d ended armed disarmed
    next =>
      obtain rfl : s = t := Option.some.inj taken
      exact free outside disarmed
  | advance =>
    obtain ⟨place, device⟩ := s
    cases place with
    | outside =>
      refine iff_of_true (fun _ no => nomatch no) fun t taken => ?_
      obtain rfl : _ = t := Option.some.inj taken
      exact free
    | loaded =>
      refine iff_of_true (fun _ no => nomatch no) fun t taken outside => ?_
      obtain rfl : _ = t := Option.some.inj taken
      cases outside
    | started =>
      refine iff_of_true (fun _ no => nomatch no) fun t taken outside => ?_
      obtain rfl : _ = t := Option.some.inj taken
      cases outside
    | arming =>
      have marked : step T ⟨.arming, device⟩ .advance = some ⟨.outside, T.mark device⟩ := rfl
      constructor
      · intro inTime t taken _ disarmed
        obtain rfl : _ = t := Option.some.inj (marked.symm.trans taken)
        rw [T.armed_mark, inTime rfl rfl] at disarmed
        cases disarmed
      · intro kept _ _
        by_contra disarmed
        have stuck := kept _ marked rfl (by rw [T.armed_mark]; exact Bool.not_eq_true _ ▸ disarmed)
        rw [T.flag_mark] at stuck
        cases stuck

/-- The driver never hangs exactly in the runs in which every mark comes in time. -/
theorem free_throughout_iff (s : State δ) (events : List (Event κ)) (free : Free T s) :
    Throughout (step T) (Free T) s events ↔ EachStep (step T) (MarksInTime T) s events :=
  throughout_iff (I := fun _ => True) (fun _ _ _ _ _ => trivial)
    (fun s event _ free => marksInTime_iff T s event free) trivial free

end GasSub.Library.BusyFlag
