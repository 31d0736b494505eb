import GasSub.Source.InitConf
import GasSub.Source.UploadPath

/-!
# The stream of uploads

`UpdateEquipmentList` posts the address of a point's upload data and may rewrite that
data in its next pass, while `ClientTest` copies it in its own time. The stream is right
as long as the queue has room and no point gets another reading while it is outstanding.
-/
namespace GasSub.Guarantees.UploadStream
open GasSub.Library GasSub.Library.Run GasSub.Source

/-- What `ClientTest` sends, once it has caught up, is what was posted. -/
def UploadsSent (s : UploadPath) : Prop := s.queue.Delivered s.cells

instance : DecidablePred UploadsSent :=
  fun s => decEq (s.queue.read s.cells s.queue.outstanding.length).received s.queue.posted

/-- No statement of `UpdateEquipmentList` gives an outstanding point another reading, or
posts without room. -/
def Undisturbed (s : UploadPath) : UploadEvent → Prop
  | .updateEquipmentList =>
    match s.update with
    | .walking rcvTemp place =>
      place ∈ s.queue.outstanding → ∀ tp, s.equipmentList[place]? = some tp →
        (tp.callGetDataFromUart rcvTemp).map Testpoint.upload = some tp.upload
    | .posting _ _ => s.queue.Room uploadQSize
    | _ => True
  | _ => True

/-- The list is one of sensors, and the reader waits on an empty queue only. -/
def Sensors (s : UploadPath) : Prop :=
  (∃ sensors : List Sensor, s.equipmentList = sensors.map Sensor.testpoint) ∧ s.queue.Settled

theorem clientTest_queue (s : UploadPath) :
    PostBox.ReaderStep s.cells s.queue s.clientTest.queue := by
  unfold UploadPath.clientTest
  split
  · exact Or.inr (Or.inr rfl)
  · exact Or.inr (Or.inl rfl)

theorem clientTest_cells (s : UploadPath) : s.clientTest.cells = s.cells := by
  unfold UploadPath.clientTest
  split <;> rfl

/-- A point of a list of sensors gets its reading, and the list stays one of sensors. -/
theorem refreshed_sensors (sensors : List Sensor) (place : Nat) (tp : Testpoint) (rev : RcvStruct)
    (here : (sensors.map Sensor.testpoint)[place]? = some tp) :
    ∃ updated, tp.callGetDataFromUart rev = some updated ∧
      ∃ later : List Sensor,
        (sensors.map Sensor.testpoint).set place updated = later.map Sensor.testpoint := by
  rw [List.getElem?_map, Option.map_eq_some_iff] at here
  obtain ⟨sensor, -, rfl⟩ := here
  refine ⟨_, sensor.callGetDataFromUart_eq rev, sensors.set place (sensor.refresh rev), ?_⟩
  rw [List.map_set]

/-- A rewritten place shows the new upload data, every other place what it did. -/
theorem cells_set (s : UploadPath) (place : Nat) (tp updated : Testpoint) (update : UpdatePass)
    (here : s.equipmentList[place]? = some tp) (key : Nat) :
    { s with equipmentList := s.equipmentList.set place updated, update := update }.cells key =
      if key = place then updated.upload else s.cells key := by
  have inside : place < s.equipmentList.length := (List.getElem?_eq_some_iff.mp here).1
  unfold UploadPath.cells
  split
  next same =>
    subst same
    rw [List.getElem?_set_self inside, Option.map_some, Option.getD_some]
  next other => rw [List.getElem?_set_ne (Ne.symm other)]

theorem cells_here (s : UploadPath) (place : Nat) (tp : Testpoint)
    (here : s.equipmentList[place]? = some tp) : s.cells place = tp.upload := by
  rw [UploadPath.cells, here, Option.map_some, Option.getD_some]

theorem step_sensors (s : UploadPath) (event : UploadEvent) (t : UploadPath)
    (invariant : Sensors s) (taken : s.step event = some t) : Sensors t := by
  obtain ⟨⟨sensors, list⟩, settled⟩ := invariant
  cases event with
  | uart rcvOK info =>
    obtain rfl := Option.some.inj taken
    exact ⟨⟨sensors, list⟩, settled⟩
  | clientTest =>
    obtain rfl := Option.some.inj taken
    have same : s.clientTest.equipmentList = s.equipmentList := by
      unfold UploadPath.clientTest
      split <;> rfl
    exact ⟨⟨sensors, same.trans list⟩, (clientTest_queue s).settled settled⟩
  | updateEquipmentList =>
    simp only [UploadPath.step, UploadPath.updateEquipmentList] at taken
    split at taken
    next =>
      obtain rfl := Option.some.inj taken
      exact ⟨⟨sensors, list⟩, settled⟩
    next =>
      obtain rfl := Option.some.inj taken
      exact ⟨⟨sensors, list⟩, settled⟩
    next rcvTemp place _ =>
      split at taken
      next =>
        obtain rfl := Option.some.inj taken
        exact ⟨⟨sensors, list⟩, settled⟩
      next tp here =>
        rw [list] at here
        obtain ⟨updated, called, later, same⟩ := refreshed_sensors sensors place tp rcvTemp here
        rw [called] at taken
        obtain rfl := Option.some.inj taken
        refine ⟨⟨later, ?_⟩, settled⟩
        rw [← same, ← list]
    next rcvTemp place _ =>
      obtain rfl := Option.some.inj taken
      exact ⟨⟨sensors, list⟩, PostBox.post_settled uploadQSize s.cells place s.queue settled⟩

/-- A statement of `UpdateEquipmentList` keeps the stream exactly when it disturbs nothing. -/
theorem update_sends (s : UploadPath) (invariant : Sensors s) (faithful : s.queue.Faithful s.cells) :
    Undisturbed s .updateEquipmentList ↔
      ∃ t, s.updateEquipmentList = some t ∧ t.queue.Faithful t.cells := by
  obtain ⟨⟨sensors, list⟩, settled⟩ := invariant
  unfold Undisturbed UploadPath.updateEquipmentList
  cases s.update with
  | entry => exact ⟨fun _ => ⟨_, rfl, faithful⟩, fun _ => trivial⟩
  | guarded rcvOK => exact ⟨fun _ => ⟨_, rfl, faithful⟩, fun _ => trivial⟩
  | posting rcvTemp place =>
    have kept := PostBox.post_faithful uploadQSize s.cells place s.queue settled faithful
    simp only [Option.some.injEq, exists_eq_left']
    exact kept.symm
  | walking rcvTemp place =>
    dsimp only
    cases here : s.equipmentList[place]? with
    | none =>
      refine ⟨fun _ => ⟨_, rfl, faithful⟩, fun _ _ tp found => ?_⟩
      cases found
    | some tp =>
      obtain ⟨updated, called, -⟩ := refreshed_sensors sensors place tp rcvTemp (list ▸ here)
      simp only [Option.some.injEq, forall_eq', called, Option.map_some, exists_eq_left']
      rw [PostBox.change_faithful s.cells _ s.queue faithful]
      constructor
      · intro same key member
        rw [cells_set s place tp updated _ here]
        split
        next equal =>
          subst equal
          rw [same member, cells_here s key tp here]
        next => rfl
      · intro same member
        have now := same place member
        rwa [cells_set s place tp updated _ here, if_pos rfl, cells_here s place tp here] at now

theorem step_sends (s : UploadPath) (event : UploadEvent) (invariant : Sensors s)
    (faithful : s.queue.Faithful s.cells) :
    Undisturbed s event ↔ ∃ t, s.step event = some t ∧ t.queue.Faithful t.cells := by
  cases event with
  | uart rcvOK info => exact ⟨fun _ => ⟨_, rfl, faithful⟩, fun _ => trivial⟩
  | updateEquipmentList => exact update_sends s invariant faithful
  | clientTest =>
    refine ⟨fun _ => ⟨s.clientTest, rfl, ?_⟩, fun _ => trivial⟩
    rw [clientTest_cells]
    exact (clientTest_queue s).faithful faithful

/-- Along every interleaving, `ClientTest` sends what was posted, in order and once each,
exactly when no step of `UpdateEquipmentList` disturbs the stream. -/
theorem uploads_sent_iff (sensors : List Sensor) (rcvOK : INT8U) (info : RcvStruct)
    (events : List UploadEvent) :
    let start := UploadPath.start rcvOK info (sensors.map Sensor.testpoint)
    Always UploadPath.step UploadsSent start events ↔
      EachStep UploadPath.step Undisturbed start events := by
  intro start
  have one : ∀ s event, Sensors s → UploadsSent s →
      (Undisturbed s event ↔ ∃ t, s.step event = some t ∧ UploadsSent t) := by
    intro s event invariant sent
    have faithful := (PostBox.delivered_iff s.cells s.queue invariant.2).mp sent
    rw [step_sends s event invariant faithful]
    exact (PostBox.exists_delivered_iff UploadPath.queue UploadPath.cells fun t taken =>
      (step_sensors s event t invariant taken).2).symm
  exact always_iff step_sensors one ⟨⟨sensors, rfl⟩, PostBox.settled_empty⟩ rfl

/-- A report with the same conversion result on all AD ports. -/
def reportOf (result : INT16U) : RcvStruct :=
  { fre := Vector.replicate 16 0
    ad := Vector.replicate 16 result
    count := Vector.replicate 16 0
    sel := 0 }

/-- One sensor, whose second reading comes before `ClientTest` has copied the first. -/
theorem uploads_not_sent_secondPass :
    ¬ ∀ (sensors : List Sensor) (rcvOK : INT8U) (info : RcvStruct) (events : List UploadEvent),
      Always UploadPath.step UploadsSent
        (UploadPath.start rcvOK info (sensors.map Sensor.testpoint)) events := by
  intro all
  let sensor : Sensor := { config := .analogue initConfAnalogue, upload := uploadNull }
  let pass : List UploadEvent := List.replicate 5 .updateEquipmentList
  have sent := all [sensor] 1 (reportOf 1) (pass ++ [.uart 1 (reportOf 2)] ++ pass)
  exact absurd sent (by decide +kernel)

end GasSub.Guarantees.UploadStream
