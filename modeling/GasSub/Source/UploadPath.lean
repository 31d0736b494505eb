import GasSub.Library.PostBox
import GasSub.Library.Run
import GasSub.Source.DataPath

/-!
# From the test points to the server

`UpdateEquipmentList` of `EquipmentList.c` statement by statement, with its posts to
`UploadQueueHead`, and `ClientTest` of `tcp_test.c` while the connection is up. The
messages are addresses of the `upload` fields in the equipment list, so the queue is a
`PostBox` with one cell for each place in the list. Only the display takes the
semaphores besides, and it is not represented.
-/
namespace GasSub.Source
open GasSub.Library GasSub.Library.Run

/-- `UPLOADQSIZE` of `user_main.c`. -/
def uploadQSize : Nat := 128

/-- Where `UpdateEquipmentList` stands: before the call, behind the read of the flag, or
in the walk, in front of its test for the end of the list or in front of a post. -/
inductive UpdatePass where
  | entry
  | guarded (rcvOK : INT8U)
  | walking (rcvTemp : RcvStruct) (place : Nat)
  | posting (rcvTemp : RcvStruct) (place : Nat)
  deriving DecidableEq, Repr

structure UploadPath where
  uart1RcvOK : INT8U
  uart1RcvInfo : RcvStruct
  equipmentList : List Testpoint
  update : UpdatePass
  queue : PostBox Nat UploadInfo

/-- Both tasks at their first statement. -/
def UploadPath.start (rcvOK : INT8U) (info : RcvStruct) (list : List Testpoint) : UploadPath :=
  { uart1RcvOK := rcvOK
    uart1RcvInfo := info
    equipmentList := list
    update := .entry
    queue := .empty }

/-- `pList->upload` at a place of the list, as it is now. -/
def UploadPath.cells (s : UploadPath) (place : Nat) : UploadInfo :=
  (s.equipmentList[place]?.map Testpoint.upload).getD uploadNull

/-- The next statement of `UpdateEquipmentList`. -/
def UploadPath.updateEquipmentList (s : UploadPath) : Option UploadPath :=
  match s.update with
  | .entry => some { s with update := .guarded s.uart1RcvOK }
  | .guarded rcvOK =>
    some { s with update := if rcvOK = 1 then .walking s.uart1RcvInfo 0 else .entry }
  | .walking rcvTemp place =>
    match s.equipmentList[place]? with
    | none => some { s with update := .entry }
    | some tp =>
      (tp.callGetDataFromUart rcvTemp).map fun updated =>
        { s with
          equipmentList := s.equipmentList.set place updated
          update := .posting rcvTemp place }
  | .posting rcvTemp place =>
    -- the result of the post is ignored
    some { s with
      queue := s.queue.post uploadQSize s.cells place
      update := .walking rcvTemp (place + 1) }

/-- The next statement of `ClientTest`: `OSQPend`, or the copy that is sent. -/
def UploadPath.clientTest (s : UploadPath) : UploadPath :=
  match s.queue.reader with
  | .holding _ => { s with queue := s.queue.copy s.cells }
  | _ => { s with queue := s.queue.pend }

inductive UploadEvent where
  /-- The receiving side changes its flag and its data. -/
  | uart (rcvOK : INT8U) (info : RcvStruct)
  | updateEquipmentList
  | clientTest
  deriving DecidableEq, Repr

def UploadPath.step (s : UploadPath) : UploadEvent → Option UploadPath
  | .uart rcvOK info => some { s with uart1RcvOK := rcvOK, uart1RcvInfo := info }
  | .updateEquipmentList => s.updateEquipmentList
  | .clientTest => some s.clientTest

/-! ### A whole pass -/

/-- A call of `UpdateEquipmentList` that finds `rcvOK` and copies `info`: the list it
leaves and the values it posts, in the order of the list. -/
def updatePass (rcvOK : INT8U) (info : RcvStruct) (list : List Testpoint) :
    Option (List Testpoint × List UploadInfo) :=
  if rcvOK = 1 then (updateWalk info list).map fun after => (after, after.map Testpoint.upload)
  else some (list, [])

/-- One call after the other, each with the flag it finds and the data it copies: the list
at the end, and what each call posts. -/
def updatePasses : List (INT8U × RcvStruct) → List Testpoint →
    Option (List Testpoint × List (List UploadInfo))
  | [], list => some (list, [])
  | pass :: rest, list => do
    let first ← updatePass pass.1 pass.2 list
    let others ← updatePasses rest first.1
    some (others.1, first.2 :: others.2)

/-- A task that is left alone takes `n` statements of `UpdateEquipmentList`. -/
def UploadPath.updateAlone (s : UploadPath) (n : Nat) : Option UploadPath :=
  (List.replicate n UploadEvent.updateEquipmentList).foldlM UploadPath.step s

theorem UploadPath.updateAlone_succ (s : UploadPath) (n : Nat) :
    s.updateAlone (n + 1) = s.updateEquipmentList.bind fun t => t.updateAlone n := by
  rw [updateAlone, List.replicate_succ, List.foldlM_cons]
  rfl

/-- The statements of the walk from some place on do what `updateWalk` does to the rest
of the list, and post each point as they leave it. -/
theorem updateAlone_walk (info : RcvStruct) (before rest after : List Testpoint) (s : UploadPath)
    (walking : s.update = .walking info before.length)
    (list : s.equipmentList = before ++ rest) (walked : updateWalk info rest = some after) :
    ∃ t, s.updateAlone (2 * rest.length + 1) = some t ∧ t.update = .entry ∧
      t.equipmentList = before ++ after ∧
      t.queue.posted = s.queue.posted ++ after.map Testpoint.upload := by
  induction rest generalizing before after s with
  | nil =>
    obtain rfl := Option.some.inj walked
    have stop : s.updateEquipmentList = some { s with update := .entry } := by
      simp only [UploadPath.updateEquipmentList, walking, list, List.append_nil,
        List.getElem?_eq_none_iff.mpr (Nat.le_refl _)]
    refine ⟨{ s with update := .entry }, ?_, rfl, list, by simp⟩
    rw [UploadPath.updateAlone_succ, stop]
    rfl
  | cons tp rest ih =>
    simp only [updateWalk, Option.bind_eq_bind, Option.bind_eq_some_iff, Option.some.injEq] at walked
    obtain ⟨updated, called, others, tail, same⟩ := walked
    subst same
    have here : s.equipmentList[before.length]? = some tp := by
      rw [list, List.getElem?_append_right (Nat.le_refl _), Nat.sub_self, List.getElem?_cons_zero]
    let refreshed : UploadPath :=
      { s with
        equipmentList := before ++ updated :: rest
        update := .posting info before.length }
    have first : s.updateEquipmentList = some refreshed := by
      simp only [UploadPath.updateEquipmentList, walking, here, called, Option.map_some,
        Option.some.injEq, refreshed]
      rw [list, List.set_append_right _ _ (Nat.le_refl _), Nat.sub_self, List.set_cons_zero]
    have cell : refreshed.cells before.length = updated.upload := by
      simp only [UploadPath.cells, refreshed, List.getElem?_append_right (Nat.le_refl _),
        Nat.sub_self, List.getElem?_cons_zero, Option.map_some, Option.getD_some]
    let posted : UploadPath :=
      { refreshed with
        queue := s.queue.post uploadQSize refreshed.cells before.length
        update := .walking info (before.length + 1) }
    have second : refreshed.updateEquipmentList = some posted := rfl
    obtain ⟨t, run, entry, left, record⟩ := ih (before ++ [updated]) others posted
      (by rw [List.length_append, List.length_singleton])
      (by rw [List.append_assoc, List.singleton_append]) tail
    refine ⟨t, ?_, entry, ?_, ?_⟩
    · have count : 2 * (tp :: rest).length + 1 = (2 * rest.length + 1) + 1 + 1 := by
        rw [List.length_cons]
        omega
      rw [count, UploadPath.updateAlone_succ, first, Option.bind_some, UploadPath.updateAlone_succ,
        second, Option.bind_some, run]
    · rw [left, List.append_assoc, List.singleton_append]
    · rw [record, PostBox.post_posted, cell, List.append_assoc, List.singleton_append, List.map_cons]

/-- A call whose task is left alone leaves the list and makes the posts of `updatePass`. -/
theorem updateAlone_pass (s : UploadPath) (after : List Testpoint) (values : List UploadInfo)
    (entry : s.update = .entry)
    (passed : updatePass s.uart1RcvOK s.uart1RcvInfo s.equipmentList = some (after, values)) :
    ∃ n t, s.updateAlone n = some t ∧ t.update = .entry ∧ t.equipmentList = after ∧
      t.queue.posted = s.queue.posted ++ values := by
  let guarded : UploadPath := { s with update := .guarded s.uart1RcvOK }
  have first : s.updateEquipmentList = some guarded := by
    simp only [UploadPath.updateEquipmentList, entry, guarded]
  by_cases flag : s.uart1RcvOK = 1
  · rw [updatePass, if_pos flag, Option.map_eq_some_iff] at passed
    obtain ⟨list, walked, same⟩ := passed
    obtain ⟨rfl, rfl⟩ := Prod.mk.inj same
    let walking : UploadPath := { s with update := .walking s.uart1RcvInfo 0 }
    have second : guarded.updateEquipmentList = some walking := by
      simp only [UploadPath.updateEquipmentList, guarded, flag, if_true, walking]
    obtain ⟨t, run, done, left, record⟩ :=
      updateAlone_walk s.uart1RcvInfo [] s.equipmentList list walking rfl rfl walked
    refine ⟨2 * s.equipmentList.length + 1 + 1 + 1, t, ?_, done, left, record⟩
    rw [UploadPath.updateAlone_succ, first, Option.bind_some, UploadPath.updateAlone_succ, second,
      Option.bind_some, run]
  · rw [updatePass, if_neg flag] at passed
    obtain ⟨rfl, rfl⟩ := Prod.mk.inj (Option.some.inj passed)
    have second : guarded.updateEquipmentList = some { s with update := .entry } := by
      simp only [UploadPath.updateEquipmentList, guarded, flag, if_false]
    refine ⟨2, { s with update := .entry }, ?_, rfl, rfl, (List.append_nil _).symm⟩
    rw [UploadPath.updateAlone_succ, first, Option.bind_some, UploadPath.updateAlone_succ, second]
    rfl

/-- A call on sensors returns, and posts the refreshed readings or nothing. -/
theorem updatePass_sensors (rcvOK : INT8U) (info : RcvStruct) (sensors : List Sensor) :
    updatePass rcvOK info (sensors.map Sensor.testpoint) =
      if rcvOK = 1 then
        some ((sensors.map (Sensor.refresh info)).map Sensor.testpoint,
          (sensors.map (Sensor.refresh info)).map Sensor.upload)
      else some (sensors.map Sensor.testpoint, []) := by
  have uploads : ∀ list : List Sensor,
      (list.map Sensor.testpoint).map Testpoint.upload = list.map Sensor.upload := by
    intro list
    rw [List.map_map]
    rfl
  unfold updatePass
  rw [updateWalk_sensors, Option.map_some, uploads]

end GasSub.Source
