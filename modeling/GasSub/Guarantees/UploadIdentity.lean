import GasSub.Guarantees.ConfigRoundTrip
import GasSub.Source.InitConf
import GasSub.Source.UploadPath

/-!
# The numbers in the uploads

`initTestpoint` stores the number of the configuration into the upload data and clears
it again before it returns, and nothing stores it later. So the number survives the file
and is in `config`, but every upload that is posted carries the number 0.
-/
namespace GasSub.Guarantees.UploadIdentity
open GasSub.Guarantees.ConfigRoundTrip GasSub.Source

/-- The file is read, the calls return, and each posted upload carries the number that was
written for the point it came from. The last configuration of the file is the first point. -/
def UploadsIdentified (written : List (INT32U × SensorConfig)) (passes : List (INT8U × RcvStruct))
    (s : ConfigReader) (more : Nat) : Prop :=
  ∃ t last posts,
    readConfigFile (written.length + 1 + more) (fileReads (configFile written)) s.initEquipmentList =
      .ok t ∧
    updatePasses passes t.list = some (last, posts) ∧
    ∀ posted ∈ posts, ∀ (place : Nat) (upload : UploadInfo), posted[place]? = some upload →
      ∃ config, written.reverse[place]? = some config ∧ upload.testpointNo = config.2.testpointNo

/-- What a call posts for sensors without a number: nothing, or as many uploads without one. -/
def PostedAnonymously (count : Nat) (pass : INT8U × RcvStruct) (posted : List UploadInfo) : Prop :=
  if pass.1 = 1 then posted.length = count ∧ ∀ upload ∈ posted, upload.testpointNo = 0
  else posted = []

/-- No call gives a sensor a number. -/
theorem updatePasses_anonymous (passes : List (INT8U × RcvStruct)) (sensors : List Sensor)
    (anonymous : ∀ s ∈ sensors, s.upload.testpointNo = 0) :
    ∃ last posts, updatePasses passes (sensors.map Sensor.testpoint) = some (last, posts) ∧
      List.Forall₂ (PostedAnonymously sensors.length) passes posts := by
  induction passes generalizing sensors with
  | nil => exact ⟨_, [], rfl, List.Forall₂.nil⟩
  | cons pass rest ih =>
    by_cases flag : pass.1 = 1
    · let refreshed := sensors.map (Sensor.refresh pass.2)
      have still : ∀ s ∈ refreshed, s.upload.testpointNo = 0 := by
        intro s member
        obtain ⟨sensor, inside, rfl⟩ := List.mem_map.mp member
        exact anonymous sensor inside
      obtain ⟨last, posts, taken, all⟩ := ih refreshed still
      have posted : PostedAnonymously sensors.length pass (refreshed.map Sensor.upload) := by
        rw [PostedAnonymously, if_pos flag]
        refine ⟨by rw [List.length_map, List.length_map], fun upload member => ?_⟩
        obtain ⟨sensor, inside, rfl⟩ := List.mem_map.mp member
        exact still sensor inside
      rw [show refreshed.length = sensors.length from List.length_map _] at all
      refine ⟨last, refreshed.map Sensor.upload :: posts, ?_, List.Forall₂.cons posted all⟩
      simp only [updatePasses, updatePass_sensors, if_pos flag, Option.bind_eq_bind, Option.bind_some]
      rw [taken]
      rfl
    · obtain ⟨last, posts, taken, all⟩ := ih sensors anonymous
      have posted : PostedAnonymously sensors.length pass [] := by
        rw [PostedAnonymously, if_neg flag]
      refine ⟨last, [] :: posts, ?_, List.Forall₂.cons posted all⟩
      simp only [updatePasses, updatePass_sensors, if_neg flag, Option.bind_eq_bind, Option.bind_some,
        taken]

/-- What the program does with the file: it is read, the calls return, and whatever they
post carries no number. -/
theorem posts_anonymous (written : List (INT32U × SensorConfig)) (passes : List (INT8U × RcvStruct))
    (s : ConfigReader) (more : Nat) :
    ∃ t last posts,
      readConfigFile (written.length + 1 + more) (fileReads (configFile written))
        s.initEquipmentList = .ok t ∧
      updatePasses passes t.list = some (last, posts) ∧
      List.Forall₂ (PostedAnonymously written.length) passes posts := by
  obtain ⟨t, backs, returned, all, list, -⟩ := readConfigFile_written written s.initEquipmentList more
  let sensors : List Sensor := backs.reverse.map fun back => { config := back, upload := uploadNull }
  have points : t.list = sensors.map Sensor.testpoint := by
    rw [list, ← List.map_reverse, List.map_map]
    exact List.append_nil _
  have fresh : ∀ s ∈ sensors, s.upload.testpointNo = 0 := by
    intro s member
    obtain ⟨back, -, rfl⟩ := List.mem_map.mp member
    rfl
  have count : sensors.length = written.length := by
    rw [List.length_map, List.length_reverse, all.length_eq]
  obtain ⟨last, posts, taken, anonymous⟩ := updatePasses_anonymous passes sensors fresh
  rw [count] at anonymous
  refine ⟨t, last, posts, ?_, ?_, anonymous⟩
  · rw [fileReads_configFile]
    exact returned
  · rw [points]
    exact taken

/-- A call that posts anything is right about a number only if it is 0. -/
theorem testpointNo_of_identified {written : List (INT32U × SensorConfig)}
    {passes : List (INT8U × RcvStruct)} {s : ConfigReader} {more : Nat}
    (identified : UploadsIdentified written passes s more) {pass : INT8U × RcvStruct}
    (called : pass ∈ passes) (flag : pass.1 = 1) {config : INT32U × SensorConfig}
    (member : config ∈ written) : config.2.testpointNo = 0 := by
  obtain ⟨t, last, posts, returned, taken, right⟩ := identified
  obtain ⟨t', last', posts', returned', taken', anonymous⟩ := posts_anonymous written passes s more
  obtain rfl : t = t' := Except.ok.inj (returned.symm.trans returned')
  obtain ⟨rfl, rfl⟩ := Prod.mk.inj (Option.some.inj (taken.symm.trans taken'))
  obtain ⟨posted, inside, without⟩ := exists_partner anonymous called
  rw [PostedAnonymously, if_pos flag] at without
  obtain ⟨place, here⟩ := List.mem_iff_getElem?.mp (List.mem_reverse.mpr member)
  have bound : place < posted.length := by
    have inRange := (List.getElem?_eq_some_iff.mp here).1
    rwa [without.1, ← List.length_reverse]
  have value := List.getElem?_eq_getElem bound
  obtain ⟨found, same, number⟩ := right posted inside place posted[place] value
  obtain rfl : config = found := Option.some.inj (here.symm.trans same)
  rw [← number]
  exact without.2 _ (List.getElem_mem bound)

/-- The uploads carry the numbers of their points exactly when no call posts anything, or
every number in the file is 0. -/
theorem uploads_identified_iff (written : List (INT32U × SensorConfig))
    (passes : List (INT8U × RcvStruct)) (s : ConfigReader) (more : Nat) :
    UploadsIdentified written passes s more ↔
      (∀ pass ∈ passes, pass.1 ≠ 1) ∨ ∀ config ∈ written, config.2.testpointNo = 0 := by
  constructor
  · intro identified
    by_cases silent : ∀ pass ∈ passes, pass.1 ≠ 1
    · exact Or.inl silent
    · push Not at silent
      obtain ⟨pass, called, flag⟩ := silent
      exact Or.inr fun config => testpointNo_of_identified identified called flag
  · intro either
    obtain ⟨t, last, posts, returned, taken, anonymous⟩ := posts_anonymous written passes s more
    refine ⟨t, last, posts, returned, taken, fun posted inside place upload value => ?_⟩
    obtain ⟨pass, called, without⟩ : ∃ pass ∈ passes, PostedAnonymously written.length pass posted :=
      exists_partner anonymous.flip inside
    by_cases flag : pass.1 = 1
    · rw [PostedAnonymously, if_pos flag] at without
      have zeros := either.resolve_left fun silent => silent pass called flag
      have bound : place < written.reverse.length := by
        have inRange := (List.getElem?_eq_some_iff.mp value).1
        rwa [List.length_reverse, ← without.1]
      have here := List.getElem?_eq_getElem bound
      refine ⟨_, here, ?_⟩
      rw [without.2 upload (List.mem_of_getElem? value),
        zeros _ (List.mem_reverse.mp (List.mem_of_getElem? here))]
    · rw [PostedAnonymously, if_neg flag] at without
      rw [without] at value
      cases value

/-- The default analogue configuration has the number 10001, and its first upload has 0. -/
theorem uploads_not_identified_initConf :
    ¬ ∀ (written : List (INT32U × SensorConfig)) (passes : List (INT8U × RcvStruct))
      (s : ConfigReader) (more : Nat), UploadsIdentified written passes s more := by
  intro all
  let report : RcvStruct :=
    { fre := Vector.replicate 16 0
      ad := Vector.replicate 16 0
      count := Vector.replicate 16 0
      sel := 0 }
  let reader : ConfigReader :=
    { buf := [], sensorType := 0, locals := fun _ _ => 0, list := [], equipmentType := 0 }
  have identified := all [(0x10000100, .analogue initConfAnalogue)] [(1, report)] reader 0
  have number := testpointNo_of_identified identified List.mem_cons_self rfl List.mem_cons_self
  exact absurd number (by decide)

end GasSub.Guarantees.UploadIdentity
