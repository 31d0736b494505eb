import GasSub.Guarantees.ConfigRoundTrip
import GasSub.Source.OnPaint
import GasSub.Source.UploadPath

/-!
# Dispatch safety of the equipment list

Whatever the file holds and whatever the reads of it return, a point comes into the
list through an arm of `initTestpoint` that fits the reader just used. A location that
ends in the first 30 bytes of its record keeps the copies inside the structures.
-/
namespace GasSub.Guarantees.DispatchSafety
open GasSub.Library.ByteMemory GasSub.Library.Decimal GasSub.Source
open GasSub.Guarantees.ConfigRoundTrip

/-- All nine pointers are set, to functions of one kind; `config` was allocated for that
kind, and `EquipmentType` names it. -/
structure PointersMatch (kind : SensorKind) (tp : Testpoint) : Prop where
  getShowInfo : tp.getShowInfo = some kind
  getDataFromUart : tp.getDataFromUart = some kind
  ifAlarm : tp.ifAlarm = some kind
  ifLiftAlarm : tp.ifLiftAlarm = some kind
  ifOutput : tp.ifOutput = some kind
  controlOutput : tp.controlOutput = some kind
  ifRecover : tp.ifRecover = some kind
  controlRecover : tp.controlRecover = some kind
  setConfig : tp.setConfig = some kind
  config : tp.config.map SensorConfig.kind = some kind
  equipmentType : tp.equipmentType = kind.code

/-- The list holds matching points only, and keeps doing so: any calls of
`UpdateEquipmentList` return, and so does `_OnPaint` behind them. -/
structure DispatchSafe (list : List Testpoint) : Prop where
  pointers : ∀ tp ∈ list, ∃ kind, PointersMatch kind tp
  calls : ∀ passes, ∃ after posted, updatePasses passes list = some (after, posted) ∧
    (∀ tp ∈ after, ∃ kind, PointersMatch kind tp) ∧
    ∀ info, ∃ painted, onPaint after info = some painted

/-- A text that ends within 30 bytes, in a buffer of zeros. -/
def EndsEarly (bytes : List INT8U) : Prop := 0 ∈ bytes.take 30 ∨ bytes.length < 30

/-! ### Lists of typed points -/

theorem pointersMatch_sensor (s : Sensor) : PointersMatch s.config.kind s.testpoint := by
  constructor
  case config =>
    change some (s.config.copy).kind = _
    rw [SensorConfig.copy_eq]
  all_goals rfl

theorem pointersMatch_sensors (sensors : List Sensor) :
    ∀ tp ∈ sensors.map Sensor.testpoint, ∃ kind, PointersMatch kind tp := by
  intro tp member
  obtain ⟨s, -, rfl⟩ := List.mem_map.mp member
  exact ⟨_, pointersMatch_sensor s⟩

/-- Updates turn typed points into typed points. -/
theorem updatePasses_sensors (passes : List (INT8U × RcvStruct)) (sensors : List Sensor) :
    ∃ (after : List Sensor) (posted : List (List UploadInfo)),
      updatePasses passes (sensors.map Sensor.testpoint) =
        some (after.map Sensor.testpoint, posted) := by
  induction passes generalizing sensors with
  | nil => exact ⟨sensors, [], rfl⟩
  | cons pass rest ih =>
    have first : ∃ (next : List Sensor) (sent : List UploadInfo),
        updatePass pass.1 pass.2 (sensors.map Sensor.testpoint) =
          some (next.map Sensor.testpoint, sent) := by
      by_cases taken : pass.1 = 1
      · have walked := updateWalk_sensors pass.2 sensors
        exact ⟨_, _, by rw [updatePass, if_pos taken, walked, Option.map_some]⟩
      · exact ⟨sensors, [], by rw [updatePass, if_neg taken]⟩
    obtain ⟨next, sent, updated⟩ := first
    obtain ⟨after, posted, others⟩ := ih next
    exact ⟨after, sent :: posted, by
      simp only [updatePasses, updated, others, Option.bind_eq_bind, Option.bind_some]⟩

theorem dispatchSafe_sensors (sensors : List Sensor) :
    DispatchSafe (sensors.map Sensor.testpoint) where
  pointers := pointersMatch_sensors sensors
  calls passes := by
    obtain ⟨after, posted, updated⟩ := updatePasses_sensors passes sensors
    refine ⟨after.map Sensor.testpoint, posted, updated, pointersMatch_sensors after, fun info => ?_⟩
    obtain ⟨calls, painted⟩ := onPaint_sensors after info
    exact ⟨_, painted⟩

/-! ### Locations that end early -/

theorem length_cString_of_mem {bytes : List INT8U} {n : Nat} (early : 0 ∈ bytes.take (n + 1)) :
    (cString bytes).length ≤ n := by
  by_contra long
  have front : bytes.take (n + 1) = (cString bytes).take (n + 1) := by
    have split : cString bytes ++ bytes.dropWhile (· ≠ 0) = bytes := List.takeWhile_append_dropWhile
    conv_lhs => rw [← split]
    exact List.take_append_of_le_length (by omega)
  rw [front] at early
  exact nul_notMem_cString bytes (List.mem_of_mem_take early)

theorem length_cString_of_notMem {bytes : List INT8U} {n : Nat} (long : n ≤ bytes.length)
    (inside : 0 ∉ bytes.take n) : n ≤ (cString bytes).length := by
  have split : cString bytes = bytes.take n ++ cString (bytes.drop n) := by
    conv_lhs => rw [← List.take_append_drop n bytes]
    refine List.takeWhile_append_of_pos fun byte member => decide_eq_true fun zero => ?_
    exact inside (zero ▸ member)
  rw [split, List.length_append, List.length_take]
  omega

/-- In a buffer of zeros the text has at most 29 characters just if the record ends early. -/
theorem length_cString_yaffsRead_iff (reads : List (List INT8U)) :
    (cString (yaffsRead reads).1).length ≤ 29 ↔ EndsEarly (reads.getD 0 []) := by
  cases reads with
  | nil => exact iff_of_true (by decide) (Or.inr (by decide))
  | cons bytes rest =>
    change (cString ((bytes ++ List.replicate 64 0).take 64)).length ≤ 29 ↔ EndsEarly bytes
    have front : ((bytes ++ List.replicate 64 0).take 64).take 30 =
        bytes.take 30 ++ (List.replicate 64 0).take (30 - bytes.length) := by
      rw [List.take_take, Nat.min_eq_left (by decide), List.take_append]
    constructor
    · intro fits
      by_contra late
      obtain ⟨inside, long⟩ := not_or.mp late
      have zeros : 30 - bytes.length = 0 := by omega
      rw [zeros, List.take_zero, List.append_nil] at front
      have size : 30 ≤ ((bytes ++ List.replicate 64 0).take 64).length := by
        rw [List.length_take, List.length_append, List.length_replicate]
        omega
      have text := length_cString_of_notMem size (by rw [front]; exact inside)
      omega
    · intro early
      apply length_cString_of_mem
      rw [front, List.mem_append]
      rcases early with inside | short
      · exact Or.inl inside
      · right
        rw [List.take_replicate, List.mem_replicate]
        exact ⟨by omega, rfl⟩

theorem agreeBelow_scanFields {bound : Nat} {m : Memory} (targets : List (Option Nat)) :
    ∀ (text : Text) (later : Memory), AgreeBelow bound later m →
      (∀ target ∈ targets, ∀ offset ∈ target, bound ≤ offset) →
      AgreeBelow bound (scanFields targets text later).1 m := by
  induction targets with
  | nil => exact fun _ _ agree _ => agree
  | cons target rest ih =>
    intro text later agree behind
    have tail := fun later member => behind later (List.mem_cons_of_mem target member)
    rw [scanFields]
    cases scanInt text with
    | none => exact agree
    | some scanned =>
      cases target with
      | none => exact ih _ _ agree tail
      | some offset => exact ih _ _ (agree.store32 (behind _ List.mem_cons_self offset rfl)) tail

theorem agreeBelow_readFields {bound : Nat} {later m : Memory} {targets : List (Option Nat)}
    (reads : List (List INT8U)) (agree : AgreeBelow bound later m)
    (behind : ∀ target ∈ targets, ∀ offset ∈ target, bound ≤ offset) :
    AgreeBelow bound (readFields targets reads later).1 m :=
  agreeBelow_scanFields targets _ _ agree behind

/-- A copied text is a location just if it fits the field. -/
theorem locationOf_readString_iff (reads : List (List INT8U)) (m : Memory) :
    (locationOf (readString locationAt reads m).1).isSome ↔
      (cString (yaffsRead reads).1).length ≤ 29 := by
  have nulFree := nul_notMem_cString (yaffsRead reads).1
  rw [readString]
  generalize cString (yaffsRead reads).1 = chars at nulFree
  constructor
  · intro held
    by_contra long
    have field : ((List.range 30).map fun k => store m locationAt (chars ++ [0]) (locationAt + k)) =
        chars.take 30 := by
      have within : 30 ≤ chars.length := by omega
      have longer : 30 ≤ (chars ++ [0]).length := Nat.le_trans within (by simp)
      rw [← List.take_append_of_le_length within]
      exact bytesFrom_eq_take (fun k => store_inside m locationAt k (chars ++ [0])) longer
    have whole : cString (chars.take 30) = chars.take 30 :=
      cString_of_nulFree fun member => nulFree (List.mem_of_mem_take member)
    rw [locationOf, dif_neg] at held
    · cases held
    · rw [field, whole, List.length_take]
      omega
  · intro fits
    exact Option.isSome_iff_exists.mpr
      ⟨⟨chars, fits, nulFree⟩, locationOf_store m ⟨chars, fits, nulFree⟩⟩

/-- Behind the copy of the location only fields behind it are stored. -/
theorem agreeBelow_fileGetConfig (kind : SensorKind) (reads : List (List INT8U)) (m : Memory) :
    ∃ before, AgreeBelow outputControlAt (fileGetConfig kind reads m).1
      (readString locationAt (yaffsRead reads).2 before).1 := by
  refine ⟨(readFields [some testpointNoAt, some sensorNameAt, some portTypeAt, none] reads m).1, ?_⟩
  cases kind with
  | analogue =>
    refine agreeBelow_storeFloat (agreeBelow_scanFields _ _ _ (agreeBelow_readFields _
      (agreeBelow_readFields _ (agreeBelow_readFields _ (agreeBelow_readFields _
      (agreeBelow_readFields _ (AgreeBelow.refl _ _) ?_) ?_) ?_) ?_) ?_) ?_) ?_
    all_goals decide
  | switch =>
    refine agreeBelow_readFields _ (AgreeBelow.refl _ _) ?_
    decide
  | accumulate =>
    refine agreeBelow_readFields _ (agreeBelow_storeFloat
      (agreeBelow_readFields _ (AgreeBelow.refl _ _) ?_) ?_) ?_
    all_goals decide
  | tristate =>
    refine agreeBelow_readFields _ (agreeBelow_readFields _ (AgreeBelow.refl _ _) ?_) ?_
    all_goals decide

/-- The second record that a reader takes decides whether the location ends in its field. -/
theorem locationOf_fileGetConfig_iff (kind : SensorKind) (reads : List (List INT8U)) (m : Memory) :
    (locationOf (fileGetConfig kind reads m).1).isSome ↔
      (cString (yaffsRead (yaffsRead reads).2).1).length ≤ 29 := by
  obtain ⟨before, agree⟩ := agreeBelow_fileGetConfig kind reads m
  rw [locationOf_congr agree, locationOf_readString_iff]

theorem locationOf_fileGetConfig (kind : SensorKind) {reads : List (List INT8U)} (m : Memory)
    (early : ∀ bytes ∈ reads, EndsEarly bytes) :
    (locationOf (fileGetConfig kind reads m).1).isSome := by
  rw [locationOf_fileGetConfig_iff, length_cString_yaffsRead_iff, yaffsRead_rest]
  cases second : reads.drop 1 with
  | nil => exact Or.inr (by decide)
  | cons bytes rest =>
    have member : bytes ∈ reads.drop 1 := by
      rw [second]
      exact List.mem_cons_self
    exact early bytes (List.mem_of_mem_drop member)

/-! ### The loop -/

/-- What is still to be delivered ends early, record by record. -/
def AllEndEarly (reads : YaffsReads) : Prop := ∀ bytes, some bytes ∈ reads.results → EndsEarly bytes

/-- The results of reading a file 64 bytes a call, where some of the calls fail. -/
def fileOutcomes : List INT8U → List Bool → List (Option (List INT8U))
  | _, [] => []
  | file, false :: rest => none :: fileOutcomes file rest
  | file, true :: rest => some (file.take 64) :: fileOutcomes (file.drop 64) rest

/-- A file whose records end early is delivered in such records. -/
theorem allEndEarly_file {file : List INT8U} (outcomes : List Bool) (failing : Bool)
    (records : ∀ i, EndsEarly ((file.drop (64 * i)).take 64)) :
    AllEndEarly { results := fileOutcomes file outcomes, failing := failing } := by
  intro bytes member
  change some bytes ∈ fileOutcomes file outcomes at member
  induction outcomes generalizing file with
  | nil => cases member
  | cons outcome rest ih =>
    cases outcome with
    | false =>
      rcases List.mem_cons.mp member with here | later
      · cases here
      · exact ih records later
    | true =>
      rcases List.mem_cons.mp member with here | later
      · obtain rfl := Option.some.inj here
        exact records 0
      · refine ih (fun i => ?_) later
        have next := records (i + 1)
        rwa [Nat.mul_succ, Nat.add_comm, ← List.drop_drop] at next

theorem allEndEarly_next {reads later : YaffsReads} {result : Option (List INT8U)}
    (early : AllEndEarly reads) (call : reads.next = some (result, later)) : AllEndEarly later := by
  obtain ⟨results, failing⟩ := reads
  cases results with
  | nil =>
    cases failing with
    | false => cases call
    | true =>
      obtain ⟨-, rfl⟩ := Prod.mk.inj (Option.some.inj call)
      exact early
  | cons first rest =>
    have tail : AllEndEarly ⟨rest, failing⟩ :=
      fun bytes member => early bytes (List.mem_cons_of_mem first member)
    cases first with
    | none =>
      obtain ⟨-, rfl⟩ := Prod.mk.inj (Option.some.inj call)
      exact tail
    | some bytes =>
      cases bytes with
      | nil => cases call
      | cons =>
        obtain ⟨-, rfl⟩ := Prod.mk.inj (Option.some.inj call)
        exact tail

/-- The points of the list are typed points as `initTestpoint` leaves them. -/
def FreshList (list : List Testpoint) : Prop :=
  ∃ configs : List SensorConfig, list = configs.map initTestpoint

/-- An arm of the switch adds one such point. -/
theorem add_fresh {s : ConfigReader} (kind : SensorKind) {reads : YaffsReads}
    (early : AllEndEarly reads) (fresh : FreshList s.list) :
    ∃ t later, s.add kind reads = .ok (t, later) ∧ AllEndEarly later ∧ FreshList t.list := by
  have texts : ∀ bytes ∈ reads.results.map fun result => result.getD [], EndsEarly bytes := by
    intro bytes member
    obtain ⟨result, delivered, rfl⟩ := List.mem_map.mp member
    cases result with
    | none => exact Or.inr (by decide)
    | some bytes => exact early bytes delivered
  obtain ⟨location, ends⟩ := Option.isSome_iff_exists.mp
    (locationOf_fileGetConfig kind (s.locals kind) texts)
  obtain ⟨conf, held⟩ : ∃ conf, SensorConfig.ofMemory kind (fileGetConfig kind
      (reads.results.map fun result => result.getD []) (s.locals kind)).1 = some conf :=
    ⟨_, by rw [SensorConfig.ofMemory, ends, Option.map_some]⟩
  obtain ⟨configs, built⟩ := fresh
  simp only [ConfigReader.add, held]
  refine ⟨_, _, rfl, ?_, conf :: configs, ?_⟩
  · intro bytes member
    exact early bytes (List.mem_of_mem_drop member)
  · rw [List.map_cons, built]

theorem readPass_fresh {state : YaffsReads × ConfigReader} (early : AllEndEarly state.1)
    (fresh : FreshList state.2.list) :
    ∃ next, readPass state = .ok next ∧ AllEndEarly next.1 ∧ FreshList next.2.list := by
  cases call : state.1.next with
  | none => exact ⟨state, by rw [readPass, call], early, fresh⟩
  | some found =>
    obtain ⟨result, reads⟩ := found
    have later := allEndEarly_next early call
    cases kind : SensorKind.ofType (state.2.scan result).sensorType with
    | none => exact ⟨(reads, state.2.scan result), by simp only [readPass, call, kind], later, fresh⟩
    | some kind' =>
      obtain ⟨t, rest, added, restEarly, built⟩ :=
        add_fresh (s := state.2.scan result) kind' later fresh
      exact ⟨(rest, t), by simp only [readPass, call, kind, added, Except.map], restEarly, built⟩

theorem readPasses_fresh (n : Nat) {state : YaffsReads × ConfigReader} (early : AllEndEarly state.1)
    (fresh : FreshList state.2.list) :
    ∃ rest t, readPasses n state = .ok (rest, t) ∧ FreshList t.list := by
  induction n generalizing state with
  | zero => exact ⟨state.1, state.2, rfl, fresh⟩
  | succ n ih =>
    obtain ⟨next, passed, nextEarly, nextFresh⟩ := readPass_fresh early fresh
    obtain ⟨rest, t, reached, built⟩ := ih nextEarly nextFresh
    exact ⟨rest, t, by rw [readPasses, passed]; exact reached, built⟩

/-- The points of the list came out of `initTestpoint`, whatever the new block held. -/
def BuiltByArms (list : List Testpoint) : Prop :=
  ∀ tp ∈ list, ∃ conf : SensorConfig, ∀ thisp, initTestpointArms thisp conf.kind.code conf = some tp

theorem safe_of_fresh {list : List Testpoint} (fresh : FreshList list) :
    BuiltByArms list ∧ DispatchSafe list := by
  obtain ⟨configs, rfl⟩ := fresh
  constructor
  · intro tp member
    obtain ⟨conf, -, rfl⟩ := List.mem_map.mp member
    exact ⟨conf, fun thisp => initTestpointArms_eq thisp conf⟩
  · have typed : configs.map initTestpoint =
        (configs.map fun conf => Sensor.mk conf uploadNull).map Sensor.testpoint := by
      rw [List.map_map]
      rfl
    rw [typed]
    exact dispatchSafe_sensors _

/-- The list is safe after any number of iterations of `Read_ConfigFile` and when it
returns, whatever the locals held at first and whatever the reads return, as long as
each record delivered ends its text within 30 bytes. -/
theorem equipmentList_dispatchSafe (reads : YaffsReads) (s : ConfigReader)
    (early : AllEndEarly reads) :
    (∀ n, ∃ rest t, readPasses n (reads, s.initEquipmentList) = .ok (rest, t) ∧
      BuiltByArms t.list ∧ DispatchSafe t.list) ∧
    ∀ fuel t, readConfigFile fuel reads s.initEquipmentList = .ok t →
      BuiltByArms t.list ∧ DispatchSafe t.list := by
  have passes : ∀ n, ∃ rest t, readPasses n (reads, s.initEquipmentList) = .ok (rest, t) ∧
      FreshList t.list := fun n => readPasses_fresh n early ⟨[], rfl⟩
  constructor
  · intro n
    obtain ⟨rest, t, reached, fresh⟩ := passes n
    exact ⟨rest, t, reached, safe_of_fresh fresh⟩
  · intro fuel t returned
    obtain ⟨rest, reached⟩ := readConfigFile_passes returned
    obtain ⟨rest', t', reached', fresh⟩ := passes fuel
    obtain ⟨-, rfl⟩ := Prod.mk.inj (Except.ok.inj (reached.symm.trans reached'))
    exact safe_of_fresh fresh

/-- A file of a type record and three bytes more. -/
def damagedFile : List INT8U := typeRecord .switch ++ [0x31, 0x32, 0x20]

/-- A call that fails between the two records, and errors for ever behind them. -/
def damagedReads : YaffsReads :=
  { results := fileOutcomes damagedFile [true, false, true], failing := true }

def zeroedReader : ConfigReader :=
  { buf := List.replicate 64 0, sensorType := 0, locals := fun _ _ => 0, list := [], equipmentType := 0 }

/-- With these reads the loop never ends, and adds a switch in each iteration. -/
theorem equipmentList_dispatchSafe_damaged :
    ∃ rest t, readPasses 3 (damagedReads, zeroedReader.initEquipmentList) = .ok (rest, t) ∧
      BuiltByArms t.list ∧ DispatchSafe t.list :=
  (equipmentList_dispatchSafe damagedReads zeroedReader (allEndEarly_file _ _ fun i => by
    rcases i with - | i
    · exact Or.inl (by decide)
    · right
      rw [List.length_take, List.length_drop]
      have length : damagedFile.length = 67 := rfl
      omega)).1 3

end GasSub.Guarantees.DispatchSafety
