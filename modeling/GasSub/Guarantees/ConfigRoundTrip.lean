import GasSub.Library.MemoryText
import GasSub.Source.ReadConfigFile
import Mathlib.Data.List.Forall2

/-!
# Configurations through the file

What `Read_ConfigFile` makes of a file that the `File_Set_Config_*` functions wrote. The
scans of the header store four bytes into fields of two, and the copy of the location
and the later scans repair all of that but the mask and what follows it.
-/
namespace GasSub.Guarantees.ConfigRoundTrip
open GasSub.Library.ByteMemory GasSub.Library.CharArray GasSub.Library.Binary32 GasSub.Source

/-- The fields that the four structures have in common. -/
structure HeaderHeld (m : Memory) (testpointNo : INT32S) (sensorName : INT16S)
    (portType : INT16U) (location : Location) : Prop where
  testpointNo : load32 m testpointNoAt = testpointNo
  sensorName : load16 m sensorNameAt = sensorName
  portType : load16 m portTypeAt = portType
  location : locationOf m = some location

theorem locationOf_eq (m : Memory) (location : Location)
    (same : cString ((List.range 30).map fun k => m (locationAt + k)) = location.chars) :
    locationOf m = some location := by
  obtain ⟨chars, fits, nulFree⟩ := location
  subst same
  rw [locationOf, dif_pos fits]

/-- A copied location ends in its field. -/
theorem locationOf_store (m : Memory) (location : Location) :
    locationOf (store m locationAt (location.chars ++ [0])) = some location := by
  apply locationOf_eq
  have stored := fun k => store_inside m locationAt k (location.chars ++ [0])
  exact takeWhile_of_holds
    (holds_bytesFrom location.nulFree stored (Nat.lt_succ_of_le location.fits))

/-- The copy of the location repairs what the scan of the sensor name spilled on it. -/
theorem headerHeld_storeHeader (m : Memory) (testpointNo : INT32S) (sensorName : INT16S)
    (portType : INT16U) (location : Location) :
    HeaderHeld (storeHeader m testpointNo sensorName portType location) testpointNo sensorName
      portType location := by
  have fits := location.fits
  have copied : locationAt + (location.chars ++ [0]).length ≤ portTypeAt := by
    rw [List.length_append, List.length_singleton]
    simp only [locationAt, portTypeAt]
    omega
  unfold storeHeader
  constructor
  · rw [load32_store_outside _ _ _ _ (Or.inl (by decide)), load32_store32_outside _ _ _ _ (by decide),
      load32_store32_outside _ _ _ _ (by decide), load32_store32]
  · rw [load16_store_outside _ _ _ _ (Or.inl (by decide)), load16_store32_outside _ _ _ _ (by decide),
      load16_store32_ofInt, BitVec.ofInt_toInt]
  · rw [load16_store_outside _ _ _ _ (Or.inr copied), load16_store32_ofInt, BitVec.ofInt_natCast,
      BitVec.ofNat_toNat, BitVec.setWidth_eq]
  · exact locationOf_store _ location

theorem locationOf_congr {m later : Memory} (same : AgreeBelow outputControlAt later m) :
    locationOf later = locationOf m := by
  have bytes : ((List.range 30).map fun k => later (locationAt + k)) =
      (List.range 30).map fun k => m (locationAt + k) := by
    refine bytesFrom_congr fun k inside => same _ ?_
    simp only [locationAt, outputControlAt]
    omega
  rw [locationOf, locationOf]
  simp only [bytes]

/-- The header lies in front of the mask. -/
theorem HeaderHeld.of_same {m later : Memory} {testpointNo : INT32S} {sensorName : INT16S}
    {portType : INT16U} {location : Location}
    (held : HeaderHeld m testpointNo sensorName portType location)
    (same : AgreeBelow outputControlAt later m) :
    HeaderHeld later testpointNo sensorName portType location := by
  constructor
  · rw [← held.testpointNo, load32, load32, same _ (by decide), same _ (by decide),
      same _ (by decide), same _ (by decide)]
  · rw [← held.sensorName, load16, load16, same _ (by decide), same _ (by decide)]
  · rw [← held.portType, load16, load16, same _ (by decide), same _ (by decide)]
  · rw [← held.location, locationOf_congr same]

/-! ### The four kinds -/

def SameValues : SensorConfig → SensorConfig → Prop
  | .analogue written, .analogue back =>
    back.alarm = written.alarm ∧ back.liftAlarm = written.liftAlarm ∧
      back.measureRange = written.measureRange
  | .switch _, .switch _ => True
  | .accumulate written, .accumulate back =>
    back.measureMaxVal = written.measureMaxVal ∧ back.shift = written.shift
  | .tristate written, .tristate back =>
    back.current1 = written.current1 ∧ back.current2 = written.current2
  | _, _ => False

/-- What the file keeps of a configuration. -/
structure KeptInFile (written back : SensorConfig) : Prop where
  kind : back.kind = written.kind
  testpointNo : back.testpointNo = written.testpointNo
  sensorName : back.sensorName = written.sensorName
  portType : back.portType = written.portType
  location : back.location = written.location
  values : SameValues written back

/-- Only the mask and the fields behind it are stored after the header. -/
theorem header_readBack (address : INT32U) (conf : SensorConfig) (m : Memory) :
    HeaderHeld (readBack address conf m) conf.testpointNo conf.sensorName conf.portType
      conf.location := by
  cases conf with
  | analogue conf =>
    have ranges : AgreeBelow outputControlAt (analogueRanges conf m)
        (storeHeader m conf.testpointNo conf.sensorName conf.portType conf.location) := by
      refine agreeBelow_storeRange (agreeBelow_storeRange (agreeBelow_storeRange
        (agreeBelow_storeRange (agreeBelow_storeRange (AgreeBelow.refl _ _) ?_) ?_) ?_) ?_) ?_
      all_goals decide
    exact (headerHeld_storeHeader m _ _ _ _).of_same
      (agreeBelow_storeFloat (ranges.store32 (Nat.le_refl _)) (by decide))
  | switch conf =>
    exact (headerHeld_storeHeader m _ _ _ _).of_same
      ((AgreeBelow.refl _ _).store32 (Nat.le_refl _))
  | accumulate conf =>
    refine (headerHeld_storeHeader m _ _ _ _).of_same
      ((agreeBelow_storeFloat ((AgreeBelow.refl _ _).store32 ?_) ?_).store32 ?_)
    all_goals decide
  | tristate conf =>
    have currents : AgreeBelow outputControlAt (tristateCurrents conf m)
        (storeHeader m conf.testpointNo conf.sensorName conf.portType conf.location) := by
      refine (((AgreeBelow.refl _ _).store32 ?_).store32 ?_).store32 ?_
      all_goals decide
    exact (headerHeld_storeHeader m _ _ _ _).of_same (currents.store32 (Nat.le_refl _))

theorem analogue_values (address : INT32U) (conf : AnalogueConfig) (m : Memory) :
    rangeIn (analogueReadBack address conf m) alarmAt = conf.alarm ∧
      rangeIn (analogueReadBack address conf m) liftAlarmAt = conf.liftAlarm ∧
      rangeIn (analogueReadBack address conf m) measureRangeAt = conf.measureRange := by
  have later : ∀ place, alarmAt ≤ place → place + 8 ≤ coefficientAt →
      rangeIn (analogueReadBack address conf m) place =
        rangeIn (storeRange (storeRange (storeRange (storeHeader m conf.testpointNo conf.sensorName
          conf.portType conf.location) alarmAt conf.alarm) liftAlarmAt conf.liftAlarm)
          measureRangeAt conf.measureRange) place := by
    intro place first last
    have offsets : outageAt + 8 ≤ recoverAt ∧ recoverAt + 8 ≤ alarmAt ∧ outputControlAt + 4 ≤ alarmAt := by
      decide
    simp only [analogueReadBack, analogueRanges]
    rw [rangeIn_storeFloat_outside _ _ _ _ (Or.inl last),
      rangeIn_store32_outside _ _ _ _ (Or.inr (by omega)),
      rangeIn_storeRange_outside _ _ _ _ (Or.inr (by omega)),
      rangeIn_storeRange_outside _ _ _ _ (Or.inr (by omega))]
  refine ⟨?_, ?_, ?_⟩
  · rw [later alarmAt (by decide) (by decide), rangeIn_storeRange_outside _ _ _ _ (by decide),
      rangeIn_storeRange_outside _ _ _ _ (by decide), rangeIn_storeRange]
  · rw [later liftAlarmAt (by decide) (by decide), rangeIn_storeRange_outside _ _ _ _ (by decide),
      rangeIn_storeRange]
  · rw [later measureRangeAt (by decide) (by decide), rangeIn_storeRange]

theorem accumulate_values (conf : AccumulateConfig) (m : Memory) :
    load32 (accumulateReadBack conf m) measureMaxValAt = conf.measureMaxVal ∧
      load32 (accumulateReadBack conf m) shiftAt = conf.shift := by
  unfold accumulateReadBack
  constructor
  · rw [load32_store32_outside _ _ _ _ (by decide), load32_storeFloat_outside _ _ _ _ (by decide),
      load32_store32]
  · rw [load32_store32]

theorem tristate_values (address : INT32U) (conf : TristateConfig) (m : Memory) :
    load32 (tristateReadBack address conf m) (currentAt + 4) = conf.current1 ∧
      load32 (tristateReadBack address conf m) (currentAt + 8) = conf.current2 := by
  obtain ⟨-, second, third⟩ := load32_tristateCurrents conf m
  unfold tristateReadBack
  rw [load32_store32_outside _ _ _ _ (by decide), load32_store32_outside _ _ _ _ (by decide)]
  exact ⟨second, third⟩

/-- The structure that was read holds what the file keeps. -/
theorem ofMemory_readBack (address : INT32U) (conf : SensorConfig) (m : Memory) :
    ∃ back, SensorConfig.ofMemory conf.kind (readBack address conf m) = some back ∧
      KeptInFile conf back := by
  have header := header_readBack address conf m
  rw [SensorConfig.ofMemory, header.location, Option.map_some]
  refine ⟨_, rfl, ?_⟩
  cases conf with
  | analogue conf =>
    have values := analogue_values address conf m
    exact ⟨rfl, header.testpointNo, header.sensorName, header.portType, rfl, values⟩
  | switch conf => exact ⟨rfl, header.testpointNo, header.sensorName, header.portType, rfl, trivial⟩
  | accumulate conf =>
    have values := accumulate_values conf m
    exact ⟨rfl, header.testpointNo, header.sensorName, header.portType, rfl, values⟩
  | tristate conf =>
    obtain ⟨second, third⟩ := tristate_values address conf m
    refine ⟨rfl, header.testpointNo, header.sensorName, header.portType, rfl, ?_, ?_⟩
    · exact (Vector.getElem_ofFn _).trans second
    · exact (Vector.getElem_ofFn _).trans third

/-! ### A whole file -/

theorem exists_partner {α β : Type} {R : α → β → Prop} {as : List α} {bs : List β}
    (all : List.Forall₂ R as bs) {a : α} (member : a ∈ as) : ∃ b ∈ bs, R a b := by
  induction all with
  | nil => cases member
  | cons related _ ih =>
    rcases List.mem_cons.mp member with rfl | later
    · exact ⟨_, List.mem_cons_self, related⟩
    · obtain ⟨b, inside, found⟩ := ih later
      exact ⟨b, List.mem_cons_of_mem _ inside, found⟩

/-- Reading the records of a list of configurations returns, with one more point for each
of them in front of the list, the last one first. -/
theorem readConfigFile_written (written : List (INT32U × SensorConfig)) (s : ConfigReader)
    (more : Nat) :
    ∃ (t : ConfigReader) (backs : List SensorConfig),
      readConfigFile (written.length + 1 + more)
        { results := (configRecords written).map some, failing := false } s = .ok t ∧
      List.Forall₂ (fun config back => KeptInFile config.2 back) written backs ∧
      t.list = (backs.map initTestpoint).reverse ++ s.list ∧
      t.equipmentType = s.equipmentType + written.length := by
  induction written generalizing s with
  | nil =>
    refine ⟨s, [], ?_, List.Forall₂.nil, rfl, (Int.add_zero _).symm⟩
    rw [List.length_nil, Nat.zero_add, Nat.add_comm]
    exact readConfigFile_end more s
  | cons config rest ih =>
    obtain ⟨back, held, kept⟩ := ofMemory_readBack config.1 config.2 (s.locals config.2.kind)
    obtain ⟨first, taken, list, count⟩ :=
      readConfigFile_config (rest.length + 1 + more) config.1 config.2 back (configRecords rest) false
        s held
    obtain ⟨t, backs, returned, all, lists, counts⟩ := ih first
    refine ⟨t, back :: backs, ?_, List.Forall₂.cons kept all, ?_, ?_⟩
    · have fuel : (config :: rest).length + 1 + more = rest.length + 1 + more + 1 := by
        rw [List.length_cons]
        omega
      rw [fuel, configRecords, List.flatMap_cons]
      exact taken.trans returned
    · rw [lists, list, List.map_cons, List.reverse_cons, List.append_assoc, List.singleton_append]
    · rw [counts, count, List.length_cons]
      omega

/-- A test point of the kind of a configuration, with what the file keeps of it. -/
def BuiltFrom (conf : SensorConfig) (tp : Testpoint) : Prop :=
  tp.equipmentType = conf.kind.code ∧ ∃ back, tp.config = some back ∧ KeptInFile conf back

theorem builtFrom_initTestpoint {conf back : SensorConfig} (kept : KeptInFile conf back) :
    BuiltFrom conf (initTestpoint back) := by
  refine ⟨congrArg SensorKind.code kept.kind, back, ?_, kept⟩
  rw [initTestpoint, SensorConfig.copy_eq]

/-- A file written to an empty one with any list of configurations is read to its end, and
gives one test point for each, in reverse order and in front of the list there was. -/
theorem configFile_roundTrip (written : List (INT32U × SensorConfig)) (s : ConfigReader)
    (more : Nat) :
    ∃ (t : ConfigReader) (added : List Testpoint),
      readConfigFile (written.length + 1 + more) (fileReads (configFile written)) s = .ok t ∧
      t.list = added ++ s.list ∧
      List.Forall₂ (fun config tp => BuiltFrom config.2 tp) written.reverse added ∧
      t.equipmentType = s.equipmentType + written.length := by
  obtain ⟨t, backs, returned, all, list, count⟩ := readConfigFile_written written s more
  refine ⟨t, (backs.map initTestpoint).reverse, ?_, list, ?_, count⟩
  · rw [fileReads_configFile]
    exact returned
  · rw [List.forall₂_reverse_iff, List.forall₂_map_right_iff]
    exact all.imp fun _ _ => builtFrom_initTestpoint

end GasSub.Guarantees.ConfigRoundTrip
