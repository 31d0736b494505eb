import GasSub.Guarantees.ConfigRoundTrip
import GasSub.Source.ConfigCreate

/-!
# The configuration that runs after a reset

A configuration taken from `ConfigQueueHead` should be the one the station runs with
after the reset. The file written for it holds the default points instead, two analogue
points with different locations among them, so that its points are those of no received
structure; and the start after the reset writes the same file once more.
-/
namespace GasSub.Guarantees.ConfigAfterReset
open GasSub.Source
open GasSub.Guarantees.ConfigRoundTrip

/-- The four fields the points are compared by. -/
structure SameHeader (conf back : SensorConfig) : Prop where
  testpointNo : back.testpointNo = conf.testpointNo
  sensorName : back.sensorName = conf.sensorName
  portType : back.portType = conf.portType
  location : back.location = conf.location

/-- The point is of this kind, and its fields are those of the part of that kind. -/
def CarriesPart (rev : ConfigStruct) (kind : SensorKind) (tp : Testpoint) : Prop :=
  tp.equipmentType = kind.code ∧ ∃ back, tp.config = some back ∧ SameHeader (rev.part kind) back

/-- The points are those of the four parts: each comes from a part, and each part has one. -/
structure RunsWith (rev : ConfigStruct) (list : List Testpoint) : Prop where
  only : ∀ tp ∈ list, ∃ kind, CarriesPart rev kind tp
  each : ∀ kind, ∃ tp ∈ list, CarriesPart rev kind tp

/-- `Read_ConfigFile` of the file returns, with a list of the points of the four parts. -/
def ReadAs (rev : ConfigStruct) (file : List INT8U) (s : ConfigReader) : Prop :=
  ∃ fuel t, readConfigFile fuel (fileReads file) s.initEquipmentList = .ok t ∧ RunsWith rev t.list

/-- After the reset the station runs with the received configuration: its points are read
from the file that `FileReceive_Task` leaves and `File_Init` finds. -/
def RunsAfterReset (rev : ConfigStruct) (task boot : CreateLocals) (unset : ConfigStruct)
    (file : List INT8U) (s : ConfigReader) : Prop :=
  ReadAs rev (fileInit true boot unset (fileReceiveTask true task rev file)) s

theorem code_injective {kind other : SensorKind} (same : kind.code = other.code) : kind = other := by
  cases kind <;> cases other <;> first | rfl | exact absurd same (by decide)

/-- More iterations than it takes do not change what is returned. -/
theorem readConfigFile_unique {fuel more : Nat} {reads : YaffsReads} {s t u : ConfigReader}
    (first : readConfigFile fuel reads s = .ok t) (second : readConfigFile more reads s = .ok u) :
    t = u := by
  induction fuel generalizing more reads s with
  | zero => cases first
  | succ fuel ih =>
    cases more with
    | zero => cases second
    | succ more =>
      rw [readConfigFile] at first second
      cases call : reads.next with
      | none =>
        rw [call] at first second
        exact Except.ok.inj (first.symm.trans second)
      | some found =>
        obtain ⟨result, rest⟩ := found
        rw [call] at first second
        cases kind : SensorKind.ofType (s.scan result).sensorType with
        | none =>
          simp only [kind] at first second
          exact ih first second
        | some kind' =>
          cases added : (s.scan result).add kind' rest with
          | error fault =>
            simp only [kind, added] at first
            cases first
          | ok next =>
            simp only [kind, added] at first second
            exact ih first second

/-- Each configuration written has a point built from it. -/
theorem point_of_written {l : CreateLocals} {rev : ConfigStruct} {fuel : Nat} {s t : ConfigReader}
    (returned : readConfigFile fuel (fileReads (configFile (createdConfigs l rev))) s = .ok t)
    {config : INT32U × SensorConfig} (written : config ∈ createdConfigs l rev) :
    ∃ tp ∈ t.list, BuiltFrom config.2 tp := by
  obtain ⟨u, added, reached, list, built, -⟩ := configFile_roundTrip (createdConfigs l rev) s 0
  obtain rfl := readConfigFile_unique returned reached
  obtain ⟨tp, member, same⟩ := exists_partner built (List.mem_reverse.mpr written)
  exact ⟨tp, by rw [list]; exact List.mem_append_left _ member, same⟩

/-- Each point of an initially empty list was built from a configuration written. -/
theorem written_of_point {l : CreateLocals} {rev : ConfigStruct} {fuel : Nat} {s t : ConfigReader}
    (returned : readConfigFile fuel (fileReads (configFile (createdConfigs l rev)))
      s.initEquipmentList = .ok t) {tp : Testpoint} (member : tp ∈ t.list) :
    ∃ config ∈ createdConfigs l rev, BuiltFrom config.2 tp := by
  obtain ⟨u, added, reached, list, built, -⟩ :=
    configFile_roundTrip (createdConfigs l rev) s.initEquipmentList 0
  obtain rfl := readConfigFile_unique returned reached
  rw [list] at member
  have inAdded : tp ∈ added := (List.mem_append.mp member).resolve_right List.not_mem_nil
  obtain ⟨config, written, same⟩ := exists_partner built.flip inAdded
  exact ⟨config, List.mem_reverse.mp written, same⟩

/-- A point built from a configuration that carries a part has the location of both. -/
theorem location_of_part {rev : ConfigStruct} {conf : SensorConfig} {kind : SensorKind}
    {tp : Testpoint} (built : BuiltFrom conf tp) (carries : CarriesPart rev kind tp) :
    kind = conf.kind ∧ conf.location = (rev.part kind).location := by
  obtain ⟨type, back, held, kept⟩ := built
  obtain ⟨type', back', held', header⟩ := carries
  obtain rfl := Option.some.inj (held.symm.trans held')
  exact ⟨code_injective (type'.symm.trans type), kept.location.symm.trans header.location⟩

/-- The points of a created file are those of no structure. -/
theorem not_readAs_created (rev shown : ConfigStruct) (l : CreateLocals) (s : ConfigReader) :
    ¬ ReadAs rev (configFile (createdConfigs l shown)) s := by
  rintro ⟨fuel, t, returned, runs⟩
  have location : ∀ config ∈ createdConfigs l shown, config.2.kind = .analogue →
      config.2.location = rev.analogueConfig.location := by
    intro config written analogue
    obtain ⟨tp, member, built⟩ := point_of_written returned written
    obtain ⟨kind, carries⟩ := runs.only tp member
    obtain ⟨rfl, same⟩ := location_of_part built carries
    rw [analogue] at same
    exact same
  -- the first analogue record and the second one differ in their location
  have first := location (l.analogueAt, .analogue initConfAnalogue) List.mem_cons_self rfl
  have second := location
    (l.analogueAt, .analogue { initConfAnalogue with location := locationFourthArea })
    (by simp only [createdConfigs, List.mem_append, List.mem_cons, true_or, or_true]) rfl
  have differs : initConfAnalogue.location ≠ locationFourthArea := by decide
  exact differs (first.trans second.symm)

/-- No received configuration runs after the reset, nor would it if the file were read as
`FileReceive_Task` leaves it. -/
theorem never_runsAfterReset (rev : ConfigStruct) (task boot : CreateLocals) (unset : ConfigStruct)
    (file : List INT8U) (s : ConfigReader) :
    ¬ RunsAfterReset rev task boot unset file s ∧ ¬ ReadAs rev (fileReceiveTask true task rev file) s :=
  ⟨not_readAs_created rev unset boot s, not_readAs_created rev rev task s⟩

/-- A part has a point in the list exactly when it repeats the fields of a default record
of its kind. -/
theorem part_present_iff {rev : ConfigStruct} {l : CreateLocals} {fuel : Nat} {s t : ConfigReader}
    (kind : SensorKind)
    (returned : readConfigFile fuel (fileReads (configFile (createdConfigs l rev)))
      s.initEquipmentList = .ok t) :
    (∃ tp ∈ t.list, CarriesPart rev kind tp) ↔
      ∃ config ∈ createdConfigs l rev, config.2.kind = kind ∧ SameHeader config.2 (rev.part kind) := by
  constructor
  · rintro ⟨tp, member, type, back, held, header⟩
    obtain ⟨config, written, type', back', held', kept⟩ := written_of_point returned member
    obtain rfl := Option.some.inj (held.symm.trans held')
    refine ⟨config, written, code_injective (type'.symm.trans type), ?_⟩
    exact ⟨header.testpointNo.symm.trans kept.testpointNo, header.sensorName.symm.trans kept.sensorName,
      header.portType.symm.trans kept.portType, header.location.symm.trans kept.location⟩
  · rintro ⟨config, written, rfl, header⟩
    obtain ⟨tp, member, type, back, held, kept⟩ := point_of_written returned written
    refine ⟨tp, member, type, back, held, ?_⟩
    exact ⟨kept.testpointNo.trans header.testpointNo.symm, kept.sensorName.trans header.sensorName.symm,
      kept.portType.trans header.portType.symm, kept.location.trans header.location.symm⟩

/-- The default structures but for the number of the analogue point. -/
def received : ConfigStruct where
  analogueConfig := { initConfAnalogue with testpointNo := 7 }
  switchConfig := initConfSwitch
  accumulateConfig := initConfAccumulate
  tristateConfig := initConfTristate ⟨0, 0, locationSouthLane, 0, Vector.replicate 2 0, Vector.replicate 4 0⟩

def emptyReader : ConfigReader :=
  { buf := [], sensorType := 0, locals := fun _ _ => 0, list := [], equipmentType := 0 }

theorem received_not_runsAfterReset :
    ¬ RunsAfterReset received ⟨0, 0, 0, 0, received.tristateConfig⟩ ⟨0, 0, 0, 0, received.tristateConfig⟩
      received [] emptyReader :=
  not_readAs_created received received _ emptyReader

end GasSub.Guarantees.ConfigAfterReset
