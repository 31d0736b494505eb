import GasSub.Source.InitConf
import GasSub.Source.ShowInfo

/-!
# The strings of the display

A name from `SensorTable` has up to twelve bytes, and a reading up to eleven characters,
but `sensorType` has room for fifteen bytes with the word and the mark behind the name,
and `collectData` for seven.
-/
namespace GasSub.Guarantees.DisplayStrings
open GasSub.Library.Decimal GasSub.Source

/-- The tables are indexed inside, and each text fits its field together with its NUL. -/
def DisplayFits (s : Sensor) : Prop :=
  ∃ writes, s.showWrites = some writes ∧ ∀ write ∈ writes, write.text.length < write.field.size

/-- The number whose name is shown, and the text behind the name. -/
def nameShown : SensorConfig → Option (INT16S × Text)
  | .analogue conf => (analogueSuffix conf.portType).map fun suffix => (conf.sensorName, suffix)
  | .switch conf => some (conf.sensorName, sensorSuffix)
  | .accumulate conf => some (conf.sensorName, sensorSuffix)
  | .tristate conf => some (conf.sensorName, sensorSuffix)

/-- The rows of `SensorTable` with more than nine bytes, or more than the six that a mark
leaves. -/
def longRows (suffix : Text) : List Int :=
  if suffix = sensorSuffix then [1] else [1, 9, 10, 11, 12, 13, 14, 27]

/-- The name that is shown comes from a row of the table that is short enough. -/
def ShortName (sensorName : INT16U) (suffix : Text) : Prop :=
  ∀ row, sensorRow sensorName = some row → 0 ≤ row ∧ row < 40 ∧ row ∉ longRows suffix

/-! ### The tables -/

theorem portTable_short : ∀ port ∈ portTable, 0 ∉ port ∧ port.length < 8 := by decide

/-- Every port has a short name. -/
theorem getPortType_some (portType : INT16U) :
    ∃ port, getPortType portType = some port ∧ 0 ∉ port ∧ port.length < 8 := by
  have row : ∀ i < 20, ∃ port, portTable[i]? = some port ∧ 0 ∉ port ∧ port.length < 8 := by
    intro i inside
    have listed := List.getElem?_eq_getElem (l := portTable) (i := i) inside
    exact ⟨_, listed, portTable_short _ (List.mem_of_getElem? listed)⟩
  unfold getPortType
  split
  · exact row _ (by omega)
  · exact row 16 (by decide)

theorem sensorTable_free : ∀ name ∈ sensorTable, 0 ∉ name := by decide

theorem getSensorName_free {sensorName : INT16U} {name : Text}
    (named : getSensorName sensorName = some name) : 0 ∉ name := by
  unfold getSensorName at named
  split at named
  · cases named
    exact List.not_mem_nil
  · split at named
    · exact sensorTable_free name (List.mem_of_getElem? named)
    · cases named

/-- The suffixes that the four functions use. -/
def suffixes : List Text :=
  [sensorSuffix, sensorSuffix ++ ascii "(F)", sensorSuffix ++ ascii "(D)"]

/-- A row fits in front of a suffix exactly when it is not one of the long ones. -/
theorem row_fits_iff : ∀ suffix ∈ suffixes, ∀ i : Nat, i < 40 →
    (((sensorTable[i]?).getD [] ++ suffix).length < 16 ↔ (i : Int) ∉ longRows suffix) := by
  decide

theorem suffix_short : ∀ suffix ∈ suffixes, suffix.length < 16 ∧ 0 ∉ suffix := by decide

theorem mem_suffixes {conf : SensorConfig} {sensorName : INT16S} {suffix : Text}
    (shown : nameShown conf = some (sensorName, suffix)) : suffix ∈ suffixes := by
  cases conf with
  | analogue conf =>
    simp only [nameShown, analogueSuffix] at shown
    split_ifs at shown <;> simp_all [suffixes]
  | switch conf => simp_all [nameShown, suffixes]
  | accumulate conf => simp_all [nameShown, suffixes]
  | tristate conf => simp_all [nameShown, suffixes]

/-- A name is found and fits exactly when its row is short enough. -/
theorem shortName_iff {sensorName : INT16U} {suffix : Text} (used : suffix ∈ suffixes) :
    (∃ name, getSensorName sensorName = some name ∧ (name ++ suffix).length < 16) ↔
      ShortName sensorName suffix := by
  unfold getSensorName ShortName
  cases sensorRow sensorName with
  | none =>
    refine iff_of_true ⟨[], rfl, (suffix_short suffix used).1⟩ fun row other => ?_
    cases other
  | some row =>
    simp only [Option.some.injEq, forall_eq']
    split
    · case isTrue natural =>
      obtain ⟨i, rfl⟩ := Int.eq_ofNat_of_zero_le natural
      rw [Int.toNat_natCast]
      by_cases inside : i < 40
      · have fits := row_fits_iff suffix used i inside
        rw [List.getElem?_eq_getElem (l := sensorTable) (i := i) inside] at fits ⊢
        simp only [Option.some.injEq, exists_eq_left', Option.getD_some] at fits ⊢
        rw [fits]
        exact ⟨fun short => ⟨natural, by omega, short⟩, fun short => short.2.2⟩
      · have outside : sensorTable[i]? = none := List.getElem?_eq_none (Nat.le_of_not_lt inside)
        rw [outside]
        refine iff_of_false (fun found => ?_) (fun short => inside (by omega))
        obtain ⟨name, named, -⟩ := found
        cases named
    · case isFalse negative =>
      refine iff_of_false (fun found => ?_) (fun short => negative short.1)
      obtain ⟨name, named, -⟩ := found
      cases named

/-! ### The writes -/

def location : SensorConfig → Location
  | .analogue conf => conf.location
  | .switch conf => conf.location
  | .accumulate conf => conf.location
  | .tristate conf => conf.location

def portType : SensorConfig → INT16U
  | .analogue conf => conf.portType
  | .switch conf => conf.portType
  | .accumulate conf => conf.portType
  | .tristate conf => conf.portType

/-- The write of the name; without one, nothing is written. -/
def nameWrites (conf : SensorConfig) : Option (List ShowWrite) :=
  match nameShown conf with
  | some (sensorName, suffix) =>
    (getSensorName sensorName).map fun name => [⟨.sensorType, name ++ suffix⟩]
  | none => some []

theorem showNamed_eq (location : Location) (sensorName : INT16S) (portType : INT16U)
    (upload : UploadInfo) {port : Text} (found : getPortType portType = some port) :
    showNamed location sensorName portType upload =
      ((getSensorName sensorName).map fun name =>
        ([⟨.sensorType, name ++ sensorSuffix⟩] : List ShowWrite)).map fun name =>
          ⟨.location, location.chars⟩ :: name ++ ⟨.portType, port⟩ :: uploadWrites upload := by
  simp only [showNamed, found]
  cases getSensorName sensorName <;> rfl

/-- The four kinds write the same fields in the same order. -/
theorem showWrites_eq (s : Sensor) {port : Text} (found : getPortType (portType s.config) = some port) :
    s.showWrites = (nameWrites s.config).map fun name =>
      ⟨.location, (location s.config).chars⟩ :: name ++ ⟨.portType, port⟩ :: uploadWrites s.upload := by
  obtain ⟨config, upload⟩ := s
  cases config with
  | analogue conf =>
    simp only [portType] at found
    simp only [Sensor.showWrites, showAnalogue, nameWrites, nameShown, found, location]
    cases analogueSuffix conf.portType with
    | none => rfl
    | some suffix => cases named : getSensorName conf.sensorName <;> simp [named]
  | switch conf => exact showNamed_eq conf.location conf.sensorName conf.portType upload found
  | accumulate conf => exact showNamed_eq conf.location conf.sensorName conf.portType upload found
  | tristate conf => exact showNamed_eq conf.location conf.sensorName conf.portType upload found

/-- What is formatted for the name fits exactly when the row is short enough. -/
theorem nameWrites_fit_iff (conf : SensorConfig) :
    (∃ name, nameWrites conf = some name ∧ ∀ write ∈ name, write.text.length < write.field.size) ↔
      ∀ sensorName suffix, nameShown conf = some (sensorName, suffix) →
        ShortName sensorName suffix := by
  unfold nameWrites
  cases shown : nameShown conf with
  | none => simp
  | some found =>
    obtain ⟨sensorName, suffix⟩ := found
    have fits := @shortName_iff sensorName suffix (mem_suffixes shown)
    have only : (∀ number text, some (sensorName, suffix) = some (number, text) →
        ShortName number text) ↔ ShortName sensorName suffix := by
      constructor
      · intro short
        exact short sensorName suffix rfl
      · rintro short number text same
        cases same
        exact short
    rw [only, ← fits]
    cases named : getSensorName sensorName <;> simp [named, ShowField.size]

/-- The name is written once at most, and without a NUL. -/
theorem nameWrites_free {conf : SensorConfig} {name : List ShowWrite}
    (named : nameWrites conf = some name) :
    (name.map ShowWrite.field = [] ∨ name.map ShowWrite.field = [.sensorType]) ∧
      ∀ write ∈ name, 0 ∉ write.text := by
  unfold nameWrites at named
  split at named
  · case h_1 sensorName suffix shown =>
    obtain ⟨text, read, rfl⟩ := Option.map_eq_some_iff.mp named
    refine ⟨Or.inr rfl, fun write member => ?_⟩
    rw [List.mem_singleton.mp member, List.mem_append, not_or]
    exact ⟨getSensorName_free read, (suffix_short suffix (mem_suffixes shown)).2⟩
  · cases named
    simp

theorem testpointNo_fits (testpointNo : INT32S) : (intText testpointNo.toInt).length < 34 := by
  have low := BitVec.le_toInt testpointNo
  have high := BitVec.toInt_lt (x := testpointNo)
  have short := length_intText (i := testpointNo.toInt) (by omega) (by omega)
  omega

/-- The reading fits into seven characters. -/
def ShortReading (collectData : INT32S) : Prop :=
  -1000000 < collectData.toInt ∧ collectData.toInt < 10000000

theorem shortReading_iff (collectData : INT32S) :
    (intText collectData.toInt).length < 8 ↔ ShortReading collectData := by
  rw [Nat.lt_succ_iff, length_intText_le_iff (by decide)]
  rfl

/-- The display strings of a test point fit exactly when its name, if one is shown, comes
from a short row of the table and its reading has at most seven characters. -/
theorem displayFits_iff (s : Sensor) :
    DisplayFits s ↔
      (∀ sensorName suffix, nameShown s.config = some (sensorName, suffix) →
        ∀ row, sensorRow sensorName = some row → 0 ≤ row ∧ row < 40 ∧ row ∉ longRows suffix) ∧
      -1000000 < s.upload.collectData.toInt ∧ s.upload.collectData.toInt < 10000000 := by
  obtain ⟨port, found, -, portShort⟩ := getPortType_some (portType s.config)
  have place : (location s.config).chars.length < 32 := Nat.lt_of_le_of_lt (location s.config).fits (by decide)
  have number := testpointNo_fits s.upload.testpointNo
  have name := nameWrites_fit_iff s.config
  have reading := shortReading_iff s.upload.collectData
  unfold ShortName at name
  unfold ShortReading at reading
  rw [← name, ← reading, DisplayFits, showWrites_eq s found]
  constructor
  · rintro ⟨writes, written, fits⟩
    obtain ⟨name, named, rfl⟩ := Option.map_eq_some_iff.mp written
    refine ⟨⟨name, named, fun write member => fits write ?_⟩, ?_⟩
    · simp [member]
    · exact fits ⟨.collectData, intText s.upload.collectData.toInt⟩ (by simp [uploadWrites])
  · rintro ⟨⟨name, named, fits⟩, data⟩
    refine ⟨_, by rw [named]; rfl, ?_⟩
    simp only [uploadWrites, List.cons_append, List.forall_mem_cons, List.forall_mem_append,
      List.not_mem_nil, false_implies, implies_true, and_true]
    exact ⟨place, fits, portShort, number, data⟩

/-- When everything fits, the fields of the structure show what was formatted. -/
theorem shown_of_fits {s : Sensor} (fits : DisplayFits s) :
    ∃ testShow writes, s.testpoint.callGetShowInfo = some testShow ∧ s.showWrites = some writes ∧
      ∀ write ∈ writes, shownText testShow write.field = write.text := by
  obtain ⟨writes, written, fits⟩ := fits
  obtain ⟨port, found, portFree, -⟩ := getPortType_some (portType s.config)
  refine ⟨fillShow writes, writes, by rw [s.callGetShowInfo_eq, written]; rfl, written, ?_⟩
  rw [showWrites_eq s found] at written
  obtain ⟨name, named, rfl⟩ := Option.map_eq_some_iff.mp written
  obtain ⟨once, nameFree⟩ := nameWrites_free named
  refine fun write => shownText_foldl ?_ ?_ fits emptyShow
  · rcases once with none | one
    · simp [uploadWrites, none]
    · simp [uploadWrites, one]
  · simp only [uploadWrites, List.cons_append, List.forall_mem_cons, List.forall_mem_append,
      List.not_mem_nil, false_implies, implies_true, and_true]
    exact ⟨(location s.config).nulFree, nameFree, portFree, nul_notMem_intText _,
      nul_notMem_intText _⟩

/-- Carbon monoxide, measured on a voltage port. -/
def carbonMonoxide : Sensor :=
  { config := .analogue { initConfAnalogue with sensorName := 10010 }, upload := uploadNull }

/-- Its name and what follows take seventeen bytes. -/
theorem display_overflows : ¬ DisplayFits carbonMonoxide := by
  rintro ⟨writes, written, fits⟩
  have long : ∃ write ∈ carbonMonoxide.showWrites.getD [], write.field.size ≤ write.text.length := by
    decide
  rw [written] at long
  obtain ⟨write, member, wide⟩ := long
  exact absurd (fits write member) (Nat.not_lt.mpr wide)

end GasSub.Guarantees.DisplayStrings
