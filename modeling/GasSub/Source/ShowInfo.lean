import GasSub.Library.Decimal
import GasSub.Library.MemoryText
import GasSub.Source.EquipmentList

/-!
# What the display shows of a test point

`getSensorName`, `getPortType` and the `getShowInfo_*` functions of `Sensor_Operation.c`.
They write five texts into a `TestpointShowInfo`, one behind the other in memory, without
looking at the sizes of its fields. The texts are in GBK, two bytes a character.
-/
namespace GasSub.Source
open GasSub.Library.ByteMemory GasSub.Library.CharArray GasSub.Library.Decimal

def gbkChar (c : BitVec 16) : Text := [(c >>> 8).setWidth 8, c.setWidth 8]

def gbk (chars : List (BitVec 16)) : Text := chars.flatMap gbkChar

/-- The quantities of the analogue sensors. -/
def analogueNames : List Text :=
  [gbk [0xCDDF, 0xCBB9], gbk [0xB8DF, 0xB5CD, 0xC5A8, 0xB6C8, 0xCDDF, 0xCBB9], gbk [0xB7E7, 0xCBD9],
    gbk [0xCEC2, 0xB6C8], gbk [0xB7E7, 0xD1B9], gbk [0xB8BA, 0xD1B9], gbk [0xCBAE, 0xCEBB],
    gbk [0xB7DB, 0xB3BE], gbk [0xD1F5, 0xC6F8], gbk [0xD2BB, 0xD1F5, 0xBBAF, 0xCCBC],
    gbk [0xB6FE, 0xD1F5, 0xBBAF, 0xCCBC], gbk [0xB9DC, 0xB5C0, 0xCDDF, 0xCBB9],
    gbk [0xB9DC, 0xB5C0, 0xCEC2, 0xB6C8], gbk [0xB9DC, 0xB5C0, 0xB8BA, 0xD1B9],
    gbk [0xB9DC, 0xB5C0, 0xC1F7, 0xC1BF]]

/-- The states of the switches, used twice. -/
def switchNames : List Text :=
  [gbk [0xBFAA, 0xCDA3], gbk [0xBFAA, 0xB9D8], gbk [0xB7E7, 0xC3C5], gbk [0xB7E7, 0xBBFA],
    gbk [0xB7E7, 0xCDB2], gbk [0xC0A1, 0xB5E7], gbk [0xD1CC, 0xCEED], [], [], []]

def accumulateNames : List Text :=
  [gbk [0xB9B3, 0xCAFD], gbk [0xB2FA, 0xC1BF], gbk [0xC0DB, 0xBCC6, 0xB7BD, 0xCABD], [], []]

/-- `SensorTable`. -/
def sensorTable : List Text := analogueNames ++ switchNames ++ accumulateNames ++ switchNames

/-- `PortTable`. -/
def portTable : List Text :=
  ["1", "2", "3", "4", "5", "6", "7", "8", "9", "10", "11", "12", "13", "14", "15", "16",
    "485-1", "485-2", "485-3", "485-4"].map ascii

/-- The row of `SensorTable` that `getSensorName` selects, for the numbers of a kind. -/
def sensorRow (sensorName : INT16U) : Option Int :=
  let number := sensorName.toNat
  let code := number / 10000
  if code = SensorKind.analogue.code.toNat then some (number % 100 - 1)
  else if code = SensorKind.switch.code.toNat then some (number % 10 - 1 + 15)
  else if code = SensorKind.accumulate.code.toNat then some (number % 10 - 1 + 25)
  else if code = SensorKind.tristate.code.toNat then some (number % 10 - 1 + 30)
  else none

/-- `getSensorName`; a row outside the table has no text. -/
def getSensorName (sensorName : INT16U) : Option Text :=
  match sensorRow sensorName with
  | none => some []
  | some row => if 0 ≤ row then sensorTable[row.toNat]? else none

/-- `getPortType`. -/
def getPortType (portType : INT16U) : Option Text :=
  if portType.toNat < 64 then portTable[portType.toNat % 16]? else portTable[16]?

/-! ### `TestpointShowInfo` -/

inductive ShowField where
  | testpointNo | location | sensorType | collectData | portType
  deriving DecidableEq, Repr

def ShowField.size : ShowField → Nat
  | .testpointNo => 34
  | .location => 32
  | .sensorType => 16
  | .collectData => 8
  | .portType => 8

/-- Where the field begins in the structure. -/
def ShowField.offset : ShowField → Nat
  | .testpointNo => 0
  | .location => 34
  | .sensorType => 66
  | .collectData => 82
  | .portType => 90

/-- A `strcpy` or `sprintf` into a field. -/
structure ShowWrite where
  field : ShowField
  text : Text
  deriving DecidableEq, Repr

/-- The structure, and what lies behind it. -/
abbrev TestpointShowInfo := Memory

/-- `testShow` as it is initialized. -/
def emptyShow : TestpointShowInfo := fun _ => 0

def ShowWrite.apply (testShow : TestpointShowInfo) (write : ShowWrite) : TestpointShowInfo :=
  store testShow write.field.offset (write.text ++ [0])

/-- The string that begins where the field does. -/
def shownText (testShow : TestpointShowInfo) (field : ShowField) : Text :=
  cString ((List.range (98 - field.offset)).map fun k => testShow (field.offset + k))

/-! ### `getShowInfo_*` -/

def sensorSuffix : Text := gbk [0xB4AB, 0xB8D0, 0xC6F7]

/-- `"%d"` of the two numbers of `tp->upload`, which come last. -/
def uploadWrites (upload : UploadInfo) : List ShowWrite :=
  [⟨.testpointNo, intText upload.testpointNo.toInt⟩, ⟨.collectData, intText upload.collectData.toInt⟩]

/-- What is shown behind the name of an analogue sensor; nothing is shown on the ports that
are neither frequencies nor voltages. -/
def analogueSuffix (portType : INT16U) : Option Text :=
  let aaa := portType.toNat / 16
  if aaa = portFreq then some (sensorSuffix ++ ascii "(F)")
  else if aaa = portAD then some (sensorSuffix ++ ascii "(D)")
  else none

/-- `getShowInfo_Analogue`, as the writes it makes. -/
def showAnalogue (conf : AnalogueConfig) (upload : UploadInfo) : Option (List ShowWrite) := do
  let sensorType ←
    match analogueSuffix conf.portType with
    | some suffix =>
      (getSensorName conf.sensorName).map fun name => [⟨.sensorType, name ++ suffix⟩]
    | none => some []
  let port ← getPortType conf.portType
  some (⟨.location, conf.location.chars⟩ :: sensorType ++ ⟨.portType, port⟩ :: uploadWrites upload)

/-- The common body of the other three. -/
def showNamed (location : Location) (sensorName : INT16S) (portType : INT16U)
    (upload : UploadInfo) : Option (List ShowWrite) := do
  let name ← getSensorName sensorName
  let port ← getPortType portType
  some (⟨.location, location.chars⟩ :: ⟨.sensorType, name ++ sensorSuffix⟩ ::
    ⟨.portType, port⟩ :: uploadWrites upload)

def showSwitch (conf : SwitchConfig) (upload : UploadInfo) : Option (List ShowWrite) :=
  showNamed conf.location conf.sensorName conf.portType upload

def showAccumulate (conf : AccumulateConfig) (upload : UploadInfo) : Option (List ShowWrite) :=
  showNamed conf.location conf.sensorName conf.portType upload

def showTristate (conf : TristateConfig) (upload : UploadInfo) : Option (List ShowWrite) :=
  showNamed conf.location conf.sensorName conf.portType upload

/-- `testShow` after the writes. -/
def fillShow (writes : List ShowWrite) : TestpointShowInfo := writes.foldl ShowWrite.apply emptyShow

def getShowInfoAnalogue (tp : Testpoint) : Option TestpointShowInfo :=
  match tp.config with
  | none => some emptyShow
  | some (.analogue conf) => (showAnalogue conf tp.upload).map fillShow
  | _ => none

def getShowInfoSwitch (tp : Testpoint) : Option TestpointShowInfo :=
  match tp.config with
  | none => some emptyShow
  | some (.switch conf) => (showSwitch conf tp.upload).map fillShow
  | _ => none

def getShowInfoAccumulate (tp : Testpoint) : Option TestpointShowInfo :=
  match tp.config with
  | none => some emptyShow
  | some (.accumulate conf) => (showAccumulate conf tp.upload).map fillShow
  | _ => none

def getShowInfoTristate (tp : Testpoint) : Option TestpointShowInfo :=
  match tp.config with
  | none => some emptyShow
  | some (.tristate conf) => (showTristate conf tp.upload).map fillShow
  | _ => none

def Testpoint.callGetShowInfo (tp : Testpoint) : Option TestpointShowInfo :=
  tp.call tp.getShowInfo getShowInfoAnalogue getShowInfoSwitch getShowInfoAccumulate
    getShowInfoTristate

/-- The writes for a sensor of any kind. -/
def Sensor.showWrites (s : Sensor) : Option (List ShowWrite) :=
  match s.config with
  | .analogue conf => showAnalogue conf s.upload
  | .switch conf => showSwitch conf s.upload
  | .accumulate conf => showAccumulate conf s.upload
  | .tristate conf => showTristate conf s.upload

theorem Sensor.callGetShowInfo_eq (s : Sensor) :
    s.testpoint.callGetShowInfo = s.showWrites.map fillShow := by
  obtain ⟨config, upload⟩ := s
  cases config <;> simp only [Testpoint.callGetShowInfo, Testpoint.call, Sensor.testpoint,
    initTestpoint, SensorConfig.copy_eq, SensorConfig.kind, getShowInfoAnalogue, getShowInfoSwitch,
    getShowInfoAccumulate, getShowInfoTristate, Sensor.showWrites]

/-! ### Reading the fields back -/

/-- The text lies at the start of the field, with its terminator. -/
def Shows (testShow : TestpointShowInfo) (field : ShowField) (text : Text) : Prop :=
  ∀ k (inside : k < (text ++ [0]).length), testShow (field.offset + k) = (text ++ [0])[k]

theorem ShowField.inside (field : ShowField) : field.offset + field.size ≤ 98 := by
  cases field <;> decide

theorem ShowField.apart {field other : ShowField} (differs : field ≠ other) :
    field.offset + field.size ≤ other.offset ∨ other.offset + other.size ≤ field.offset := by
  cases field <;> cases other <;> simp_all [ShowField.offset, ShowField.size]

/-- A text that fits its field is read back. -/
theorem shownText_of_shows {testShow : TestpointShowInfo} {field : ShowField} {text : Text}
    (free : 0 ∉ text) (fits : text.length < field.size) (shows : Shows testShow field text) :
    shownText testShow field = text := by
  have inside := field.inside
  exact takeWhile_of_holds (holds_bytesFrom free shows (by omega))

theorem shows_apply_self (testShow : TestpointShowInfo) (write : ShowWrite) :
    Shows (write.apply testShow) write.field write.text :=
  fun k inside => store_inside testShow write.field.offset k (write.text ++ [0]) inside

/-- A write that fits its field leaves the other fields alone. -/
theorem shows_apply_other {testShow : TestpointShowInfo} {field : ShowField} {text : Text}
    {write : ShowWrite} (differs : field ≠ write.field) (fits : text.length < field.size)
    (fitsToo : write.text.length < write.field.size) (shows : Shows testShow field text) :
    Shows (write.apply testShow) field text := by
  intro k inside
  have short := inside
  rw [List.length_append, List.length_singleton] at short
  rw [ShowWrite.apply, store_outside _ _ _ _ (by
    rw [List.length_append, List.length_singleton]
    rcases ShowField.apart differs with below | above <;> omega), shows k inside]

theorem shows_foldl {field : ShowField} {text : Text} (fits : text.length < field.size)
    {writes : List ShowWrite} (others : ∀ write ∈ writes, field ≠ write.field)
    (allFit : ∀ write ∈ writes, write.text.length < write.field.size)
    {testShow : TestpointShowInfo} (shows : Shows testShow field text) :
    Shows (writes.foldl ShowWrite.apply testShow) field text := by
  induction writes generalizing testShow with
  | nil => exact shows
  | cons write rest ih =>
    rw [List.forall_mem_cons] at others allFit
    exact ih others.2 allFit.2 (shows_apply_other others.1 fits allFit.1 shows)

/-- What is written into the fields, once each, is shown, if all of it fits. -/
theorem shownText_foldl {writes : List ShowWrite} (once : (writes.map ShowWrite.field).Nodup)
    (free : ∀ write ∈ writes, 0 ∉ write.text)
    (fits : ∀ write ∈ writes, write.text.length < write.field.size) (testShow : TestpointShowInfo)
    {write : ShowWrite} (member : write ∈ writes) :
    shownText (writes.foldl ShowWrite.apply testShow) write.field = write.text := by
  refine shownText_of_shows (free write member) (fits write member) ?_
  clear free
  induction writes generalizing testShow with
  | nil => cases member
  | cons first rest ih =>
    rw [List.map_cons, List.nodup_cons] at once
    rw [List.forall_mem_cons] at fits
    rcases List.mem_cons.mp member with rfl | later
    · refine shows_foldl fits.1 (fun other among same => ?_) fits.2 (shows_apply_self testShow write)
      exact once.1 (same ▸ List.mem_map_of_mem among)
    · exact ih once.2 fits.2 (first.apply testShow) later

end GasSub.Source
