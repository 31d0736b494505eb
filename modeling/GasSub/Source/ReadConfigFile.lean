import GasSub.Source.ConfigFile
import GasSub.Source.EquipmentList

/-!
# Reading the configuration file

`Read_ConfigFile` of `EquipmentList.c`: record after record is read, and a record that
names a type is followed by the matching `File_Get_Config_*`, by `initTestpoint` and by
`AddEquipment` at the front of the list. The four configuration structures are local
variables that no iteration clears, and so is the buffer of the loop.
-/
namespace GasSub.Source
open GasSub.Library.ByteMemory GasSub.Library.Decimal GasSub.Library.Binary32

/-! ### The functions of the four kinds -/

/-- The `File_Set_Config_*` of the structure at `address`. -/
def fileSetConfig (address : INT32U) : SensorConfig → List (List INT8U)
  | .analogue conf => fileSetConfigAnalogue address conf
  | .switch conf => fileSetConfigSwitch address conf
  | .accumulate conf => fileSetConfigAccumulate conf
  | .tristate conf => fileSetConfigTristate address conf

/-- The `File_Get_Config_*` into the structure at the start of `m`. -/
def fileGetConfig : SensorKind → List (List INT8U) → Memory → Memory × List (List INT8U)
  | .analogue => fileGetConfigAnalogue
  | .switch => fileGetConfigSwitch
  | .accumulate => fileGetConfigAccumulate
  | .tristate => fileGetConfigTristate

/-- The calls of `yaffs_read` in a `File_Get_Config_*`. -/
def SensorKind.calls : SensorKind → Nat
  | .analogue => 8
  | .switch => 3
  | .accumulate => 5
  | .tristate => 4

theorem yaffsRead_rest (reads : List (List INT8U)) : (yaffsRead reads).2 = reads.drop 1 := by
  cases reads <;> rfl

theorem fileGetConfig_rest (kind : SensorKind) (reads : List (List INT8U)) (m : Memory) :
    (fileGetConfig kind reads m).2 = reads.drop kind.calls := by
  cases kind <;>
    simp only [fileGetConfig, fileGetConfigAnalogue, fileGetConfigSwitch, fileGetConfigAccumulate,
      fileGetConfigTristate, readFields, readString, readFloat, readFieldAndFloat, yaffsRead_rest,
      List.drop_drop, SensorKind.calls, Nat.reduceAdd]

/-! The fields that all four structures have. -/

def SensorConfig.testpointNo : SensorConfig → INT32S
  | .analogue conf => conf.testpointNo
  | .switch conf => conf.testpointNo
  | .accumulate conf => conf.testpointNo
  | .tristate conf => conf.testpointNo

def SensorConfig.sensorName : SensorConfig → INT16S
  | .analogue conf => conf.sensorName
  | .switch conf => conf.sensorName
  | .accumulate conf => conf.sensorName
  | .tristate conf => conf.sensorName

def SensorConfig.portType : SensorConfig → INT16U
  | .analogue conf => conf.portType
  | .switch conf => conf.portType
  | .accumulate conf => conf.portType
  | .tristate conf => conf.portType

def SensorConfig.location : SensorConfig → Location
  | .analogue conf => conf.location
  | .switch conf => conf.location
  | .accumulate conf => conf.location
  | .tristate conf => conf.location

/-! ### A structure in memory -/

theorem nul_notMem_cString (bytes : List INT8U) : 0 ∉ cString bytes := by
  intro member
  have visible := List.mem_takeWhile_imp member
  exact of_decide_eq_true visible rfl

/-- The `location` of the structure at the start of `m`, if it ends in its field. -/
def locationOf (m : Memory) : Option Location :=
  let chars := cString ((List.range 30).map fun k => m (locationAt + k))
  if fits : chars.length ≤ 29 then some ⟨chars, fits, nul_notMem_cString _⟩ else none

def outputControlIn (m : Memory) : Vector INT8U 2 := Vector.ofFn fun i => m (outputControlAt + i.val)

def rangeIn (m : Memory) (offset : Nat) : Range :=
  { minval := load32 m offset, maxval := load32 m (offset + 4) }

theorem rangeIn_storeRange (m : Memory) (offset : Nat) (range : Range) :
    rangeIn (storeRange m offset range) offset = range := by
  obtain ⟨minval, maxval⟩ := load32_storeRange m offset range
  rw [rangeIn, minval, maxval]

theorem rangeIn_storeRange_outside (m : Memory) (offset place : Nat) (range : Range)
    (outside : place + 8 ≤ offset ∨ offset + 8 ≤ place) :
    rangeIn (storeRange m offset range) place = rangeIn m place := by
  rw [rangeIn, load32_storeRange_outside _ _ _ _ (by omega),
    load32_storeRange_outside _ _ _ _ (by omega), rangeIn]

theorem rangeIn_store32_outside (m : Memory) (offset place : Nat) (value : BitVec 32)
    (outside : place + 8 ≤ offset ∨ offset + 4 ≤ place) :
    rangeIn (store32 m offset value) place = rangeIn m place := by
  rw [rangeIn, load32_store32_outside _ _ _ _ (by omega), load32_store32_outside _ _ _ _ (by omega),
    rangeIn]

theorem rangeIn_storeFloat_outside (m : Memory) (offset place : Nat) (number : Option (BitVec 32))
    (outside : place + 8 ≤ offset ∨ offset + 4 ≤ place) :
    rangeIn (storeFloat m offset number) place = rangeIn m place := by
  cases number with
  | none => rfl
  | some value => exact rangeIn_store32_outside m offset place value outside

/-- The configuration structure at the start of `m`. -/
def SensorConfig.ofMemory (kind : SensorKind) (m : Memory) : Option SensorConfig :=
  (locationOf m).map fun location =>
    let testpointNo := load32 m testpointNoAt
    let sensorName := load16 m sensorNameAt
    let portType := load16 m portTypeAt
    match kind with
    | .analogue => .analogue
        { testpointNo, sensorName, location, portType
          outputControl := outputControlIn m
          outage := rangeIn m outageAt
          recover := rangeIn m recoverAt
          alarm := rangeIn m alarmAt
          liftAlarm := rangeIn m liftAlarmAt
          measureRange := rangeIn m measureRangeAt
          coefficient := load32 m coefficientAt }
    | .switch => .switch
        { testpointNo, sensorName, location, portType
          outputControl := outputControlIn m }
    | .accumulate => .accumulate
        { testpointNo, sensorName, location, portType
          measureMaxVal := load32 m measureMaxValAt
          shift := load32 m shiftAt
          coefficient := load32 m accumulateCoefficientAt }
    | .tristate => .tristate
        { testpointNo, sensorName, location, portType
          outputControl := outputControlIn m
          current := Vector.ofFn fun level : Fin 4 => load32 m (currentAt + 4 * level.val) }

/-! ### The loop -/

/-- The results of successive calls of `yaffs_read`, `none` being an error; behind the
list every call fails, or the file is at its end. -/
structure YaffsReads where
  results : List (Option (List INT8U))
  failing : Bool
  deriving DecidableEq, Repr

/-- The next call in front of the loop body, `none` if it returns 0. -/
def YaffsReads.next (reads : YaffsReads) : Option (Option (List INT8U) × YaffsReads) :=
  match reads.results with
  | [] => if reads.failing then some (none, reads) else none
  | some [] :: _ => none
  | result :: rest => some (result, { reads with results := rest })

/-- `sscanf(buf, "Type: %d", …)`. -/
def scanType (text : Text) : Option INT32U :=
  if text.take 5 = ascii "Type:" then
    (scanInt (text.drop 5)).map fun scanned => BitVec.ofInt 32 scanned.1
  else none

/-- The cases of the switch. -/
def SensorKind.ofType (sensorType : INT32U) : Option SensorKind :=
  if sensorType = 1 then some .analogue
  else if sensorType = 2 then some .switch
  else if sensorType = 3 then some .accumulate
  else if sensorType = 4 then some .tristate
  else none

/-- The local variables of `Read_ConfigFile`, and the list behind `EquipmentList` with
the number of its nodes, which the head keeps in `EquipmentType`. -/
structure ConfigReader where
  buf : List INT8U
  sensorType : INT32U
  locals : SensorKind → Memory
  list : List Testpoint
  equipmentType : Int

/-- `InitEquipmentList`: an empty list behind the head. -/
def ConfigReader.initEquipmentList (s : ConfigReader) : ConfigReader :=
  { s with list := [], equipmentType := 0 }

/-- Why there is no result: the loop goes on, or a location that does not end in its
field was copied over what lies behind it. -/
inductive ConfigFault where
  | endless
  | overrun
  deriving DecidableEq, Repr

/-- The buffer after a call, and what it says about the type. -/
def ConfigReader.scan (s : ConfigReader) (result : Option (List INT8U)) : ConfigReader :=
  let buf :=
    match result with
    | none => s.buf
    | some bytes => bytes.take 64 ++ s.buf.drop bytes.length
  { s with buf := buf, sensorType := (scanType (cString buf)).getD s.sensorType }

/-- A case of the switch: the calls that `File_Get_Config_*` makes are taken from the
results, and the new point is put in front of the list. -/
def ConfigReader.add (s : ConfigReader) (kind : SensorKind) (reads : YaffsReads) :
    Except ConfigFault (ConfigReader × YaffsReads) :=
  let got := fileGetConfig kind (reads.results.map fun result => result.getD []) (s.locals kind)
  match SensorConfig.ofMemory kind got.1 with
  | none => .error .overrun
  | some conf =>
    .ok
      ({ s with
          locals := Function.update s.locals kind got.1
          list := initTestpoint conf :: s.list
          equipmentType := s.equipmentType + 1 },
        { reads with results := reads.results.drop (reads.results.length - got.2.length) })

theorem SensorKind.ofType_code {sensorType : INT32U} {kind : SensorKind}
    (named : SensorKind.ofType sensorType = some kind) : sensorType.setWidth 16 = kind.code := by
  simp only [SensorKind.ofType] at named
  split at named
  next one => cases named; rw [one]; rfl
  split at named
  next two => cases named; rw [two]; rfl
  split at named
  next three => cases named; rw [three]; rfl
  split at named
  next four => cases named; rw [four]; rfl
  next => cases named

theorem SensorConfig.kind_ofMemory {kind : SensorKind} {m : Memory} {conf : SensorConfig}
    (held : SensorConfig.ofMemory kind m = some conf) : conf.kind = kind := by
  obtain ⟨location, -, rfl⟩ := Option.map_eq_some_iff.mp held
  cases kind <;> rfl

/-- The call that the case makes, with the type as it was scanned. -/
theorem ConfigReader.add_arms {s t : ConfigReader} {kind : SensorKind} {reads later : YaffsReads}
    (named : SensorKind.ofType s.sensorType = some kind)
    (added : s.add kind reads = .ok (t, later)) :
    ∃ conf tp, t.list = tp :: s.list ∧
      ∀ thisp, initTestpointArms thisp (s.sensorType.setWidth 16) conf = some tp := by
  simp only [ConfigReader.add] at added
  split at added
  next => cases added
  next conf held =>
    obtain ⟨rfl, -⟩ := Prod.mk.inj (Except.ok.inj added)
    refine ⟨conf, initTestpoint conf, rfl, fun thisp => ?_⟩
    rw [SensorKind.ofType_code named, ← SensorConfig.kind_ofMemory held]
    exact initTestpointArms_eq thisp conf

/-- `Read_ConfigFile` behind `yaffs_open`, for so many iterations. -/
def readConfigFile : Nat → YaffsReads → ConfigReader → Except ConfigFault ConfigReader
  | 0, _, _ => .error .endless
  | fuel + 1, reads, s =>
    match reads.next with
    | none => .ok s
    | some (result, reads) =>
      let scanned := s.scan result
      match SensorKind.ofType scanned.sensorType with
      | none => readConfigFile fuel reads scanned
      | some kind =>
        match scanned.add kind reads with
        | .error fault => .error fault
        | .ok (added, reads) => readConfigFile fuel reads added

/-- One test of the loop condition and, if it holds, one iteration. -/
def readPass (state : YaffsReads × ConfigReader) : Except ConfigFault (YaffsReads × ConfigReader) :=
  match state.1.next with
  | none => .ok state
  | some (result, reads) =>
    let scanned := state.2.scan result
    match SensorKind.ofType scanned.sensorType with
    | none => .ok (reads, scanned)
    | some kind => (scanned.add kind reads).map fun added => (added.2, added.1)

/-- The state after so many iterations, or at the end of the loop if that comes first. -/
def readPasses : Nat → YaffsReads × ConfigReader → Except ConfigFault (YaffsReads × ConfigReader)
  | 0, state => .ok state
  | n + 1, state => readPass state >>= readPasses n

theorem readPasses_end (n : Nat) (state : YaffsReads × ConfigReader) (ended : state.1.next = none) :
    readPasses n state = .ok state := by
  induction n with
  | zero => rfl
  | succ n ih =>
    have stays : readPass state = .ok state := by rw [readPass, ended]
    rw [readPasses, stays]
    exact ih

/-- What the function returns is what its iterations leave. -/
theorem readConfigFile_passes {fuel : Nat} {reads : YaffsReads} {s t : ConfigReader}
    (returned : readConfigFile fuel reads s = .ok t) :
    ∃ rest, readPasses fuel (reads, s) = .ok (rest, t) := by
  induction fuel generalizing reads s with
  | zero => cases returned
  | succ fuel ih =>
    rw [readConfigFile] at returned
    cases call : reads.next with
    | none =>
      rw [call] at returned
      obtain rfl := Except.ok.inj returned
      exact ⟨reads, readPasses_end (fuel + 1) (reads, s) call⟩
    | some found =>
      obtain ⟨result, rest⟩ := found
      rw [call] at returned
      rw [readPasses, readPass, call]
      cases kind : SensorKind.ofType (s.scan result).sensorType with
      | none =>
        simp only [kind] at returned ⊢
        exact ih returned
      | some kind' =>
        cases added : (s.scan result).add kind' rest with
        | error fault =>
          simp only [kind, added] at returned
          cases returned
        | ok next =>
          simp only [kind, added] at returned ⊢
          exact ih returned

/-! ### A file of records -/

/-- The records of a list of configurations, each with the address of its structure. -/
def configRecords (written : List (INT32U × SensorConfig)) : List (List INT8U) :=
  written.flatMap fun config => fileSetConfig config.1 config.2

/-- What the `File_Set_Config_*` calls leave in an empty file. -/
def configFile (written : List (INT32U × SensorConfig)) : List INT8U := (configRecords written).flatten

/-- Reading a file from its start, 64 bytes a call. -/
def fileReads (file : List INT8U) : YaffsReads :=
  { results := (List.range ((file.length + 63) / 64)).map fun i => some ((file.drop (64 * i)).take 64)
    failing := false }

/-- A file of whole records is read record by record. -/
theorem fileReads_records (records : List (List INT8U)) (whole : ∀ r ∈ records, r.length = 64) :
    fileReads records.flatten = { results := records.map some, failing := false } := by
  induction records with
  | nil => rfl
  | cons r rest ih =>
    have head := whole r List.mem_cons_self
    have tail := ih fun x member => whole x (List.mem_cons_of_mem r member)
    have count : (((r :: rest).flatten).length + 63) / 64 =
        (rest.flatten.length + 63) / 64 + 1 := by
      rw [List.flatten_cons, List.length_append, head]
      omega
    have later : ∀ i, ((r :: rest).flatten.drop (64 * (i + 1))).take 64 =
        (rest.flatten.drop (64 * i)).take 64 := by
      intro i
      rw [List.flatten_cons, List.drop_append, List.drop_of_length_le (by omega), List.nil_append, head,
        Nat.mul_succ, Nat.add_sub_cancel]
    have first : ((r :: rest).flatten.drop (64 * 0)).take 64 = r := by
      rw [Nat.mul_zero, List.drop_zero, List.flatten_cons, List.take_append_of_le_length (by omega),
        List.take_of_length_le (by omega)]
    simp only [fileReads, YaffsReads.mk.injEq, and_true] at tail ⊢
    rw [count, List.range_succ_eq_map, List.map_cons, first, List.map_map, List.map_cons, ← tail]
    congr 1
    apply List.map_congr_left
    intro i _
    exact congrArg some (later i)

theorem length_fileSetConfig (address : INT32U) (conf : SensorConfig) :
    ∀ r ∈ fileSetConfig address conf, r.length = 64 := by
  cases conf <;>
    simp only [fileSetConfig, fileSetConfigAnalogue, fileSetConfigSwitch, fileSetConfigAccumulate,
      fileSetConfigTristate, typeRecord, headerRecord, rangeRecord, List.mem_cons, List.not_mem_nil,
      or_false, forall_eq_or_imp, forall_eq, length_record, and_self]

theorem fileReads_configFile (written : List (INT32U × SensorConfig)) :
    fileReads (configFile written) =
      { results := (configRecords written).map some, failing := false } := by
  apply fileReads_records
  intro r member
  obtain ⟨config, -, inside⟩ := List.mem_flatMap.mp member
  exact length_fileSetConfig config.1 config.2 r inside

/-! ### One configuration -/

/-- A structure after the records of a configuration were read into it. -/
def readBack (address : INT32U) : SensorConfig → Memory → Memory
  | .analogue conf => analogueReadBack address conf
  | .switch conf => switchReadBack address conf
  | .accumulate conf => accumulateReadBack conf
  | .tristate conf => tristateReadBack address conf

/-- A configuration is a type record and what the matching reader takes. -/
theorem fileSetConfig_split (address : INT32U) (conf : SensorConfig) :
    ∃ body, fileSetConfig address conf = typeRecord conf.kind :: body ∧
      ∀ (more : List (List INT8U)) (m : Memory),
        fileGetConfig conf.kind (body ++ more) m = (readBack address conf m, more) := by
  cases conf with
  | analogue conf => exact ⟨_, rfl, fileGetConfigAnalogue_written address conf⟩
  | switch conf => exact ⟨_, rfl, fileGetConfigSwitch_written address conf⟩
  | accumulate conf => exact ⟨_, rfl, fileGetConfigAccumulate_written conf⟩
  | tristate conf => exact ⟨_, rfl, fileGetConfigTristate_written address conf⟩

/-- A type record says which type it is, whatever is left in the buffer behind it. -/
theorem scanType_typeRecord (kind : SensorKind) (rest : List INT8U) :
    (scanType (cString (typeRecord kind ++ rest))).bind SensorKind.ofType = some kind := by
  have range : -2 ^ 31 ≤ (kind.code.toNat : Int) ∧ (kind.code.toNat : Int) < 2 ^ 32 := by
    cases kind <;> decide
  obtain ⟨short, nulFree⟩ := fits_intText range.1 range.2
  have name : (ascii "Type:").length = 5 := rfl
  have split : ascii "Type: " ++ intText kind.code.toNat =
      ascii "Type:" ++ 32 :: intText kind.code.toNat := rfl
  have fits : Fits (ascii "Type: " ++ intText kind.code.toNat) := by
    refine ⟨?_, ?_⟩
    · rw [split, List.length_append, List.length_cons, name]
      omega
    · rw [List.mem_append, not_or]
      exact ⟨by decide, nulFree⟩
  have text : cString (typeRecord kind ++ rest) = ascii "Type:" ++ 32 :: intText kind.code.toNat := by
    rw [typeRecord, record_eq fits, List.append_assoc, List.cons_append,
      cString_append_nul fits.nulFree, split]
  have ends : Stops [] := fun b first => by cases first
  have number := scanInt_intText (kind.code.toNat : Int) ends
  rw [List.append_nil] at number
  rw [text, scanType, List.take_left' name, if_pos rfl, List.drop_left' name, scanInt_blank, number]
  cases kind <;> rfl

theorem typeRecord_delivered (kind : SensorKind) : typeRecord kind ≠ [] := by
  intro empty
  have length : (typeRecord kind).length = 64 := length_record _
  rw [empty] at length
  cases length

theorem next_record (bytes : List INT8U) (rest : List (Option (List INT8U))) (failing : Bool)
    (some : bytes ≠ []) :
    YaffsReads.next { results := .some bytes :: rest, failing := failing } =
      .some (.some bytes, { results := rest, failing := failing }) := by
  cases bytes with
  | nil => exact absurd rfl some
  | cons => rfl

/-- The case of the switch takes the calls that the reader makes, and no more. -/
theorem add_records (s : ConfigReader) (kind : SensorKind) (records : List (List INT8U))
    (failing : Bool) :
    s.add kind { results := records.map some, failing := failing } =
      match SensorConfig.ofMemory kind (fileGetConfig kind records (s.locals kind)).1 with
      | none => .error .overrun
      | some conf =>
        .ok
          ({ s with
              locals := Function.update s.locals kind
                (fileGetConfig kind records (s.locals kind)).1
              list := initTestpoint conf :: s.list
              equipmentType := s.equipmentType + 1 },
            { results := (records.drop kind.calls).map some, failing := failing }) := by
  have results : (records.map some).map (fun result : Option (List INT8U) => result.getD []) =
      records := by
    rw [List.map_map]
    exact List.map_id _
  have left : (records.map some).drop
      ((records.map some).length - (records.drop kind.calls).length) =
        (records.drop kind.calls).map some := by
    rw [← List.map_drop, List.length_map, List.length_drop]
    congr 1
    rcases Nat.le_total kind.calls records.length with enough | short
    · congr 1
      omega
    · rw [List.drop_of_length_le (by omega), List.drop_of_length_le short]
  simp only [ConfigReader.add, results, fileGetConfig_rest, left]

theorem add_written (s : ConfigReader) (kind : SensorKind) (body more : List (List INT8U))
    (failing : Bool) (after : Memory) (back : SensorConfig)
    (got : fileGetConfig kind (body ++ more) (s.locals kind) = (after, more))
    (held : SensorConfig.ofMemory kind after = some back) :
    s.add kind { results := (body ++ more).map some, failing := failing } =
      .ok
        ({ s with
            locals := Function.update s.locals kind after
            list := initTestpoint back :: s.list
            equipmentType := s.equipmentType + 1 },
          { results := more.map some, failing := failing }) := by
  rw [add_records, ← fileGetConfig_rest kind (body ++ more) (s.locals kind), got]
  simp only [held]

/-- One iteration over the records of a configuration: one point more, built from the
structure that was read. -/
theorem readConfigFile_config (fuel : Nat) (address : INT32U) (conf back : SensorConfig)
    (more : List (List INT8U)) (failing : Bool) (s : ConfigReader)
    (held : SensorConfig.ofMemory conf.kind (readBack address conf (s.locals conf.kind)) = some back) :
    ∃ t : ConfigReader,
      readConfigFile (fuel + 1)
          { results := (fileSetConfig address conf ++ more).map some, failing := failing } s =
        readConfigFile fuel { results := more.map some, failing := failing } t ∧
      t.list = initTestpoint back :: s.list ∧ t.equipmentType = s.equipmentType + 1 := by
  obtain ⟨body, split, got⟩ := fileSetConfig_split address conf
  let scanned := s.scan (some (typeRecord conf.kind))
  have length : (typeRecord conf.kind).length = 64 := length_record _
  have type : SensorKind.ofType scanned.sensorType = some conf.kind := by
    have named := scanType_typeRecord conf.kind (s.buf.drop 64)
    obtain ⟨code, scan, kind⟩ := Option.bind_eq_some_iff.mp named
    simp only [scanned, ConfigReader.scan, length, List.take_of_length_le (Nat.le_of_eq length), scan,
      Option.getD_some, kind]
  let after := readBack address conf (s.locals conf.kind)
  have added := add_written scanned conf.kind body more failing after back
    (got more (s.locals conf.kind)) held
  refine ⟨{ scanned with
      locals := Function.update scanned.locals conf.kind after
      list := initTestpoint back :: scanned.list
      equipmentType := scanned.equipmentType + 1 }, ?_, rfl, rfl⟩
  rw [split, List.cons_append, List.map_cons, readConfigFile, next_record _ _ _ (typeRecord_delivered conf.kind)]
  simp only [scanned] at type added
  simp only [type, added, scanned]

/-- At the end of the file the function returns. -/
theorem readConfigFile_end (fuel : Nat) (s : ConfigReader) :
    readConfigFile (fuel + 1) { results := [], failing := false } s = .ok s := rfl

end GasSub.Source
