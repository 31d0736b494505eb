import GasSub.Guarantees.DispatchSafety

/-!
# A damaged configuration file

A file of any bytes whose reads fail for ever from some call on. `Read_ConfigFile`
returns, adds points for type records only and keeps locations in their fields just for
the files described here: it takes a failed read for a record, a record without a
number for one of the type read last, and copies a location however long it is.
-/
namespace GasSub.Guarantees.DamagedConfig
open GasSub.Library.ByteMemory GasSub.Library.Decimal GasSub.Source
open GasSub.Guarantees.ConfigRoundTrip GasSub.Guarantees.DispatchSafety

/-- The records of a file as the first `calls` reads deliver them, 64 bytes a call. -/
def deliveries : List INT8U → (calls : Nat) → List (List INT8U)
  | _, 0 => []
  | file, calls + 1 => file.take 64 :: deliveries (file.drop 64) calls

/-- Reads that deliver these records and then fail for ever. -/
def thenFailing (records : List (List INT8U)) : YaffsReads :=
  { results := records.map some, failing := true }

/-! ### What is claimed of a pass -/

/-- The record has the form "Type: k" with k in 1..4. -/
def NamesType (record : List INT8U) : Prop :=
  ((scanType (cString record)).bind SensorKind.ofType).isSome

/-- What a reader of configurations copies into the location: the second record it reads. -/
def copiedLocation (later : YaffsReads) : Text :=
  cString (yaffsRead (yaffsRead (later.results.map fun result => result.getD [])).2).1

/-- If the next pass adds a point, then for a record that names its type, and the location
has at most 29 characters. -/
def PassSound (state : YaffsReads × ConfigReader) : Prop :=
  ∀ result later kind, state.1.next = some (result, later) →
    SensorKind.ofType (state.2.scan result).sensorType = some kind →
    (∃ record, result = some record ∧ NamesType record) ∧ (copiedLocation later).length ≤ 29

/-- The function returns, and every pass it comes to is sound. -/
structure ReadsSafely (reads : YaffsReads) (s : ConfigReader) : Prop where
  returns : ∃ fuel t, readConfigFile fuel reads s = .ok t
  passes : ∀ n state, readPasses n (reads, s) = .ok state → PassSound state

/-! ### The files it reads safely -/

/-- The buffer of the loop with a record read over it. -/
def bufWith (record buf : List INT8U) : List INT8U := record.take 64 ++ buf.drop record.length

/-- The type that a record leaves: the one scanned, or the one from before. -/
def typeWith (record buf : List INT8U) (type : INT32U) : INT32U :=
  (scanType (cString (bufWith record buf))).getD type

/-- Records that do no harm, read over what buffer and type held before. They end before
the reads fail. A record that leaves no type of a sensor is passed over; one that leaves a
type names it, the location after it ends early, and the rest of its configuration is
passed over unseen. -/
inductive Harmless : List (List INT8U) → List INT8U → INT32U → Prop where
  | ended (rest : List (List INT8U)) (buf : List INT8U) (type : INT32U) :
      Harmless ([] :: rest) buf type
  | stray {record buf : List INT8U} {rest : List (List INT8U)} {type : INT32U}
      (delivered : record ≠ [])
      (unnamed : SensorKind.ofType (typeWith record buf type) = none)
      (later : Harmless rest (bufWith record buf) (typeWith record buf type)) :
      Harmless (record :: rest) buf type
  | config {record buf : List INT8U} {rest : List (List INT8U)} {type : INT32U}
      {kind : SensorKind}
      (delivered : record ≠ [])
      (left : SensorKind.ofType (typeWith record buf type) = some kind)
      (named : NamesType record)
      (location : EndsEarly (rest.getD 1 []))
      (later : Harmless (rest.drop kind.calls) (bufWith record buf) (typeWith record buf type)) :
      Harmless (record :: rest) buf type

/-! ### One pass -/

/-- The function makes its passes one by one. -/
theorem readConfigFile_pass {reads : YaffsReads} (s : ConfigReader) (fuel : Nat)
    (goesOn : reads.next ≠ none) :
    readConfigFile (fuel + 1) reads s =
      readPass (reads, s) >>= fun state => readConfigFile fuel state.1 state.2 := by
  rw [readConfigFile, readPass]
  cases call : reads.next with
  | none => exact absurd call goesOn
  | some found =>
    cases kind : SensorKind.ofType (s.scan found.1).sensorType with
    | none => simp only [kind]; rfl
    | some kind' =>
      simp only [kind]
      cases (s.scan found.1).add kind' found.2 <;> rfl

/-- To be read safely is to make a sound pass and to be read safely behind it. -/
theorem readsSafely_pass {reads later : YaffsReads} {s t : ConfigReader} (goesOn : reads.next ≠ none)
    (passed : readPass (reads, s) = .ok (later, t)) :
    ReadsSafely reads s ↔ PassSound (reads, s) ∧ ReadsSafely later t := by
  have rest : ∀ fuel, readConfigFile (fuel + 1) reads s = readConfigFile fuel later t := by
    intro fuel
    rw [readConfigFile_pass s fuel goesOn, passed]
    rfl
  have passes : ∀ n, readPasses (n + 1) (reads, s) = readPasses n (later, t) := by
    intro n
    rw [readPasses, passed]
    rfl
  constructor
  · rintro ⟨⟨fuel, final, returned⟩, sound⟩
    refine ⟨sound 0 _ rfl, ?_, fun n state reached => sound (n + 1) state ?_⟩
    · cases fuel with
      | zero => cases returned
      | succ fuel => exact ⟨fuel, final, (rest fuel).symm.trans returned⟩
    · rw [passes, reached]
  · rintro ⟨first, ⟨fuel, final, returned⟩, sound⟩
    refine ⟨⟨fuel + 1, final, (rest fuel).trans returned⟩, fun n state reached => ?_⟩
    cases n with
    | zero =>
      obtain rfl := Except.ok.inj reached
      exact first
    | succ n =>
      rw [passes] at reached
      exact sound n state reached

/-- At the end of the file there is nothing left to go wrong. -/
theorem readsSafely_end {reads : YaffsReads} (s : ConfigReader) (ended : reads.next = none) :
    ReadsSafely reads s := by
  refine ⟨⟨1, s, by rw [readConfigFile, ended]⟩, fun n state reached => ?_⟩
  rw [readPasses_end n (reads, s) ended] at reached
  obtain rfl := Except.ok.inj reached
  intro result later kind call
  rw [ended] at call
  cases call

/-! ### Passes over delivered records -/

theorem next_thenFailing {record : List INT8U} (rest : List (List INT8U)) (delivered : record ≠ []) :
    (thenFailing (record :: rest)).next = some (some record, thenFailing rest) :=
  next_record record (rest.map some) true delivered

theorem goesOn_thenFailing {record : List INT8U} (rest : List (List INT8U))
    (delivered : record ≠ []) : (thenFailing (record :: rest)).next ≠ none := by
  rw [next_thenFailing rest delivered]
  exact fun no => by cases no

theorem length_secondText_iff (rest : List (List INT8U)) :
    (cString (yaffsRead (yaffsRead rest).2).1).length ≤ 29 ↔ EndsEarly (rest.getD 1 []) := by
  have second : (rest.drop 1).getD 0 [] = rest.getD 1 [] := by
    rw [List.getD_eq_getElem?_getD, List.getElem?_drop, ← List.getD_eq_getElem?_getD]
  rw [yaffsRead_rest, length_cString_yaffsRead_iff, second]

theorem copiedLocation_thenFailing (rest : List (List INT8U)) :
    copiedLocation (thenFailing rest) = cString (yaffsRead (yaffsRead rest).2).1 := by
  have delivered : (thenFailing rest).results.map (fun result => result.getD []) = rest := by
    rw [thenFailing, List.map_map]
    exact List.map_id _
  rw [copiedLocation, delivered]

theorem passSound_iff {record : List INT8U} (rest : List (List INT8U)) (s : ConfigReader)
    (delivered : record ≠ []) :
    PassSound (thenFailing (record :: rest), s) ↔
      ∀ kind, SensorKind.ofType (typeWith record s.buf s.sensorType) = some kind →
        NamesType record ∧ EndsEarly (rest.getD 1 []) := by
  have call := next_thenFailing rest delivered
  constructor
  · intro sound kind left
    obtain ⟨⟨record', same, named⟩, fits⟩ := sound _ _ kind call left
    obtain rfl := Option.some.inj same
    rw [copiedLocation_thenFailing, length_secondText_iff] at fits
    exact ⟨named, fits⟩
  · intro each result later kind called left
    obtain ⟨rfl, rfl⟩ := Prod.mk.inj (Option.some.inj (call.symm.trans called))
    obtain ⟨named, early⟩ := each kind left
    rw [copiedLocation_thenFailing, length_secondText_iff]
    exact ⟨⟨record, rfl, named⟩, early⟩

theorem readPass_stray {record : List INT8U} (rest : List (List INT8U)) (s : ConfigReader)
    (delivered : record ≠ [])
    (unnamed : SensorKind.ofType (typeWith record s.buf s.sensorType) = none) :
    readPass (thenFailing (record :: rest), s) = .ok (thenFailing rest, s.scan (some record)) := by
  have kind : SensorKind.ofType (s.scan (some record)).sensorType = none := unnamed
  simp only [readPass, next_thenFailing rest delivered, kind]

/-- A configuration is read as far as it goes, and the loop keeps its buffer and its type. -/
theorem add_thenFailing (s : ConfigReader) (kind : SensorKind) {rest : List (List INT8U)}
    (early : EndsEarly (rest.getD 1 [])) :
    ∃ t, s.add kind (thenFailing rest) = .ok (t, thenFailing (rest.drop kind.calls)) ∧
      t.buf = s.buf ∧ t.sensorType = s.sensorType := by
  have fits := (locationOf_fileGetConfig_iff kind rest (s.locals kind)).mpr
    ((length_secondText_iff rest).mpr early)
  obtain ⟨location, held⟩ := Option.isSome_iff_exists.mp fits
  obtain ⟨conf, made⟩ : ∃ conf,
      SensorConfig.ofMemory kind (fileGetConfig kind rest (s.locals kind)).1 = some conf :=
    ⟨_, by rw [SensorConfig.ofMemory, held, Option.map_some]⟩
  have added := add_records s kind rest true
  simp only [made] at added
  exact ⟨_, added, rfl, rfl⟩

theorem readPass_config {record : List INT8U} (rest : List (List INT8U)) (s : ConfigReader)
    {kind : SensorKind} (delivered : record ≠ [])
    (left : SensorKind.ofType (typeWith record s.buf s.sensorType) = some kind)
    (early : EndsEarly (rest.getD 1 [])) :
    ∃ t, readPass (thenFailing (record :: rest), s) = .ok (thenFailing (rest.drop kind.calls), t) ∧
      t.buf = bufWith record s.buf ∧ t.sensorType = typeWith record s.buf s.sensorType := by
  have named : SensorKind.ofType (s.scan (some record)).sensorType = some kind := left
  obtain ⟨t, added, buf, type⟩ := add_thenFailing (s.scan (some record)) kind early
  refine ⟨t, ?_, buf, type⟩
  simp only [readPass, next_thenFailing rest delivered, named, added]
  rfl

/-- A failing read is no end: the loop goes on for ever. -/
theorem failing_endless (fuel : Nat) (s t : ConfigReader) :
    readConfigFile fuel (thenFailing []) s ≠ .ok t := by
  induction fuel generalizing s with
  | zero => exact fun returned => by cases returned
  | succ fuel ih =>
    have call : (thenFailing []).next = some (none, thenFailing []) := rfl
    cases kind : SensorKind.ofType (s.scan none).sensorType with
    | none =>
      simp only [readConfigFile, call, kind]
      exact ih (s.scan none)
    | some kind' =>
      have early : EndsEarly (([] : List (List INT8U)).getD 1 []) := Or.inr (by decide)
      obtain ⟨added, result, -, -⟩ := add_thenFailing (s.scan none) kind' early
      rw [List.drop_nil] at result
      simp only [readConfigFile, call, kind, result]
      exact ih added

/-! ### The exact files -/

/-- Records that are read safely do no harm: the next pass says what the first record is. -/
theorem harmless_of_safe (records : List (List INT8U)) (s : ConfigReader)
    (safe : ReadsSafely (thenFailing records) s) : Harmless records s.buf s.sensorType := by
  induction size : records.length using Nat.strong_induction_on generalizing records s with
  | _ size' ih =>
    cases records with
    | nil =>
      obtain ⟨fuel, t, returned⟩ := safe.returns
      exact absurd returned (failing_endless fuel s t)
    | cons record rest =>
      by_cases ended : record = []
      · subst ended
        exact .ended rest s.buf s.sensorType
      have goesOn := goesOn_thenFailing rest ended
      rw [List.length_cons] at size
      cases left : SensorKind.ofType (typeWith record s.buf s.sensorType) with
      | none =>
        have later := ((readsSafely_pass goesOn (readPass_stray rest s ended left)).mp safe).2
        exact .stray ended left (ih rest.length (by omega) rest _ later rfl)
      | some kind =>
        obtain ⟨named, early⟩ := (passSound_iff rest s ended).mp (safe.passes 0 _ rfl) kind left
        obtain ⟨t, passed, buf, type⟩ := readPass_config rest s ended left early
        have later := ((readsSafely_pass goesOn passed).mp safe).2
        have shorter : (rest.drop kind.calls).length < size' := by
          rw [List.length_drop]
          omega
        have harmless := ih _ shorter _ t later rfl
        rw [buf, type] at harmless
        exact .config ended left named early harmless

/-- Records that do no harm are read safely, by the shape of the harmless list. -/
theorem safe_of_harmless {records : List (List INT8U)} {buf : List INT8U} {type : INT32U}
    (harmless : Harmless records buf type) (s : ConfigReader) (sameBuf : s.buf = buf)
    (sameType : s.sensorType = type) : ReadsSafely (thenFailing records) s := by
  induction harmless generalizing s with
  | ended rest buf type => exact readsSafely_end s rfl
  | @stray record buf rest type delivered unnamed later ih =>
    subst sameBuf sameType
    have goesOn := goesOn_thenFailing rest delivered
    refine (readsSafely_pass goesOn (readPass_stray rest s delivered unnamed)).mpr ⟨?_, ih _ rfl rfl⟩
    refine (passSound_iff rest s delivered).mpr fun kind left => ?_
    rw [unnamed] at left
    cases left
  | @config record buf rest type kind delivered left named early later ih =>
    subst sameBuf sameType
    have goesOn := goesOn_thenFailing rest delivered
    obtain ⟨t, passed, keptBuf, keptType⟩ := readPass_config rest s delivered left early
    refine (readsSafely_pass goesOn passed).mpr ⟨?_, ih t keptBuf keptType⟩
    exact (passSound_iff rest s delivered).mpr fun _ _ => ⟨named, early⟩

/-! ### Files as they are written -/

theorem endsEarly_location (location : Location) : EndsEarly (record location.chars) := by
  have fits := location.fits
  left
  rw [record_eq ⟨by omega, location.nulFree⟩, List.take_append, List.mem_append]
  right
  obtain ⟨spare, room⟩ : ∃ spare, 30 - location.chars.length = spare + 1 :=
    ⟨29 - location.chars.length, by omega⟩
  rw [room, List.take_succ_cons]
  exact List.mem_cons_self

theorem typeRecord_names (kind : SensorKind) (buf : List INT8U) (type : INT32U) :
    NamesType (typeRecord kind) ∧
      SensorKind.ofType (typeWith (typeRecord kind) buf type) = some kind := by
  have length : (typeRecord kind).length = 64 := length_record _
  constructor
  · have alone := scanType_typeRecord kind []
    rw [List.append_nil] at alone
    rw [NamesType, alone]
    rfl
  · obtain ⟨code, scan, named⟩ :=
      Option.bind_eq_some_iff.mp (scanType_typeRecord kind (buf.drop (typeRecord kind).length))
    rw [typeWith, bufWith, List.take_of_length_le (Nat.le_of_eq length), scan, Option.getD_some,
      named]

/-- A configuration is a type record, a header, the location and the rest. -/
theorem fileSetConfig_shape (address : INT32U) (conf : SensorConfig) :
    ∃ header rest, fileSetConfig address conf =
        typeRecord conf.kind :: header :: record conf.location.chars :: rest ∧
      (header :: record conf.location.chars :: rest).length = conf.kind.calls := by
  cases conf <;> exact ⟨_, _, rfl, rfl⟩

/-- A file of configurations does no harm if it can be read to its end. -/
theorem harmless_written (written : List (INT32U × SensorConfig)) (behind : List (List INT8U))
    (buf : List INT8U) (type : INT32U) :
    Harmless (configRecords written ++ [] :: behind) buf type := by
  induction written generalizing buf type with
  | nil => exact .ended behind buf type
  | cons config others ih =>
    obtain ⟨header, rest, shape, calls⟩ := fileSetConfig_shape config.1 config.2
    have split : configRecords (config :: others) ++ [] :: behind =
        typeRecord config.2.kind :: ((header :: record config.2.location.chars :: rest) ++
          (configRecords others ++ [] :: behind)) := by
      rw [configRecords, List.flatMap_cons, shape, List.append_assoc]
      rfl
    obtain ⟨named, left⟩ := typeRecord_names config.2.kind buf type
    have later : ((header :: record config.2.location.chars :: rest) ++
        (configRecords others ++ [] :: behind)).drop config.2.kind.calls =
          configRecords others ++ [] :: behind := List.drop_left' calls
    rw [split]
    refine .config (typeRecord_delivered _) left named (endsEarly_location _) ?_
    rw [later]
    exact ih _ _

/-- Exactly the files that do no harm up to the call from which reads fail are read safely,
whatever the locals held. -/
theorem readConfigFile_safe_iff (file : List INT8U) (failFrom : Nat) (s : ConfigReader) :
    ReadsSafely (thenFailing (deliveries file failFrom)) s ↔
      Harmless (deliveries file failFrom) s.buf s.sensorType :=
  ⟨harmless_of_safe _ s, fun harmless => safe_of_harmless harmless s rfl rfl⟩

/-- A file that cannot be read at all keeps the loop busy for ever. -/
theorem readConfigFile_not_safe :
    ¬ ∀ (file : List INT8U) (failFrom : Nat) (s : ConfigReader),
      ReadsSafely (thenFailing (deliveries file failFrom)) s := by
  intro claim
  obtain ⟨fuel, t, returned⟩ := (claim (typeRecord .switch) 0 zeroedReader).returns
  exact failing_endless fuel zeroedReader t returned

end GasSub.Guarantees.DamagedConfig
