import GasSub.Library.Binary32
import GasSub.Library.ByteMemory
import GasSub.Source.Sensor

/-!
# Configuration records

`user_file.c`: writing a test point's configuration as text records of 64 bytes
and reading it back into a configuration structure. A file is the list of its
records; what successive reads deliver is a list of byte runs. The structure read
into is a byte memory addressed from its start: `sscanf` with `%d` stores four
bytes wherever it is pointed, also into a field of one or two bytes.
-/
namespace GasSub.Source
open GasSub.Library.ByteMemory GasSub.Library.Decimal GasSub.Library.Binary32

/-- Byte offsets in the configuration structures. -/
def testpointNoAt : Nat := 0
def sensorNameAt : Nat := 4
def locationAt : Nat := 6
def portTypeAt : Nat := 36
def outputControlAt : Nat := 38
def outageAt : Nat := 40
def recoverAt : Nat := 48
def alarmAt : Nat := 56
def liftAlarmAt : Nat := 64
def measureRangeAt : Nat := 72
def coefficientAt : Nat := 80
def currentAt : Nat := 40
def measureMaxValAt : Nat := 40
def shiftAt : Nat := 44
def accumulateCoefficientAt : Nat := 48

/-! ### Records -/

/-- A text in a buffer of `BUFFERSIZE` zeros whose last byte is a line feed. -/
def record (text : Text) : List INT8U := (text ++ List.replicate 64 0).take 63 ++ [0x0A]

/-- `yaffs_read` into a buffer of 64 zeros. -/
def yaffsRead (reads : List (List INT8U)) : List INT8U × List (List INT8U) :=
  match reads with
  | [] => (List.replicate 64 0, [])
  | bytes :: rest => ((bytes ++ List.replicate 64 0).take 64, rest)

/-- `sscanf` of one `%d` after another, each into a field or, for `none`, into a local
variable. The text left over is given if all of them matched. -/
def scanFields : List (Option Nat) → Text → Memory → Memory × Option Text
  | [], text, m => (m, some text)
  | target :: rest, text, m =>
    match scanInt text with
    | none => (m, none)
    | some (value, tail) =>
      match target with
      | none => scanFields rest tail m
      | some offset => scanFields rest tail (store32 m offset (BitVec.ofInt 32 value))

/-- The next record scanned into fields. -/
def readFields (targets : List (Option Nat)) (reads : List (List INT8U)) (m : Memory) :
    Memory × List (List INT8U) :=
  let read := yaffsRead reads
  ((scanFields targets (cString read.1) m).1, read.2)

/-- The next record copied as a string. -/
def readString (offset : Nat) (reads : List (List INT8U)) (m : Memory) :
    Memory × List (List INT8U) :=
  let read := yaffsRead reads
  (store m offset (cString read.1 ++ [0]), read.2)

/-- A scanned number stored, if there is one. -/
def storeFloat (m : Memory) (offset : Nat) : Option (BitVec 32) → Memory
  | none => m
  | some value => store32 m offset value

/-- The next record scanned as `%d %f`. -/
def readFieldAndFloat (intAt floatAt : Nat) (reads : List (List INT8U)) (m : Memory) :
    Memory × List (List INT8U) :=
  let read := yaffsRead reads
  let scanned := scanFields [some intAt] (cString read.1) m
  (storeFloat scanned.1 floatAt (scanned.2.bind scanFloat), read.2)

/-- The next record scanned as `%f`. -/
def readFloat (floatAt : Nat) (reads : List (List INT8U)) (m : Memory) :
    Memory × List (List INT8U) :=
  let read := yaffsRead reads
  (storeFloat m floatAt (scanFloat (cString read.1)), read.2)

def typeRecord (kind : SensorKind) : List INT8U :=
  record (ascii "Type: " ++ intText kind.code.toNat)

def headerRecord (testpointNo : INT32S) (sensorName : INT16S) (portType : INT16U) (address : Int) :
    List INT8U :=
  record (intsText [testpointNo.toInt, sensorName.toInt, portType.toNat, address])

def rangeRecord (range : Range) : List INT8U :=
  record (intsText [range.minval.toInt, range.maxval.toInt])

/-! ### Analogue configurations -/

/-- `File_Set_Config_Analogue` of the structure at `address`: `outputControl` is an
array, so what is printed for it is its address. -/
def fileSetConfigAnalogue (address : INT32U) (conf : AnalogueConfig) : List (List INT8U) :=
  [typeRecord .analogue,
    headerRecord conf.testpointNo conf.sensorName conf.portType 12,
    record conf.location.chars,
    rangeRecord conf.alarm,
    rangeRecord conf.liftAlarm,
    rangeRecord conf.measureRange,
    rangeRecord conf.outage,
    rangeRecord conf.recover,
    record (intText (address + BitVec.ofNat 32 outputControlAt).toInt ++
      32 :: fixedText conf.coefficient)]

/-- `File_Get_Config_Analogue` into the structure at the start of `m`. -/
def fileGetConfigAnalogue (reads : List (List INT8U)) (m : Memory) :
    Memory × List (List INT8U) :=
  let (m, reads) := readFields [some testpointNoAt, some sensorNameAt, some portTypeAt, none] reads m
  let (m, reads) := readString locationAt reads m
  let (m, reads) := readFields [some alarmAt, some (alarmAt + 4)] reads m
  let (m, reads) := readFields [some liftAlarmAt, some (liftAlarmAt + 4)] reads m
  let (m, reads) := readFields [some measureRangeAt, some (measureRangeAt + 4)] reads m
  let (m, reads) := readFields [some outageAt, some (outageAt + 4)] reads m
  let (m, reads) := readFields [some recoverAt, some (recoverAt + 4)] reads m
  readFieldAndFloat outputControlAt coefficientAt reads m

/-! ### Switch configurations -/

/-- `File_Set_Config_Switch` of the structure at `address`. -/
def fileSetConfigSwitch (address : INT32U) (conf : SwitchConfig) : List (List INT8U) :=
  [typeRecord .switch,
    headerRecord conf.testpointNo conf.sensorName conf.portType 22,
    record conf.location.chars,
    record (intText (address + BitVec.ofNat 32 outputControlAt).toInt)]

/-- `File_Get_Config_Switch` into the structure at the start of `m`; the last scan reaches
two bytes behind its end. -/
def fileGetConfigSwitch (reads : List (List INT8U)) (m : Memory) : Memory × List (List INT8U) :=
  let (m, reads) := readFields [some testpointNoAt, some sensorNameAt, some portTypeAt, none] reads m
  let (m, reads) := readString locationAt reads m
  readFields [some outputControlAt] reads m

/-! ### Accumulate configurations -/

/-- `File_Set_Config_Accumulate`. -/
def fileSetConfigAccumulate (conf : AccumulateConfig) : List (List INT8U) :=
  [typeRecord .accumulate,
    headerRecord conf.testpointNo conf.sensorName conf.portType 12,
    record conf.location.chars,
    record (intText conf.measureMaxVal.toInt),
    record (fixedText conf.coefficient),
    record (intText conf.shift.toInt)]

/-- `File_Get_Config_Accumulate` into the structure at the start of `m`. -/
def fileGetConfigAccumulate (reads : List (List INT8U)) (m : Memory) :
    Memory × List (List INT8U) :=
  let (m, reads) := readFields [some testpointNoAt, some sensorNameAt, some portTypeAt, none] reads m
  let (m, reads) := readString locationAt reads m
  let (m, reads) := readFields [some measureMaxValAt] reads m
  let (m, reads) := readFloat accumulateCoefficientAt reads m
  readFields [some shiftAt] reads m

/-! ### Tristate configurations -/

/-- `File_Set_Config_Tristate` of the structure at `address`. -/
def fileSetConfigTristate (address : INT32U) (conf : TristateConfig) : List (List INT8U) :=
  [typeRecord .tristate,
    headerRecord conf.testpointNo conf.sensorName conf.portType 12,
    record conf.location.chars,
    record (intsText [conf.current0.toInt, conf.current1.toInt, conf.current2.toInt]),
    record (intText (address + BitVec.ofNat 32 outputControlAt).toInt)]

/-- `File_Get_Config_Tristate` into the structure at the start of `m`. -/
def fileGetConfigTristate (reads : List (List INT8U)) (m : Memory) :
    Memory × List (List INT8U) :=
  let (m, reads) := readFields [some testpointNoAt, some sensorNameAt, some portTypeAt, none] reads m
  let (m, reads) := readString locationAt reads m
  let (m, reads) :=
    readFields [some currentAt, some (currentAt + 4), some (currentAt + 8)] reads m
  readFields [some outputControlAt] reads m

/-! ### Reading back one record -/

/-- A text that fits a record and ends in front of its padding. -/
structure Fits (text : Text) : Prop where
  short : text.length ≤ 62
  nulFree : 0 ∉ text

theorem record_eq {text : Text} (fits : Fits text) :
    record text = text ++ 0 :: (List.replicate (62 - text.length) 0 ++ [0x0A]) := by
  have length := fits.short
  have padding : (List.replicate 64 (0 : INT8U)).take (63 - text.length) =
      0 :: List.replicate (62 - text.length) 0 := by
    have count : min (63 - text.length) 64 = 62 - text.length + 1 := by omega
    rw [List.take_replicate, count, List.replicate_succ]
  unfold record
  rw [List.take_append, List.take_of_length_le (by omega), padding, List.append_assoc]
  rfl

theorem length_record (text : Text) : (record text).length = 64 := by
  unfold record
  rw [List.length_append, List.length_take, List.length_append, List.length_replicate,
    List.length_singleton, Nat.min_eq_left (by omega)]

theorem cString_record {text : Text} (fits : Fits text) : cString (record text) = text := by
  rw [record_eq fits]
  exact cString_append_nul fits.nulFree _

theorem yaffsRead_record (text : Text) (rest : List (List INT8U)) :
    yaffsRead (record text :: rest) = (record text, rest) := by
  have length := length_record text
  simp only [yaffsRead, Prod.mk.injEq, and_true]
  rw [List.take_append, List.take_of_length_le (by omega), length]
  exact List.append_nil _

/-- What scanning `values` one after another stores. -/
def storeFields : List (Option Nat) → List Int → Memory → Memory
  | some offset :: targets, value :: values, m =>
    storeFields targets values (store32 m offset (BitVec.ofInt 32 value))
  | none :: targets, _ :: values, m => storeFields targets values m
  | _, _, m => m

theorem scanFields_blank (target : Option Nat) (targets : List (Option Nat)) (text : Text)
    (m : Memory) :
    scanFields (target :: targets) (32 :: text) m = scanFields (target :: targets) text m := by
  simp only [scanFields, scanInt_blank]

theorem scanFields_cons {text tail : Text} {value : Int} (scanned : scanInt text = some (value, tail))
    (target : Option Nat) (targets : List (Option Nat)) (m : Memory) :
    scanFields (target :: targets) text m =
      scanFields targets tail (storeFields [target] [value] m) := by
  simp only [scanFields, scanned]
  cases target <;> rfl

/-- Numbers written with blanks between them are scanned into their targets. -/
theorem scanFields_intsText (values : List Int) (targets : List (Option Nat)) (rest : Text)
    (m : Memory) (same : targets.length = values.length) (stops : Stops rest) :
    scanFields targets (intsText values ++ rest) m = (storeFields targets values m, some rest) := by
  induction values generalizing targets m with
  | nil =>
    obtain rfl := List.length_eq_zero_iff.mp same
    rfl
  | cons value values ih =>
    cases targets with
    | nil => cases same
    | cons target targets =>
      have lengths : targets.length = values.length := Nat.succ.inj same
      have split : storeFields (target :: targets) (value :: values) m =
          storeFields targets values (storeFields [target] [value] m) := by
        cases target <;> rfl
      cases values with
      | nil =>
        obtain rfl := List.length_eq_zero_iff.mp lengths
        exact scanFields_cons (scanInt_intText value stops) target [] m
      | cons next values =>
        cases targets with
        | nil => cases lengths
        | cons target' targets =>
          have blank : Stops (32 :: (intsText (next :: values) ++ rest)) := by
            intro b first
            obtain rfl := Option.some.inj first
            rfl
          have text : intsText (value :: next :: values) ++ rest =
              intText value ++ 32 :: (intsText (next :: values) ++ rest) := by
            simp only [intsText, List.append_assoc, List.cons_append]
          rw [text, scanFields_cons (scanInt_intText value blank), scanFields_blank, split]
          exact ih (target' :: targets) _ lengths

theorem fits_intText {i : Int} (low : -2 ^ 31 ≤ i) (high : i < 2 ^ 32) :
    (intText i).length ≤ 11 ∧ 0 ∉ intText i :=
  ⟨length_intText low high, nul_notMem_intText i⟩

/-- Up to five 32-bit integers fit a record. -/
theorem fits_intsText {values : List Int} (few : values.length ≤ 5)
    (range : ∀ i ∈ values, -2 ^ 31 ≤ i ∧ i < 2 ^ 32) : Fits (intsText values) := by
  have each : (intsText values).length ≤ 12 * values.length ∧ 0 ∉ intsText values := by
    clear few
    induction values with
    | nil => exact ⟨Nat.le_refl 0, List.not_mem_nil⟩
    | cons i rest ih =>
      obtain ⟨low, high⟩ := range i (List.mem_cons_self ..)
      obtain ⟨short, nulFree⟩ := fits_intText low high
      obtain ⟨length, nulFree'⟩ := ih fun j member => range j (List.mem_cons_of_mem i member)
      cases rest with
      | nil => exact ⟨Nat.le_succ_of_le short, nulFree⟩
      | cons j rest =>
        simp only [intsText, List.length_append, List.length_cons, List.mem_append, List.mem_cons,
          not_or] at length nulFree' ⊢
        exact ⟨by omega, nulFree, by decide, nulFree'⟩
  exact ⟨by omega, each.2⟩

theorem range_toInt32 (v : BitVec 32) : -2 ^ 31 ≤ v.toInt ∧ v.toInt < 2 ^ 32 := by
  have low := BitVec.le_toInt v
  have high := BitVec.toInt_lt (x := v)
  omega

theorem range_toInt16 (v : BitVec 16) : -2 ^ 31 ≤ v.toInt ∧ v.toInt < 2 ^ 32 := by
  have low := BitVec.le_toInt v
  have high := BitVec.toInt_lt (x := v)
  omega

theorem fits_location (location : Location) : Fits location.chars :=
  ⟨Nat.le_trans location.fits (by decide), location.nulFree⟩

theorem readFields_record {values : List Int} (fits : Fits (intsText values))
    (targets : List (Option Nat)) (same : targets.length = values.length)
    (rest : List (List INT8U)) (m : Memory) :
    readFields targets (record (intsText values) :: rest) m =
      (storeFields targets values m, rest) := by
  have scanned := scanFields_intsText values targets [] m same fun b first => by cases first
  rw [List.append_nil] at scanned
  unfold readFields
  rw [yaffsRead_record]
  simp only [cString_record fits, scanned]

theorem readString_record {text : Text} (fits : Fits text) (offset : Nat)
    (rest : List (List INT8U)) (m : Memory) :
    readString offset (record text :: rest) m = (store m offset (text ++ [0]), rest) := by
  unfold readString
  rw [yaffsRead_record]
  simp only [cString_record fits]

theorem readFieldAndFloat_record (value : INT32S) (number : FloatBits) (intAt floatAt : Nat)
    (rest : List (List INT8U)) (m : Memory) :
    readFieldAndFloat intAt floatAt
        (record (intText value.toInt ++ 32 :: fixedText number) :: rest) m =
      (storeFloat (store32 m intAt value) floatAt (scanFloat (32 :: fixedText number)), rest) := by
  obtain ⟨low, high⟩ := range_toInt32 value
  obtain ⟨short, nulFree⟩ := fits_intText low high
  have digits := length_fixedText number
  have fits : Fits (intText value.toInt ++ 32 :: fixedText number) := by
    refine ⟨?_, ?_⟩
    · rw [List.length_append, List.length_cons]
      omega
    · simp only [List.mem_append, List.mem_cons, not_or]
      exact ⟨nulFree, by decide, nul_notMem_fixedText number⟩
  have blank : Stops (32 :: fixedText number) := by
    intro b first
    obtain rfl := Option.some.inj first
    rfl
  have scanned := scanFields_cons (scanInt_intText value.toInt blank) (some intAt) [] m
  have stored : storeFields [some intAt] [value.toInt] m = store32 m intAt value := by
    simp only [storeFields, BitVec.ofInt_toInt]
  have done : scanFields [] (32 :: fixedText number) (store32 m intAt value) =
      (store32 m intAt value, some (32 :: fixedText number)) := rfl
  rw [stored, done] at scanned
  unfold readFieldAndFloat
  rw [yaffsRead_record]
  simp only [cString_record fits, scanned, Option.bind_some]

/-! ### Reading back a configuration -/

/-- The header and the location of a structure that was read back. -/
def storeHeader (m : Memory) (testpointNo : INT32S) (sensorName : INT16S) (portType : INT16U)
    (location : Location) : Memory :=
  let m := store32 m testpointNoAt testpointNo
  let m := store32 m sensorNameAt (BitVec.ofInt 32 sensorName.toInt)
  let m := store32 m portTypeAt (BitVec.ofInt 32 portType.toNat)
  store m locationAt (location.chars ++ [0])

def storeRange (m : Memory) (offset : Nat) (range : Range) : Memory :=
  store32 (store32 m offset range.minval) (offset + 4) range.maxval

/-- A number stored for a float, if any, leaves everything around it alone. -/
theorem storeFloat_outside (m : Memory) (offset a : Nat) (number : Option (BitVec 32))
    (outside : a < offset ∨ offset + 4 ≤ a) : storeFloat m offset number a = m a := by
  cases number with
  | none => rfl
  | some value => exact store32_outside m offset a value outside

theorem agreeBelow_storeRange {bound offset : Nat} {later m : Memory} {range : Range}
    (agree : AgreeBelow bound later m) (behind : bound ≤ offset) :
    AgreeBelow bound (storeRange later offset range) m :=
  (agree.store32 behind).store32 (Nat.le_add_right_of_le behind)

theorem agreeBelow_storeFloat {bound offset : Nat} {later m : Memory} {number : Option (BitVec 32)}
    (agree : AgreeBelow bound later m) (behind : bound ≤ offset) :
    AgreeBelow bound (storeFloat later offset number) m := by
  cases number with
  | none => exact agree
  | some value => exact agree.store32 behind

theorem load32_storeFloat_outside (m : Memory) (offset a : Nat) (number : Option (BitVec 32))
    (outside : a + 4 ≤ offset ∨ offset + 4 ≤ a) :
    load32 (storeFloat m offset number) a = load32 m a := by
  cases number with
  | none => rfl
  | some value => exact load32_store32_outside m offset a value outside

theorem load32_storeRange (m : Memory) (offset : Nat) (range : Range) :
    load32 (storeRange m offset range) offset = range.minval ∧
      load32 (storeRange m offset range) (offset + 4) = range.maxval := by
  unfold storeRange
  refine ⟨?_, load32_store32 _ _ _⟩
  rw [load32_store32_outside _ _ _ _ (Or.inl (Nat.le_refl _)), load32_store32]

theorem load32_storeRange_outside (m : Memory) (offset a : Nat) (range : Range)
    (outside : a + 4 ≤ offset ∨ offset + 8 ≤ a) :
    load32 (storeRange m offset range) a = load32 m a := by
  unfold storeRange
  rw [load32_store32_outside _ _ _ _ (by omega), load32_store32_outside _ _ _ _ (by omega)]

/-- The port address, 12 or 22, is read into a local variable. -/
theorem readFields_header (testpointNo : INT32S) (sensorName : INT16S) (portType : INT16U)
    (location : Location) (portAddress : Int) (range : -2 ^ 31 ≤ portAddress ∧ portAddress < 2 ^ 32)
    (rest : List (List INT8U)) (m : Memory) :
    (let read := readFields [some testpointNoAt, some sensorNameAt, some portTypeAt, none]
      (headerRecord testpointNo sensorName portType portAddress :: record location.chars :: rest) m
    readString locationAt read.2 read.1) =
      (storeHeader m testpointNo sensorName portType location, rest) := by
  have port := portType.isLt
  have fits : Fits (intsText [testpointNo.toInt, sensorName.toInt, portType.toNat, portAddress]) := by
    apply fits_intsText (by simp)
    intro i member
    simp only [List.mem_cons, List.not_mem_nil, or_false] at member
    rcases member with rfl | rfl | rfl | rfl
    · exact range_toInt32 testpointNo
    · exact range_toInt16 sensorName
    · omega
    · exact range
  have fields := readFields_record fits [some testpointNoAt, some sensorNameAt, some portTypeAt, none]
    rfl
  unfold headerRecord
  simp only [fields, readString_record (fits_location location), storeFields, storeHeader,
    BitVec.ofInt_toInt]

theorem readFields_range (range : Range) (offset : Nat) (rest : List (List INT8U)) (m : Memory) :
    readFields [some offset, some (offset + 4)] (rangeRecord range :: rest) m =
      (storeRange m offset range, rest) := by
  have fits : Fits (intsText [range.minval.toInt, range.maxval.toInt]) := by
    apply fits_intsText (by simp)
    intro i member
    simp only [List.mem_cons, List.not_mem_nil, or_false] at member
    rcases member with rfl | rfl
    · exact range_toInt32 range.minval
    · exact range_toInt32 range.maxval
  have fields := readFields_record fits [some offset, some (offset + 4)] rfl
  unfold rangeRecord
  simp only [fields, storeFields, storeRange, BitVec.ofInt_toInt]

theorem readFields_int (value : INT32S) (offset : Nat) (rest : List (List INT8U)) (m : Memory) :
    readFields [some offset] (record (intText value.toInt) :: rest) m =
      (store32 m offset value, rest) := by
  have fits : Fits (intsText [value.toInt]) := by
    apply fits_intsText (by simp)
    intro i member
    obtain rfl := List.mem_singleton.mp member
    exact range_toInt32 value
  have fields := readFields_record fits [some offset] rfl rest m
  simp only [intsText, storeFields, BitVec.ofInt_toInt] at fields
  exact fields

theorem readFloat_record (number : FloatBits) (floatAt : Nat) (rest : List (List INT8U)) (m : Memory) :
    readFloat floatAt (record (fixedText number) :: rest) m =
      (storeFloat m floatAt (scanFloat (fixedText number)), rest) := by
  have fits : Fits (fixedText number) :=
    ⟨Nat.le_trans (length_fixedText number) (by decide), nul_notMem_fixedText number⟩
  unfold readFloat
  rw [yaffsRead_record]
  simp only [cString_record fits]

/-- The analogue structure after all records but the last were read back. -/
def analogueRanges (conf : AnalogueConfig) (m : Memory) : Memory :=
  let m := storeHeader m conf.testpointNo conf.sensorName conf.portType conf.location
  let m := storeRange m alarmAt conf.alarm
  let m := storeRange m liftAlarmAt conf.liftAlarm
  let m := storeRange m measureRangeAt conf.measureRange
  let m := storeRange m outageAt conf.outage
  storeRange m recoverAt conf.recover

/-- The analogue structure after its records were read back. -/
def analogueReadBack (address : INT32U) (conf : AnalogueConfig) (m : Memory) : Memory :=
  let m := analogueRanges conf m
  let m := store32 m outputControlAt (address + BitVec.ofNat 32 outputControlAt)
  storeFloat m coefficientAt (scanFloat (32 :: fixedText conf.coefficient))

theorem fileGetConfigAnalogue_written (address : INT32U) (conf : AnalogueConfig)
    (more : List (List INT8U)) (m : Memory) :
    fileGetConfigAnalogue (yaffsRead (fileSetConfigAnalogue address conf ++ more)).2 m =
      (analogueReadBack address conf m, more) := by
  have header := readFields_header conf.testpointNo conf.sensorName conf.portType conf.location 12
    (by decide)
  simp only at header
  unfold fileGetConfigAnalogue fileSetConfigAnalogue analogueReadBack analogueRanges
  simp only [List.cons_append, List.nil_append, yaffsRead, header, readFields_range,
    readFieldAndFloat_record]

/-- The switch structure after its records were read back. -/
def switchReadBack (address : INT32U) (conf : SwitchConfig) (m : Memory) : Memory :=
  let m := storeHeader m conf.testpointNo conf.sensorName conf.portType conf.location
  store32 m outputControlAt (address + BitVec.ofNat 32 outputControlAt)

theorem fileGetConfigSwitch_written (address : INT32U) (conf : SwitchConfig)
    (more : List (List INT8U)) (m : Memory) :
    fileGetConfigSwitch (yaffsRead (fileSetConfigSwitch address conf ++ more)).2 m =
      (switchReadBack address conf m, more) := by
  have header := readFields_header conf.testpointNo conf.sensorName conf.portType conf.location 22
    (by decide)
  simp only at header
  unfold fileGetConfigSwitch fileSetConfigSwitch switchReadBack
  simp only [List.cons_append, List.nil_append, yaffsRead, header, readFields_int]

/-- The accumulate structure after its records were read back. -/
def accumulateReadBack (conf : AccumulateConfig) (m : Memory) : Memory :=
  let m := storeHeader m conf.testpointNo conf.sensorName conf.portType conf.location
  let m := store32 m measureMaxValAt conf.measureMaxVal
  let m := storeFloat m accumulateCoefficientAt (scanFloat (fixedText conf.coefficient))
  store32 m shiftAt conf.shift

theorem fileGetConfigAccumulate_written (conf : AccumulateConfig) (more : List (List INT8U))
    (m : Memory) :
    fileGetConfigAccumulate (yaffsRead (fileSetConfigAccumulate conf ++ more)).2 m =
      (accumulateReadBack conf m, more) := by
  have header := readFields_header conf.testpointNo conf.sensorName conf.portType conf.location 12
    (by decide)
  simp only at header
  unfold fileGetConfigAccumulate fileSetConfigAccumulate accumulateReadBack
  simp only [List.cons_append, List.nil_append, yaffsRead, header, readFields_int, readFloat_record]

/-- The tristate structure after all records but the last were read back. -/
def tristateCurrents (conf : TristateConfig) (m : Memory) : Memory :=
  let m := storeHeader m conf.testpointNo conf.sensorName conf.portType conf.location
  let m := store32 m currentAt conf.current0
  let m := store32 m (currentAt + 4) conf.current1
  store32 m (currentAt + 8) conf.current2

/-- The tristate structure after its records were read back. -/
def tristateReadBack (address : INT32U) (conf : TristateConfig) (m : Memory) : Memory :=
  store32 (tristateCurrents conf m) outputControlAt (address + BitVec.ofNat 32 outputControlAt)

/-- Before the mask is read, the current levels are those written. -/
theorem load32_tristateCurrents (conf : TristateConfig) (m : Memory) :
    load32 (tristateCurrents conf m) currentAt = conf.current0 ∧
      load32 (tristateCurrents conf m) (currentAt + 4) = conf.current1 ∧
      load32 (tristateCurrents conf m) (currentAt + 8) = conf.current2 := by
  unfold tristateCurrents
  refine ⟨?_, ?_, load32_store32 _ _ _⟩
  · rw [load32_store32_outside _ (currentAt + 8) currentAt _ (by decide),
      load32_store32_outside _ (currentAt + 4) currentAt _ (by decide), load32_store32]
  · rw [load32_store32_outside _ (currentAt + 8) (currentAt + 4) _ (by decide), load32_store32]

theorem fileGetConfigTristate_written (address : INT32U) (conf : TristateConfig)
    (more : List (List INT8U)) (m : Memory) :
    fileGetConfigTristate (yaffsRead (fileSetConfigTristate address conf ++ more)).2 m =
      (tristateReadBack address conf m, more) := by
  have header := readFields_header conf.testpointNo conf.sensorName conf.portType conf.location 12
    (by decide)
  simp only at header
  have currents : Fits (intsText
      [conf.current0.toInt, conf.current1.toInt, conf.current2.toInt]) := by
    apply fits_intsText (by simp)
    intro i member
    simp only [List.mem_cons, List.not_mem_nil, or_false] at member
    rcases member with rfl | rfl | rfl
    · exact range_toInt32 conf.current0
    · exact range_toInt32 conf.current1
    · exact range_toInt32 conf.current2
  have fields := readFields_record currents
    [some currentAt, some (currentAt + 4), some (currentAt + 8)] rfl
  unfold fileGetConfigTristate fileSetConfigTristate tristateReadBack tristateCurrents
  simp only [List.cons_append, List.nil_append, yaffsRead, header, fields, readFields_int,
    storeFields, BitVec.ofInt_toInt]

end GasSub.Source
