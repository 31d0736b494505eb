import GasSub.Source.ConfigFile
import GasSub.Source.Eeprom

/-!
# The IP dialog

`_InitSetAddrDialog`, `_checkUserInputIP`, `_getUserInputIP` and the OK branch of
`_cbSetAddr` in `user_SetAddr.c`. The eighteen edit fields are numbered as in `GUI_ID_EDIT0` to
`GUI_ID_EDIT17`. `optionSaveStruct` is a byte memory addressed from its start, since
`sscanf` with `%d` stores four bytes at the address of a one-byte field.
-/
namespace GasSub.Source
open GasSub.Library.ByteMemory GasSub.Library.ByteWord GasSub.Library.Decimal

/-! ### The layout of `EEPROMDataStruct` -/

def ipAt : Nat := 0
def subAt : Nat := 4
def gwAt : Nat := 8
def macAt : Nat := 12
def uartConfigAt : Nat := 18
def passwordAt : Nat := 24

/-- The thirty bytes of a structure in the order of its declaration. -/
def EepromDataStruct.bytes (s : EepromDataStruct) : List INT8U :=
  s.ipConfig.ip.toList ++ s.ipConfig.sub.toList ++ s.ipConfig.gw.toList ++ s.ipConfig.mac.toList ++
    s.uartConfig.toList ++ s.password.toList

/-- A structure in memory; what lies behind it is of no concern here. -/
def EepromDataStruct.image (s : EepromDataStruct) : Memory := store (fun _ => 0) 0 s.bytes

/-- `n` bytes of memory. -/
def bytesAt (m : Memory) (address n : Nat) : Vector INT8U n := Vector.ofFn fun i => m (address + i.val)

/-- A field is read byte by byte. -/
theorem bytesAt_eq_iff {m : Memory} {address n : Nat} {field : Vector INT8U n} :
    bytesAt m address n = field ↔ ∀ k : Fin n, m (address + k.val) = field.get k := by
  constructor
  · rintro rfl k
    have read : (bytesAt m address n)[k.val] = m (address + k.val) := by
      rw [bytesAt, Vector.getElem_ofFn]
    exact read.symm
  · intro same
    apply Vector.ext
    intro k inside
    rw [bytesAt, Vector.getElem_ofFn]
    exact same ⟨k, inside⟩

def EepromDataStruct.ofMemory (m : Memory) : EepromDataStruct :=
  { ipConfig :=
      { ip := bytesAt m ipAt 4
        sub := bytesAt m subAt 4
        gw := bytesAt m gwAt 4
        mac := bytesAt m macAt 6 }
    uartConfig := bytesAt m uartConfigAt 6
    password := bytesAt m passwordAt 6 }

/-- Each field of a structure with the bytes before and behind it. -/
theorem EepromDataStruct.bytes_split (s : EepromDataStruct) :
    let ip := s.ipConfig.ip.toList
    let sub := s.ipConfig.sub.toList
    let gw := s.ipConfig.gw.toList
    let mac := s.ipConfig.mac.toList
    let uart := s.uartConfig.toList
    let password := s.password.toList
    s.bytes = [] ++ (ip ++ (sub ++ (gw ++ (mac ++ (uart ++ password))))) ∧
    s.bytes = ip ++ (sub ++ (gw ++ (mac ++ (uart ++ password)))) ∧
    s.bytes = (ip ++ sub) ++ (gw ++ (mac ++ (uart ++ password))) ∧
    s.bytes = (ip ++ sub ++ gw) ++ (mac ++ (uart ++ password)) ∧
    s.bytes = (ip ++ sub ++ gw ++ mac) ++ (uart ++ password) ∧
    s.bytes = (ip ++ sub ++ gw ++ mac ++ uart) ++ (password ++ []) := by
  simp only [bytes, List.append_assoc, List.append_nil, List.nil_append, and_self]

/-- A field of a structure in memory. -/
theorem bytesAt_image (s : EepromDataStruct) (address : Nat) {k : Nat} (before after : List INT8U)
    (field : Vector INT8U k) (split : s.bytes = before ++ (field.toList ++ after))
    (place : before.length = address) : bytesAt s.image address k = field := by
  subst place
  apply Vector.ext
  intro i inside
  have stored := store_field (fun _ => 0) 0 s.bytes before after field split i inside
  rw [Nat.zero_add] at stored
  rw [bytesAt, Vector.getElem_ofFn]
  exact stored

/-- A structure is read back from its image. -/
theorem EepromDataStruct.ofMemory_image (s : EepromDataStruct) : ofMemory s.image = s := by
  obtain ⟨ip, sub, gw, mac, uart, password⟩ := s.bytes_split
  have ips := bytesAt_image s ipAt _ _ _ ip rfl
  have subs := bytesAt_image s subAt _ _ _ sub (by simp [subAt])
  have gws := bytesAt_image s gwAt _ _ _ gw (by simp [gwAt])
  have macs := bytesAt_image s macAt _ _ _ mac (by simp [macAt])
  have uarts := bytesAt_image s uartConfigAt _ _ _ uart (by simp [uartConfigAt])
  have passwords := bytesAt_image s passwordAt _ _ _ password (by simp [passwordAt])
  simp only [ofMemory, ips, subs, gws, macs, uarts, passwords]

/-! ### The edit fields -/

/-- `sprintf` with `%03d` or `%02d` and `EDIT_SetText`, for each byte of a field. -/
def editTexts {n : Nat} (width : Nat) (field : Vector INT8U n) : List Text :=
  field.toList.map fun byte => paddedText width byte.toNat

/-- The texts that `_InitSetAddrDialog` puts into the edit fields. -/
def initSetAddrDialog (optionSaveStruct : EepromDataStruct) (id : Nat) : Text :=
  let ipConfig := optionSaveStruct.ipConfig
  (editTexts 3 ipConfig.ip ++ editTexts 3 ipConfig.sub ++ editTexts 3 ipConfig.gw ++
    editTexts 2 ipConfig.mac).getD id []

/-- `EDIT_GetText`: at most `maxLen` characters. -/
def editGetText (text : Text) (maxLen : Nat) : Text := (cString text).take maxLen

/-- `_checkBitIP`; the text is followed by a NUL, and no byte behind that is looked at. -/
def checkBitIP (s : Text) : Bool :=
  let char := fun i => s.getD i 0
  if char 0 = 0x32 then
    if 0x35 < char 1 then false
    else if char 1 = 0x35 ∧ 0x35 < char 2 then false
    else true
  else if 0x32 < char 0 then false
  else true

/-- `EDIT_GetText` of field `id` and `sscanf` with `%d` to `address`. -/
def scanEdit (edits : Nat → Text) (maxLen : Nat) (m : Memory) (id address : Nat) : Memory :=
  (scanFields [some address] (editGetText (edits id) maxLen) m).1

/-- One such statement after the other, each given by its field and its address. -/
def scanEdits (edits : Nat → Text) (maxLen : Nat) (m : Memory) (scans : List (Nat × Nat)) : Memory :=
  scans.foldl (fun m scan => scanEdit edits maxLen m scan.1 scan.2) m

def addressScans : List (Nat × Nat) :=
  [(0, ipAt + 0), (1, ipAt + 1), (2, ipAt + 2), (3, ipAt + 3),
    (4, subAt + 0), (5, subAt + 1), (6, subAt + 2), (7, subAt + 3),
    (8, gwAt + 0), (9, gwAt + 1), (10, gwAt + 2), (11, gwAt + 3)]

def macScans : List (Nat × Nat) :=
  [(12, macAt + 0), (13, macAt + 1), (14, macAt + 2),
    (15, macAt + 3), (16, macAt + 4), (17, macAt + 5)]

/-- The twelve checks of `_checkUserInputIP`. -/
def inputInRange (edits : Nat → Text) : Bool :=
  (List.range 12).all fun id => checkBitIP (editGetText (edits id) 3)

/-- `_checkUserInputIP`, which also scans the fields it does not check. -/
def checkUserInputIP (edits : Nat → Text) (m : Memory) : Memory × Bool :=
  if inputInRange edits then (scanEdits edits 2 m macScans, true) else (m, false)

/-- `_getUserInputIP`. -/
def getUserInputIP (edits : Nat → Text) (m : Memory) : Memory :=
  scanEdits edits 2 (scanEdits edits 3 m addressScans) macScans

/-- OK is pressed: `optionSaveStruct` afterwards, and whether it is saved. -/
def cbSetAddrOk (edits : Nat → Text) (optionSaveStruct : EepromDataStruct) :
    EepromDataStruct × Bool :=
  let checked := checkUserInputIP edits optionSaveStruct.image
  if checked.2 then (EepromDataStruct.ofMemory (getUserInputIP edits checked.1), true)
  else (EepromDataStruct.ofMemory checked.1, false)

/-! ### What the scans store -/

/-- The number in a field, as `sscanf` stores it. -/
def typedNumber (edits : Nat → Text) (maxLen id : Nat) : Option INT32U :=
  (scanInt (editGetText (edits id) maxLen)).map fun scanned => BitVec.ofInt 32 scanned.1

theorem scanEdit_eq (edits : Nat → Text) (maxLen : Nat) (m : Memory) (id address : Nat) :
    scanEdit edits maxLen m id address =
      match typedNumber edits maxLen id with
      | none => m
      | some value => store32 m address value := by
  unfold scanEdit typedNumber
  rw [scanFields]
  cases scanInt (editGetText (edits id) maxLen) <;> rfl

/-- A scan stores nothing outside its four bytes. -/
theorem scanEdit_outside (edits : Nat → Text) (maxLen : Nat) (m : Memory) (id address a : Nat)
    (outside : a < address ∨ address + 4 ≤ a) : scanEdit edits maxLen m id address a = m a := by
  rw [scanEdit_eq]
  split
  · rfl
  · exact store32_outside m address a _ outside

theorem scanEdit_inside (edits : Nat → Text) (maxLen : Nat) (m : Memory) (id address k : Nat)
    (inside : k < 4) :
    scanEdit edits maxLen m id address (address + k) =
      ((typedNumber edits maxLen id).map (byteOf · k)).getD (m (address + k)) := by
  rw [scanEdit_eq]
  split
  next unmatched => rw [unmatched]; rfl
  next value found => rw [found]; exact store32_inside m address k value inside

theorem scanEdits_outside (edits : Nat → Text) (maxLen : Nat) (scans : List (Nat × Nat)) (m : Memory)
    (a : Nat) (outside : ∀ scan ∈ scans, a < scan.2 ∨ scan.2 + 4 ≤ a) :
    scanEdits edits maxLen m scans a = m a := by
  induction scans generalizing m with
  | nil => rfl
  | cons scan rest ih =>
    have here := scanEdit_outside edits maxLen m scan.1 scan.2 a (outside scan List.mem_cons_self)
    have later := ih (scanEdit edits maxLen m scan.1 scan.2)
      fun next member => outside next (List.mem_cons_of_mem scan member)
    exact later.trans here

/-- Scans to consecutive bytes: each one repairs what the one before has spilled on its
byte, so that every byte holds the low byte of its own number. -/
theorem scanEdits_consecutive (edits : Nat → Text) (maxLen : Nat) (value : Nat → INT32U)
    (first n : Nat) (m : Memory) (k : Nat) (inside : first ≤ k ∧ k < first + n)
    (typed : typedNumber edits maxLen k = some (value k)) :
    scanEdits edits maxLen m ((List.range' first n).map fun id => (id, id)) k = byteOf (value k) 0 := by
  induction n generalizing first m with
  | zero => omega
  | succ n ih =>
    have split : scanEdits edits maxLen m ((List.range' first (n + 1)).map fun id => (id, id)) =
        scanEdits edits maxLen (scanEdit edits maxLen m first first)
          ((List.range' (first + 1) n).map fun id => (id, id)) := rfl
    rw [split]
    by_cases here : k = first
    · subst here
      have behind : ∀ scan ∈ (List.range' (k + 1) n).map fun id => (id, id),
          k < scan.2 ∨ scan.2 + 4 ≤ k := by
        intro scan member
        obtain ⟨id, later, rfl⟩ := List.mem_map.mp member
        exact Or.inl (List.mem_range'_1.mp later).1
      have stored := scanEdit_inside edits maxLen m k k 0 (by decide)
      rw [Nat.add_zero, typed] at stored
      rw [scanEdits_outside edits maxLen _ _ k behind, stored]
      rfl
    · exact ih (first + 1) _ (by omega)

end GasSub.Source
