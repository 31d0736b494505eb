import GasSub.Source.UserSetAddr

/-!
# OK without an edit

The IP dialog shows the settings as text and reads them back. The twelve address bytes
are printed in three digits and read from three characters; a MAC byte is printed in
as many digits as it has, at least two, and read from two characters.
-/
namespace GasSub.Guarantees.UneditedDialog
open GasSub.Library.ByteMemory GasSub.Library.ByteWord GasSub.Library.Decimal GasSub.Source

/-- OK right after opening: the input is accepted and the IP settings stay. -/
structure Identity (optionSaveStruct : EepromDataStruct) : Prop where
  accepted :
    (checkUserInputIP (initSetAddrDialog optionSaveStruct) optionSaveStruct.image).2 = true
  unchanged :
    (cbSetAddrOk (initSetAddrDialog optionSaveStruct) optionSaveStruct).1.ipConfig =
      optionSaveStruct.ipConfig

/-! ### Text and number of a byte -/

theorem cString_paddedText (width n : Nat) : cString (paddedText width n) = paddedText width n := by
  apply cString_of_nulFree
  intro nul
  exact absurd (isDigit_of_mem_paddedText nul) (by decide)

/-- Three characters are enough for a byte that is printed in three digits. -/
theorem editGetText_three (byte : INT8U) :
    editGetText (paddedText 3 byte.toNat) 3 = paddedText 3 byte.toNat := by
  have length : (paddedText 3 byte.toNat).length = 3 := length_paddedText (by decide) (by omega)
  rw [editGetText, cString_paddedText, List.take_of_length_le (Nat.le_of_eq length)]

/-- From two characters a byte loses its third digit. -/
theorem editGetText_two (byte : INT8U) :
    editGetText (paddedText 2 byte.toNat) 2 =
      if byte.toNat < 100 then paddedText 2 byte.toNat else natText (byte.toNat / 10) := by
  rw [editGetText, cString_paddedText]
  split
  · case isTrue small =>
    exact List.take_of_length_le (Nat.le_of_eq (length_paddedText (by decide) small))
  · case isFalse large =>
    have last := natText_of_ten_le (show 10 ≤ byte.toNat by omega)
    have front : (natText (byte.toNat / 10)).length = 2 := by
      rw [natText_of_ten_le (show 10 ≤ byte.toNat / 10 by omega), List.length_append,
        length_natText_digit (show byte.toNat / 10 / 10 < 10 by omega)]
      rfl
    have bare : paddedText 2 byte.toNat = natText byte.toNat := by
      rw [paddedText, last, List.length_append, front]
      rfl
    rw [bare, last, List.take_append_of_le_length (Nat.le_of_eq front.symm),
      List.take_of_length_le (Nat.le_of_eq front)]

theorem scanInt_all {digits : Text} {n : Nat} (scanned : scanInt (digits ++ []) = some ((n : Int), [])) :
    (scanInt digits).map (fun scanned => BitVec.ofInt 32 scanned.1) = some (BitVec.ofNat 32 n) := by
  rw [List.append_nil] at scanned
  rw [scanned, Option.map_some, BitVec.ofInt_natCast]

/-! ### The fields -/

/-- The number that is read back from field `id` when it shows `byte`. -/
def readBack (id : Nat) (byte : INT8U) : Nat :=
  if 12 ≤ id ∧ 100 ≤ byte.toNat then byte.toNat / 10 else byte.toNat

variable (s : EepromDataStruct)

/-- Field `id` shows byte `id` of the structure. -/
theorem initSetAddrDialog_eq {id : Nat} (inside : id < 18) :
    initSetAddrDialog s id =
      paddedText (if id < 12 then 3 else 2) (s.bytes.getD id 0).toNat := by
  simp only [initSetAddrDialog, editTexts, EepromDataStruct.bytes, ← List.map_append]
  generalize addresses : s.ipConfig.ip.toList ++ s.ipConfig.sub.toList ++ s.ipConfig.gw.toList = front
  have length : front.length = 12 := by simp [← addresses]
  simp only [List.getD_eq_getElem?_getD]
  split
  · case isTrue address =>
    rw [List.getElem?_append_left (by simp; omega), List.append_assoc, List.append_assoc,
      List.getElem?_append_left (by omega), List.getElem?_map, List.getElem?_eq_getElem (by omega)]
    rfl
  · case isFalse mac =>
    have macLength : id - 12 < s.ipConfig.mac.toList.length := by simp; omega
    rw [List.getElem?_append_right (by simp; omega), List.append_assoc, List.append_assoc,
      List.getElem?_append_right (by omega), List.length_map, length, List.getElem?_map,
      List.getElem?_append_left macLength, List.getElem?_eq_getElem macLength]
    rfl

theorem image_eq (k : Nat) : s.image k = s.bytes.getD k 0 := by
  simp [EepromDataStruct.image, store]

/-- The number typed into field `id`, as far as it is read. -/
theorem typedNumber_eq {id : Nat} (inside : id < 18) :
    typedNumber (initSetAddrDialog s) (if id < 12 then 3 else 2) id =
      some (BitVec.ofNat 32 (readBack id (s.bytes.getD id 0))) := by
  have stops : Stops [] := by
    intro b none'
    cases none'
  unfold typedNumber readBack
  rw [initSetAddrDialog_eq s inside]
  generalize s.bytes.getD id 0 = byte
  by_cases address : id < 12
  · rw [if_pos address, if_neg (by omega), editGetText_three]
    exact scanInt_all (scanInt_paddedText 3 byte.toNat stops)
  · rw [if_neg address, editGetText_two]
    by_cases small : byte.toNat < 100
    · rw [if_pos small, if_neg (by omega)]
      exact scanInt_all (scanInt_paddedText 2 byte.toNat stops)
    · rw [if_neg small, if_pos (by omega)]
      exact scanInt_all (scanInt_natText (byte.toNat / 10) stops)

/-- Each byte of the IP settings is replaced by what is read back from its field. -/
theorem accepted_bytes {k : Nat} (inside : k < 18) (m : Memory) :
    getUserInputIP (initSetAddrDialog s) m k =
      BitVec.ofNat 8 (readBack k (s.bytes.getD k 0)) := by
  have addresses : addressScans = (List.range' 0 12).map fun id => (id, id) := rfl
  have macs : macScans = (List.range' 12 6).map fun id => (id, id) := rfl
  have low : ∀ n : Nat, byteOf (BitVec.ofNat 32 n) 0 = BitVec.ofNat 8 n := by
    intro n
    simp [byteOf]
  have typed := typedNumber_eq s inside
  rw [getUserInputIP]
  by_cases address : k < 12
  · have behind : ∀ scan ∈ macScans, k < scan.2 ∨ scan.2 + 4 ≤ k := by
      intro scan member
      rw [macs] at member
      obtain ⟨id, later, rfl⟩ := List.mem_map.mp member
      exact Or.inl (Nat.lt_of_lt_of_le address (List.mem_range'_1.mp later).1)
    rw [if_pos address] at typed
    rw [scanEdits_outside _ _ _ _ k behind, addresses,
      scanEdits_consecutive _ 3 (fun id => BitVec.ofNat 32 (readBack id (s.bytes.getD id 0))) 0 12 m k
        (by omega) typed, low]
  · rw [if_neg address] at typed
    rw [macs,
      scanEdits_consecutive _ 2 (fun id => BitVec.ofNat 32 (readBack id (s.bytes.getD id 0))) 12 6 _ k
        (by omega) typed, low]

/-- A byte in three digits is at most 255. -/
theorem checkBitIP_three : ∀ byte : INT8U, checkBitIP (paddedText 3 byte.toNat) = true := by
  decide +kernel

theorem unedited_inRange : inputInRange (initSetAddrDialog s) = true := by
  unfold inputInRange
  rw [List.all_eq_true]
  intro id member
  have address := List.mem_range.mp member
  rw [initSetAddrDialog_eq s (by omega), if_pos address, editGetText_three]
  exact checkBitIP_three _

theorem bytesAt_congr_iff (m m' : Memory) (address n : Nat) :
    bytesAt m address n = bytesAt m' address n ↔ ∀ k < n, m (address + k) = m' (address + k) := by
  rw [bytesAt_eq_iff]
  have read : ∀ k : Fin n, (bytesAt m' address n).get k = m' (address + k.val) := by
    intro k
    exact (bytesAt_eq_iff.mp rfl k).symm
  simp only [read]
  exact ⟨fun same k inside => same ⟨k, inside⟩, fun same k => same k.val k.isLt⟩

/-- The IP settings of two memories agree when their first eighteen bytes do. -/
theorem ipConfig_eq_iff (m m' : Memory) :
    (EepromDataStruct.ofMemory m).ipConfig = (EepromDataStruct.ofMemory m').ipConfig ↔
      ∀ k < 18, m k = m' k := by
  simp only [EepromDataStruct.ofMemory, IpConfigStruct.mk.injEq, bytesAt_congr_iff, ipAt, subAt,
    gwAt, macAt]
  constructor
  · rintro ⟨ip, sub, gw, mac⟩ k inside
    have place : k = 0 + k ∧ k < 4 ∨ (∃ i, k = 4 + i ∧ i < 4) ∨ (∃ i, k = 8 + i ∧ i < 4) ∨
        ∃ i, k = 12 + i ∧ i < 6 := by
      by_cases first : k < 4
      · exact Or.inl ⟨by omega, first⟩
      · by_cases second : k < 8
        · exact Or.inr (Or.inl ⟨k - 4, by omega, by omega⟩)
        · by_cases third : k < 12
          · exact Or.inr (Or.inr (Or.inl ⟨k - 8, by omega, by omega⟩))
          · exact Or.inr (Or.inr (Or.inr ⟨k - 12, by omega, by omega⟩))
    rcases place with ⟨same, first⟩ | ⟨i, rfl, second⟩ | ⟨i, rfl, third⟩ | ⟨i, rfl, fourth⟩
    · rw [same]
      exact ip k first
    · exact sub i second
    · exact gw i third
    · exact mac i fourth
  · intro same
    exact ⟨fun k _ => same _ (by omega), fun k _ => same _ (by omega), fun k _ => same _ (by omega),
      fun k _ => same _ (by omega)⟩

/-- What is read back is what was shown, but for a MAC byte of three digits. -/
theorem readBack_eq_iff (id : Nat) (byte : INT8U) :
    BitVec.ofNat 8 (readBack id byte) = byte ↔ ¬ (12 ≤ id ∧ 100 ≤ byte.toNat) := by
  unfold readBack
  rw [← BitVec.toNat_inj, BitVec.toNat_ofNat]
  have small := byte.isLt
  split <;> omega

theorem macByte_eq (k : Fin 6) : s.bytes.getD (12 + k.val) 0 = s.ipConfig.mac.get k := by
  obtain ⟨-, -, -, split, -⟩ := s.bytes_split
  have stored := bytesAt_image s macAt _ _ _ split (by simp [macAt])
  rw [← image_eq]
  exact bytesAt_eq_iff.mp stored k

/-- The input is accepted, so what counts is what the memory holds then. -/
theorem identity_iff : Identity s ↔
    (EepromDataStruct.ofMemory (getUserInputIP (initSetAddrDialog s)
      (scanEdits (initSetAddrDialog s) 2 s.image macScans))).ipConfig =
      (EepromDataStruct.ofMemory s.image).ipConfig := by
  have range := unedited_inRange s
  have accepted : (checkUserInputIP (initSetAddrDialog s) s.image).2 = true := by
    rw [checkUserInputIP, if_pos range]
  have result : (cbSetAddrOk (initSetAddrDialog s) s).1 =
      EepromDataStruct.ofMemory (getUserInputIP (initSetAddrDialog s)
        (scanEdits (initSetAddrDialog s) 2 s.image macScans)) := by
    simp only [cbSetAddrOk, checkUserInputIP, range, if_true]
  rw [EepromDataStruct.ofMemory_image, ← result]
  exact ⟨fun identity => identity.unchanged, fun same => ⟨accepted, same⟩⟩

/-- OK without an edit keeps the IP settings exactly when every MAC byte is below 100. -/
theorem unedited_iff :
    Identity s ↔ ∀ k : Fin 6, (s.ipConfig.mac.get k).toNat < 100 := by
  have bytes : ∀ k, k < 18 → (getUserInputIP (initSetAddrDialog s)
      (scanEdits (initSetAddrDialog s) 2 s.image macScans) k = s.image k ↔
        ¬ (12 ≤ k ∧ 100 ≤ (s.bytes.getD k 0).toNat)) := by
    intro k inside
    rw [accepted_bytes s inside, image_eq, readBack_eq_iff]
  rw [identity_iff, ipConfig_eq_iff]
  constructor
  · intro same k
    have kept := (bytes (12 + k.val) (by omega)).mp (same _ (by omega))
    rw [macByte_eq s k] at kept
    omega
  · intro low k inside
    rw [bytes k inside]
    rintro ⟨behind, large⟩
    obtain ⟨i, rfl⟩ := Nat.exists_eq_add_of_le behind
    have small := low ⟨i, by omega⟩
    have shown := macByte_eq s ⟨i, by omega⟩
    simp only at shown
    rw [shown] at large
    omega

/-- A MAC byte 255 comes back as 25. -/
theorem unedited_lost :
    ¬ Identity
      { ipConfig :=
          ⟨Vector.replicate 4 0, Vector.replicate 4 0, Vector.replicate 4 0, Vector.replicate 6 255⟩
        uartConfig := Vector.replicate 6 0
        password := Vector.replicate 6 0 } := by
  intro identity
  exact absurd identity.unchanged (by decide)

end GasSub.Guarantees.UneditedDialog
