import GasSub.Source.UserSetAddr

/-!
# What the IP dialog changes

The scans of the dialog store four bytes each into fields of one byte, in the order
of the addresses, so that each store repairs the one before. The stores to `mac[3]`,
`mac[4]` and `mac[5]` reach into `uartConfig`, and nothing repairs that.
-/
namespace GasSub.Guarantees.AddressDialog
open GasSub.Library.ByteMemory GasSub.Library.ByteWord GasSub.Library.Decimal GasSub.Source

/-- Pressing OK leaves everything but the IP settings alone, and everything if the
input is refused. -/
structure OnlyIpSettings (edits : Nat → Text) (optionSaveStruct : EepromDataStruct) : Prop where
  uartConfig : (cbSetAddrOk edits optionSaveStruct).1.uartConfig = optionSaveStruct.uartConfig
  password : (cbSetAddrOk edits optionSaveStruct).1.password = optionSaveStruct.password
  refused : (checkUserInputIP edits optionSaveStruct.image).2 = false →
    (cbSetAddrOk edits optionSaveStruct).1 = optionSaveStruct

/-- The byte that the scans of the MAC fields leave `k` places behind `mac`: the last
store that reaches it wins, and a field without a number stores nothing. -/
def spilled (edits : Nat → Text) : Nat → Option INT8U
  | 0 => ((typedNumber edits 2 17).map (byteOf · 1)).or
      (((typedNumber edits 2 16).map (byteOf · 2)).or ((typedNumber edits 2 15).map (byteOf · 3)))
  | 1 => ((typedNumber edits 2 17).map (byteOf · 2)).or ((typedNumber edits 2 16).map (byteOf · 3))
  | 2 => (typedNumber edits 2 17).map (byteOf · 3)
  | _ => none

/-- Behind `mac` the MAC scans leave what they spill. -/
theorem macScans_behind (edits : Nat → Text) (m : Memory) (k : Nat) :
    scanEdits edits 2 m macScans (18 + k) = (spilled edits k).getD (m (18 + k)) := by
  let start := scanEdits edits 2 m [(12, 12), (13, 13), (14, 14)]
  let third := scanEdit edits 2 start 15 15
  let fourth := scanEdit edits 2 third 16 16
  have whole : scanEdits edits 2 m macScans = scanEdit edits 2 fourth 17 17 := rfl
  have before : ∀ a, 18 ≤ a → start a = m a := fun a behind =>
    scanEdits_outside edits 2 _ m a (by simp; omega)
  have inside15 : ∀ k < 4, third (15 + k) = _ := scanEdit_inside edits 2 start 15 15
  have inside16 : ∀ k < 4, fourth (16 + k) = _ := scanEdit_inside edits 2 third 16 16
  have inside17 := scanEdit_inside edits 2 fourth 17 17
  have outside15 : ∀ a, 19 ≤ a → third a = start a := fun a far =>
    scanEdit_outside edits 2 start 15 15 a (Or.inr far)
  have outside16 : ∀ a, 20 ≤ a → fourth a = third a := fun a far =>
    scanEdit_outside edits 2 third 16 16 a (Or.inr far)
  rw [whole]
  rcases k with _ | _ | _ | k
  · have third_18 := inside15 3 (by decide)
    have fourth_18 := inside16 2 (by decide)
    rw [before 18 (by decide)] at third_18
    rw [third_18] at fourth_18
    rw [inside17 1 (by decide), fourth_18, spilled, Option.getD_or, Option.getD_or]
  · have fourth_19 := inside16 3 (by decide)
    rw [outside15 19 (by decide), before 19 (by decide)] at fourth_19
    rw [inside17 2 (by decide), fourth_19, spilled, Option.getD_or]
  · rw [inside17 3 (by decide), outside16 20 (by decide), outside15 20 (by decide),
      before 20 (by decide), spilled]
  · have nothing : spilled edits (k + 1 + 1 + 1) = none := rfl
    rw [scanEdit_outside edits 2 fourth 17 17 _ (by omega), outside16 _ (by omega),
      outside15 _ (by omega), before _ (by omega), nothing, Option.getD_none]

/-- Both passes over the MAC fields leave the same behind `mac`. -/
theorem accepted_behind (edits : Nat → Text) (m : Memory) (k : Nat) :
    getUserInputIP edits (scanEdits edits 2 m macScans) (18 + k) =
      (spilled edits k).getD (m (18 + k)) := by
  have addresses : scanEdits edits 3 (scanEdits edits 2 m macScans) addressScans (18 + k) =
      scanEdits edits 2 m macScans (18 + k) :=
    scanEdits_outside edits 3 _ _ (18 + k) (by simp [addressScans, ipAt, subAt, gwAt]; omega)
  rw [getUserInputIP, macScans_behind, addresses, macScans_behind]
  cases spilled edits k <;> rfl

/-- A refused input changes nothing. -/
theorem refused_unchanged (edits : Nat → Text) (optionSaveStruct : EepromDataStruct)
    (refused : inputInRange edits = false) :
    cbSetAddrOk edits optionSaveStruct = (optionSaveStruct, false) := by
  simp only [cbSetAddrOk, checkUserInputIP, refused, Bool.false_eq_true, if_false,
    EepromDataStruct.ofMemory_image]

/-- An accepted input: behind `mac`, each byte is what is spilled on it or what it was. -/
theorem accepted_unchanged_iff (edits : Nat → Text) (optionSaveStruct : EepromDataStruct)
    (accepted : inputInRange edits = true) :
    ((cbSetAddrOk edits optionSaveStruct).1.uartConfig = optionSaveStruct.uartConfig ∧
        (cbSetAddrOk edits optionSaveStruct).1.password = optionSaveStruct.password) ↔
      ∀ (k : Fin 6) (byte : INT8U), spilled edits k.val = some byte →
        optionSaveStruct.uartConfig.get k = byte := by
  let image := optionSaveStruct.image
  have memory : (cbSetAddrOk edits optionSaveStruct).1 =
      EepromDataStruct.ofMemory (getUserInputIP edits (scanEdits edits 2 image macScans)) := by
    simp only [cbSetAddrOk, checkUserInputIP, accepted, if_true, image]
  obtain ⟨-, -, -, -, uart, password⟩ := optionSaveStruct.bytes_split
  have uarts : ∀ k : Fin 6, image (18 + k.val) = optionSaveStruct.uartConfig.get k :=
    bytesAt_eq_iff.mp (bytesAt_image optionSaveStruct uartConfigAt _ _ _ uart (by simp [uartConfigAt]))
  have passwords : ∀ k : Fin 6, image (18 + (6 + k.val)) = optionSaveStruct.password.get k := by
    intro k
    rw [← Nat.add_assoc]
    exact bytesAt_eq_iff.mp
      (bytesAt_image optionSaveStruct passwordAt _ _ _ password (by simp [passwordAt])) k
  rw [memory]
  simp only [EepromDataStruct.ofMemory, bytesAt_eq_iff]
  constructor
  · intro same k byte found
    have now := accepted_behind edits image k.val
    rw [found, Option.getD_some] at now
    exact (same.1 k).symm.trans now
  · intro same
    constructor
    · intro k
      have now := accepted_behind edits image k.val
      rw [uarts k] at now
      refine now.trans ?_
      cases found : spilled edits k.val with
      | none => rfl
      | some byte => exact (same k byte found).symm
    · intro k
      have now := accepted_behind edits image (6 + k.val)
      have nothing : spilled edits (6 + k.val) = none := by
        rw [Nat.add_comm]
        rfl
      rw [nothing, passwords k, ← Nat.add_assoc] at now
      exact now

/-- The dialog keeps to the IP settings exactly when the input is refused, or what the
MAC fields spill on `uartConfig` is there already. -/
theorem onlyIpSettings_iff (edits : Nat → Text) (optionSaveStruct : EepromDataStruct) :
    OnlyIpSettings edits optionSaveStruct ↔
      inputInRange edits = false ∨
        ∀ (k : Fin 6) (byte : INT8U), spilled edits k.val = some byte →
          optionSaveStruct.uartConfig.get k = byte := by
  cases verdict : inputInRange edits with
  | false =>
    have same := refused_unchanged edits optionSaveStruct verdict
    refine ⟨fun _ => Or.inl rfl, fun _ => ?_⟩
    exact ⟨by rw [same], by rw [same], fun _ => by rw [same]⟩
  | true =>
    have passed : (checkUserInputIP edits optionSaveStruct.image).2 = true := by
      rw [checkUserInputIP, if_pos verdict]
    have fields := accepted_unchanged_iff edits optionSaveStruct verdict
    constructor
    · intro only
      exact Or.inr (fields.mp ⟨only.uartConfig, only.password⟩)
    · intro either
      obtain ⟨uart, password⟩ := fields.mpr (either.resolve_left Bool.noConfusion)
      exact ⟨uart, password, fun refused => by rw [passed] at refused; cases refused⟩

/-- Zeros in all fields, and a first RS485 line configured. -/
theorem onlyIpSettings_lost :
    let optionSaveStruct : EepromDataStruct :=
      { ipConfig :=
          ⟨Vector.replicate 4 0, Vector.replicate 4 0, Vector.replicate 4 0, Vector.replicate 6 0⟩
        uartConfig := Vector.replicate 6 1
        password := Vector.replicate 6 0 }
    ¬ OnlyIpSettings (fun _ => ascii "0") optionSaveStruct := by
  intro optionSaveStruct only
  have accepted : inputInRange (fun _ => ascii "0") = true := by decide
  have same := (accepted_unchanged_iff _ optionSaveStruct accepted).mp ⟨only.uartConfig, only.password⟩
  exact absurd (same 0 0 (by decide)) (by decide)

end GasSub.Guarantees.AddressDialog
