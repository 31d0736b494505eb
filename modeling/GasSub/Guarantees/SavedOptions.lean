import GasSub.Source.Eeprom

/-!
# What the EEPROM keeps

The options lie at 20 to 3D and the calibration at 40 to BF, each as one run of
bytes that the page writes fill without a gap. The options come back as they were
written, whatever was written to the calibration since, and a save that fails leaves
the bytes it has stored so far. The calibration does not come back: the slopes are
never sent, and of an intercept only bits 10 to 15 survive.
-/
namespace GasSub.Guarantees.SavedOptions
open GasSub.Library.ByteMemory GasSub.Source

/-! ### One call -/

/-- Either kind of save. -/
inductive SaveCall where
  | writeStruct (transfers : Nat → I2cTransfer) (savestruct : EepromDataStruct)
  | writeRati (transfers : Nat → I2cTransfer) (savestruct : CorrectInput)

/-- The EEPROM after the call, and what the call returns. -/
def SaveCall.run (m : Memory) : SaveCall → Memory × Bool
  | .writeStruct transfers savestruct => eepromWriteStruct m transfers savestruct
  | .writeRati transfers savestruct => eepromWriteRati m transfers savestruct

theorem writeStruct_stored (m : Memory) (transfers : Nat → I2cTransfer)
    (savestruct : EepromDataStruct) (done : (eepromWriteStruct m transfers savestruct).2 = true) :
    (eepromWriteStruct m transfers savestruct).1 = store m 0x20 (packStruct savestruct) := by
  rw [← structPages_bytes]
  exact writePages_consecutive m transfers 0x20 _ (structPages_consecutive savestruct) done

/-- The two blocks of equal bytes that `EEPROM_WriteRati` sends. -/
def ratiBytes (savestruct : CorrectInput) : List INT8U :=
  (ratiPages savestruct.intercept ratiAddress ++
    ratiPages savestruct.intercept (ratiAddress + 0x40)).flatMap PageWrite.bytes

theorem writeRati_stored (m : Memory) (transfers : Nat → I2cTransfer) (savestruct : CorrectInput)
    (done : (eepromWriteRati m transfers savestruct).2 = true) :
    (eepromWriteRati m transfers savestruct).1 = store m 0x40 (ratiBytes savestruct) :=
  writePages_consecutive m transfers 0x40 _ (rati_consecutive savestruct.intercept) done

/-- Reading the options looks at nothing from the calibration on. -/
theorem readStruct_congr {m m' : Memory} (same : ∀ a < 0x40, m a = m' a) (success : Bool) :
    eepromReadStruct m success = eepromReadStruct m' success := by
  have bytes : eepromReadData m success 30 dataAddress = eepromReadData m' success 30 dataAddress := by
    unfold eepromReadData
    congr 3
    funext i
    have inside := i.isLt
    have base : dataAddress.toNat = 0x20 := rfl
    exact same _ (by omega)
  rw [eepromReadStruct, bytes, eepromReadStruct]

/-! ### The options -/

/-- The options a call hands over. -/
def SaveCall.options : SaveCall → Option EepromDataStruct
  | .writeStruct _ savestruct => some savestruct
  | .writeRati _ _ => none

/-- The EEPROM after calls that all return `TRUE`. -/
def runSaves (m : Memory) (calls : List SaveCall) : Option Memory :=
  calls.foldlM (fun m call => if (call.run m).2 then some (call.run m).1 else none) m

/-- One successful call: options handed over are read back, else they stay. -/
theorem readStruct_run (m : Memory) (call : SaveCall) (done : (call.run m).2 = true) :
    eepromReadStruct (call.run m).1 true = call.options.or (eepromReadStruct m true) := by
  cases call with
  | writeStruct transfers savestruct =>
    rw [SaveCall.run, writeStruct_stored m transfers savestruct done, readStruct_packed]
    rfl
  | writeRati transfers savestruct =>
    rw [SaveCall.run, writeRati_stored m transfers savestruct done]
    exact readStruct_congr (fun a below => store_outside m 0x40 a _ (Or.inl below)) true

/-- The options read after a run: the last ones handed over, else the first ones. -/
theorem readStruct_runSaves {m m' : Memory} {calls : List SaveCall}
    (saved : runSaves m calls = some m') :
    eepromReadStruct m' true =
      (calls.filterMap SaveCall.options).getLast?.or (eepromReadStruct m true) := by
  induction calls generalizing m with
  | nil =>
    obtain rfl : m = m' := Option.some.inj saved
    rfl
  | cons call rest ih =>
    by_cases done : (call.run m).2 = true
    · simp only [runSaves, List.foldlM_cons, done, if_true, Option.bind_eq_bind,
        Option.bind_some] at saved
      rw [ih saved, readStruct_run m call done]
      cases handed : call.options with
      | none => rw [List.filterMap_cons_none handed, Option.none_or]
      | some savestruct =>
        rw [List.filterMap_cons_some handed, List.getLast?_cons]
        cases (rest.filterMap SaveCall.options).getLast? <;> rfl
    · simp [runSaves, done] at saved

/-- After any successful calls, in any order, `EEPROM_ReadStruct` returns the
argument of the last `EEPROM_WriteStruct`. -/
theorem options_persist (m m' : Memory) (calls : List SaveCall) (last : EepromDataStruct)
    (saved : runSaves m calls = some m')
    (latest : (calls.filterMap SaveCall.options).getLast? = some last) :
    eepromReadStruct m' true = some last := by
  rw [readStruct_runSaves saved, latest]
  rfl

/-- Two saves of the options with one of the calibration behind each. -/
theorem options_persist_twice :
    let options (b : INT8U) : EepromDataStruct :=
      { ipConfig :=
          { ip := Vector.replicate 4 b
            sub := Vector.replicate 4 (b + 1)
            gw := Vector.replicate 4 (b + 2)
            mac := Vector.replicate 6 (b + 3) }
        uartConfig := Vector.replicate 6 (b + 4)
        password := Vector.replicate 6 (b + 5) }
    let rati := SaveCall.writeRati (fun _ => .success) ⟨Vector.replicate 16 7, Vector.replicate 16 9⟩
    let calls : List SaveCall :=
      [.writeStruct (fun _ => .success) (options 1), rati,
        .writeStruct (fun _ => .success) (options 50), rati]
    (runSaves (fun _ => 0xFF) calls).bind (eepromReadStruct · true) = some (options 50) := by
  intro options rati calls
  obtain ⟨m, saved⟩ : ∃ m, runSaves (fun _ => 0xFF) calls = some m := ⟨_, rfl⟩
  rw [saved, Option.bind_some]
  exact options_persist _ m calls (options 50) saved rfl

/-! ### A save of the options that fails -/

/-- The bytes that are in the EEPROM when the first transfer fails, or all of them. -/
def bytesStored (transfers : Nat → I2cTransfer) : List PageWrite → Nat
  | [] => 0
  | write :: rest =>
    match transfers 0 with
    | .success => write.bytes.length + bytesStored (fun i => transfers (i + 1)) rest
    | .error stored => min stored write.bytes.length

/-- Consecutive page writes store the bytes in front of the failure and no others. -/
theorem writePages_stored (m : Memory) (transfers : Nat → I2cTransfer) (base : Nat)
    (writes : List PageWrite) (consecutive : Consecutive base writes) :
    (writePages m transfers writes).1 =
      store m base ((writes.flatMap PageWrite.bytes).take (bytesStored transfers writes)) := by
  induction writes generalizing m transfers base with
  | nil => exact (store_nil m base).symm
  | cons write rest ih =>
    obtain ⟨address, inside, later⟩ := consecutive
    have place : base / 8 * 8 + base % 8 = base := Nat.div_add_mod' base 8
    cases transfer : transfers 0 with
    | error stored =>
      have short : (write.bytes.take stored).length ≤ write.bytes.length := List.length_take_le' _ _
      simp only [writePages, eepromWriteDataOnePage, bytesStored, transfer, address]
      rw [programPage_inside m _ _ _ (by omega), place, List.flatMap_cons,
        List.take_append_of_le_length (Nat.min_le_right _ _), ← List.take_eq_take_min]
    | success =>
      simp only [writePages, eepromWriteDataOnePage, bytesStored, transfer, address]
      rw [ih _ _ _ later, programPage_inside m _ _ _ inside, place, List.flatMap_cons,
        List.take_length_add_append, store_append]

/-- `FALSE` comes from the first transfer that fails. -/
theorem writePages_failed {m : Memory} {transfers : Nat → I2cTransfer} {writes : List PageWrite}
    (failed : (writePages m transfers writes).2 = false) :
    ∃ page stored, page < writes.length ∧ (∀ i < page, transfers i = .success) ∧
      transfers page = .error stored := by
  induction writes generalizing m transfers with
  | nil => cases failed
  | cons write rest ih =>
    cases transfer : transfers 0 with
    | error stored =>
      exact ⟨0, stored, Nat.zero_lt_succ _, fun i before => absurd before (Nat.not_lt_zero i),
        transfer⟩
    | success =>
      simp only [writePages, eepromWriteDataOnePage, transfer] at failed
      obtain ⟨page, stored, inside, before, error⟩ := ih failed
      refine ⟨page + 1, stored, Nat.succ_lt_succ inside, ?_, error⟩
      intro i below
      cases i with
      | zero => exact transfer
      | succ i => exact before i (Nat.lt_of_succ_lt_succ below)

/-- The number of option bytes in a page. -/
def structPageSize (page : Nat) : Nat := if page = 3 then 6 else 8

theorem bytesStored_structPages {transfers : Nat → I2cTransfer} {page stored : Nat}
    (inside : page < 4) (before : ∀ i < page, transfers i = .success)
    (error : transfers page = .error stored) (savestruct : EepromDataStruct) :
    bytesStored transfers (structPages savestruct) = 8 * page + min stored (structPageSize page) := by
  have cases : page = 0 ∨ page = 1 ∨ page = 2 ∨ page = 3 := by omega
  rcases cases with rfl | rfl | rfl | rfl
  · simp [bytesStored, structPages, PageWrite.bytes, structPageSize, error]
  · simp [bytesStored, structPages, PageWrite.bytes, structPageSize, error, before 0 (by decide)]
  · simp [bytesStored, structPages, PageWrite.bytes, structPageSize, error, before 0 (by decide),
      before 1 (by decide)]
    omega
  · simp [bytesStored, structPages, PageWrite.bytes, structPageSize, error, before 0 (by decide),
      before 1 (by decide), before 2 (by decide)]
    omega

/-- The options read are the thirty bytes from 20 on. -/
theorem readStruct_bytes (m : Memory) :
    ∃ read, eepromReadStruct m true = some read ∧
      packStruct read = (List.range 30).map fun i => m (0x20 + i) := by
  refine ⟨_, rfl, ?_⟩
  simp [packStruct, unpackStruct, takeField, Vector.toList, List.ofFn_succ, List.range_succ,
    dataAddress]

theorem packStruct_length (savestruct : EepromDataStruct) :
    (packStruct savestruct).length = 30 := by
  simp [packStruct]

theorem packStruct_inj {s s' : EepromDataStruct} (same : packStruct s = packStruct s') : s = s' := by
  have first := readStruct_packed (fun _ => 0) s
  rw [same, readStruct_packed] at first
  exact (Option.some.inj first).symm

/-- The bytes read where the first `n` of the options have been replaced. -/
theorem readStruct_replaced {m : Memory} {earlier : EepromDataStruct}
    (savestruct : EepromDataStruct) (stored : eepromReadStruct m true = some earlier) (n : Nat) :
    ∃ read, eepromReadStruct (store m 0x20 ((packStruct savestruct).take n)) true = some read ∧
      packStruct read = (packStruct savestruct).take n ++ (packStruct earlier).drop n := by
  obtain ⟨old, found, oldBytes⟩ := readStruct_bytes m
  obtain rfl : old = earlier := Option.some.inj (found.symm.trans stored)
  obtain ⟨read, readable, bytes⟩ :=
    readStruct_bytes (store m 0x20 ((packStruct savestruct).take n))
  refine ⟨read, readable, ?_⟩
  have whole := packStruct_length savestruct
  rw [bytes, oldBytes]
  apply List.ext_getElem
  · simp [whole]
    omega
  · intro i inside _
    rw [List.length_map, List.length_range] at inside
    rw [List.getElem_map, List.getElem_range]
    rcases Nat.lt_or_ge i n with replaced | kept
    · have short : i < ((packStruct savestruct).take n).length := by
        rw [List.length_take]
        omega
      rw [store_inside _ _ _ _ short, List.getElem_append_left short]
    · have behind : ((packStruct savestruct).take n).length = n ∨ 30 ≤ n := by
        rw [List.length_take]
        omega
      rcases behind with length | all
      · rw [store_outside _ _ _ _ (by omega), List.getElem_append_right (by omega)]
        simp only [length, List.getElem_drop, List.getElem_map, List.getElem_range]
        congr 2
        omega
      · omega

/-- A save that returns `FALSE` has failed at one of the four pages, and what is read
then has the new bytes up to the failure and the old ones behind it: it is what was
stored before exactly when the new bytes up to the failure equal the old ones. -/
theorem failedSave_read (m : Memory) (transfers : Nat → I2cTransfer)
    (earlier savestruct : EepromDataStruct) (stored : eepromReadStruct m true = some earlier)
    (failed : (eepromWriteStruct m transfers savestruct).2 = false) :
    ∃ page kept read, page < 4 ∧ (∀ i < page, transfers i = .success) ∧
      transfers page = .error kept ∧
      eepromReadStruct (eepromWriteStruct m transfers savestruct).1 true = some read ∧
      let n := 8 * page + min kept (structPageSize page)
      packStruct read = (packStruct savestruct).take n ++ (packStruct earlier).drop n ∧
        (read = earlier ↔ (packStruct savestruct).take n = (packStruct earlier).take n) := by
  obtain ⟨page, kept, inside, before, error⟩ := writePages_failed failed
  have point := bytesStored_structPages inside before error savestruct
  have after := writePages_stored m transfers 0x20 _ (structPages_consecutive savestruct)
  rw [structPages_bytes, point] at after
  obtain ⟨read, readable, bytes⟩ := readStruct_replaced savestruct stored
    (8 * page + min kept (structPageSize page))
  refine ⟨page, kept, read, inside, before, error, ?_, bytes, ?_⟩
  · rw [eepromWriteStruct, after, readable]
  · have halves := List.take_append_drop (8 * page + min kept (structPageSize page))
      (packStruct earlier)
    constructor
    · intro same
      rw [same] at bytes
      exact List.append_cancel_right (bytes.symm.trans halves.symm)
    · intro same
      rw [same, halves] at bytes
      exact packStruct_inj bytes

/-- The options of a board at address 192.168.0.`host`. -/
def hostOptions (host : INT8U) : EepromDataStruct :=
  { ipConfig :=
      { ip := #v[192, 168, 0, host]
        sub := #v[255, 255, 255, 0]
        gw := #v[192, 168, 0, 1]
        mac := #v[0, 2, 3, 4, 5, 6] }
    uartConfig := #v[0, 1, 2, 3, 4, 5]
    password := #v[1, 2, 3, 4, 5, 6] }

/-- The first page goes out, the second is not acknowledged. -/
def secondFails : Nat → I2cTransfer := fun page => if page = 1 then .error 0 else .success

/-- Behind the new address the old password is read: neither the options that were stored nor
the new ones. -/
theorem failedSave_read_secondPage :
    eepromReadStruct (eepromWriteStruct (store (fun _ => 0xFF) 0x20 (packStruct (hostOptions 10)))
      secondFails { hostOptions 11 with password := #v[6, 5, 4, 3, 2, 1] }).1 true =
      some (hostOptions 11) := by
  obtain ⟨page, kept, read, -, -, error, readable, bytes, -⟩ :=
    failedSave_read (store (fun _ => 0xFF) 0x20 (packStruct (hostOptions 10))) secondFails
      (hostOptions 10) { hostOptions 11 with password := #v[6, 5, 4, 3, 2, 1] }
      (readStruct_packed _ _) (by decide)
  have second : page = 1 := by
    by_contra other
    rw [secondFails, if_neg other] at error
    cases error
  subst second
  cases error
  have mixed : packStruct read = packStruct (hostOptions 11) := bytes.trans (by decide)
  rw [readable, packStruct_inj mixed]

/-- A save that fails at its second page leaves the new address of the board. -/
theorem failedSave_notKept :
    ¬ ∀ (m : Memory) (transfers : Nat → I2cTransfer) (earlier savestruct : EepromDataStruct),
      eepromReadStruct m true = some earlier →
      (eepromWriteStruct m transfers savestruct).2 = false →
        eepromReadStruct (eepromWriteStruct m transfers savestruct).1 true = some earlier := by
  intro kept
  have same := kept (store (fun _ => 0xFF) 0x20 (packStruct (hostOptions 10))) secondFails
    (hostOptions 10) (hostOptions 11) (readStruct_packed _ _) (by decide)
  have host := congrArg (Option.map fun s => s.ipConfig.ip[3]) same
  revert host
  decide

/-! ### The calibration -/

/-- What is left of an intercept. -/
def survivingBits (fp : INT32S) : INT32S := fp &&& 0xFC00

theorem ratiPages_length (values : Vector INT32S 16) (address : INT8U) :
    ((ratiPages values address).flatMap PageWrite.bytes).length = 64 := by
  rw [length_flatMap_records _ _ (ratiPages_uniform values address)]
  simp [ratiPages]

/-- Byte `k` of value `i` of a block of the calibration. -/
theorem block_byte (m : Memory) (values : Vector INT32S 16) (address : INT8U)
    (before after : List INT8U) (small : before.length ≤ 64) (i k : Nat) (inside : i < 16)
    (part : k < 4) :
    some (store m 0x40 (before ++ ((ratiPages values address).flatMap PageWrite.bytes ++ after))
      ((0x40 + (4 * i + k + before.length)) % 256)) = (valueBytes values[i])[k]? := by
  have length := ratiPages_length values address
  have fits : (0x40 + (4 * i + k + before.length)) % 256 = 0x40 + (4 * i + k + before.length) :=
    Nat.mod_eq_of_lt (by omega)
  have stored : 4 * i + k + before.length <
      (before ++ ((ratiPages values address).flatMap PageWrite.bytes ++ after)).length := by
    rw [List.length_append, List.length_append]
    omega
  rw [fits, store_inside _ _ _ _ stored, ← List.getElem?_eq_getElem,
    List.getElem?_append_right (by omega), Nat.add_sub_cancel,
    List.getElem?_append_left (by omega), ratiPages_byte values address i k inside part]

/-- Reading one block of the calibration back. -/
theorem uint8ToInt32_block (m : Memory) (values : Vector INT32S 16) (address : INT8U)
    (bytes before after : List INT8U) (start : Nat) (fits : start + 64 ≤ 128)
    (split : bytes = before ++ ((ratiPages values address).flatMap PageWrite.bytes ++ after))
    (place : before.length = start) :
    uint8ToInt32 (Vector.ofFn fun i : Fin 128 => store m 0x40 bytes ((0x40 + i.val) % 256)) start
        fits =
      values.map survivingBits := by
  subst split place
  apply Vector.ext
  intro i inside
  have byte := fun k => block_byte m values address before after (by omega) i k inside
  have b0 := Option.some.inj (byte 0 (by decide))
  have b1 := Option.some.inj (byte 1 (by decide))
  have b2 := Option.some.inj (byte 2 (by decide))
  have b3 := Option.some.inj (byte 3 (by decide))
  rw [Nat.add_zero] at b0
  rw [uint8ToInt32, Vector.getElem_ofFn, Vector.getElem_ofFn, Vector.getElem_ofFn,
    Vector.getElem_ofFn, Vector.getElem_ofFn, Vector.getElem_map, b0, b1, b2, b3]
  exact valueBytes_joined values[i]

/-- `EEPROM_ReadRati` on an EEPROM that holds what `EEPROM_WriteRati` sends. -/
theorem readRati_stored (m : Memory) (savestruct : CorrectInput) :
    eepromReadRati (store m 0x40 (ratiBytes savestruct)) true =
      some
        { slope := savestruct.intercept.map survivingBits
          intercept := savestruct.intercept.map survivingBits } := by
  have split : ratiBytes savestruct =
      (ratiPages savestruct.intercept ratiAddress).flatMap PageWrite.bytes ++
        (ratiPages savestruct.intercept (ratiAddress + 0x40)).flatMap PageWrite.bytes :=
    List.flatMap_append
  have first := uint8ToInt32_block m savestruct.intercept ratiAddress (ratiBytes savestruct) []
    ((ratiPages savestruct.intercept (ratiAddress + 0x40)).flatMap PageWrite.bytes) 0 (by decide)
    (by rw [split, List.nil_append]) rfl
  have second := uint8ToInt32_block m savestruct.intercept (ratiAddress + 0x40)
    (ratiBytes savestruct) ((ratiPages savestruct.intercept ratiAddress).flatMap PageWrite.bytes) []
    0x40 (by decide) (by rw [split, List.append_nil]) (ratiPages_length _ _)
  have base : ratiAddress.toNat = 0x40 := rfl
  simp only [eepromReadRati, eepromReadData, if_true, Option.map_some, base, first, second]

/-- `EEPROM_ReadRati` after a successful `EEPROM_WriteRati`. -/
theorem readRati_writeRati (m : Memory) (transfers : Nat → I2cTransfer) (savestruct : CorrectInput)
    (done : (eepromWriteRati m transfers savestruct).2 = true) :
    eepromReadRati (eepromWriteRati m transfers savestruct).1 true =
      some
        { slope := savestruct.intercept.map survivingBits
          intercept := savestruct.intercept.map survivingBits } := by
  rw [writeRati_stored m transfers savestruct done, readRati_stored]

/-- The calibration comes back as it was written exactly when each slope equals its
port's intercept and the intercept uses no bit outside 10 to 15. -/
theorem calibration_persists_iff (m : Memory) (transfers : Nat → I2cTransfer)
    (savestruct : CorrectInput) (done : (eepromWriteRati m transfers savestruct).2 = true) :
    eepromReadRati (eepromWriteRati m transfers savestruct).1 true = some savestruct ↔
      ∀ port : Fin 16, savestruct.slope.get port = savestruct.intercept.get port ∧
        survivingBits (savestruct.intercept.get port) = savestruct.intercept.get port := by
  obtain ⟨slope, intercept⟩ := savestruct
  rw [readRati_writeRati m transfers _ done]
  simp only [Option.some.injEq, CorrectInput.mk.injEq]
  constructor
  · intro same port
    obtain ⟨slopes, intercepts⟩ := same
    have kept : survivingBits (intercept.get port) = intercept.get port := by
      have at_port := congrArg (fun v : Vector INT32S 16 => v[port.val]) intercepts
      simp only [Vector.getElem_map] at at_port
      exact at_port
    rw [← slopes, intercepts]
    exact ⟨rfl, kept⟩
  · intro each
    have intercepts : intercept.map survivingBits = intercept := by
      apply Vector.ext
      intro i inside
      rw [Vector.getElem_map]
      exact (each ⟨i, inside⟩).2
    have slopes : intercept = slope := by
      apply Vector.ext
      intro i inside
      exact (each ⟨i, inside⟩).1.symm
    rw [intercepts]
    exact ⟨slopes, rfl⟩

/-- A calibration of sixteen values 0x8400, the smallest difference a value can carry. -/
theorem calibration_persists_iff_evenValues :
    eepromReadRati (eepromWriteRati (fun _ => 0xFF) (fun _ => .success)
      { slope := Vector.replicate 16 0x8400, intercept := Vector.replicate 16 0x8400 }).1 true =
      some { slope := Vector.replicate 16 0x8400, intercept := Vector.replicate 16 0x8400 } :=
  (calibration_persists_iff (fun _ => 0xFF) (fun _ => .success) _ (by decide)).mpr (by decide)

/-- The calibration 1.0 of the ports, scaled by 1000, loses its slopes. -/
theorem calibration_lost :
    let written : CorrectInput :=
      { slope := Vector.replicate 16 1000, intercept := Vector.replicate 16 0 }
    (eepromWriteRati (fun _ => 0xFF) (fun _ => .success) written).2 = true ∧
      eepromReadRati (eepromWriteRati (fun _ => 0xFF) (fun _ => .success) written).1 true ≠
        some written := by
  intro written
  have done : (eepromWriteRati (fun _ => 0xFF) (fun _ => .success) written).2 = true := by decide
  refine ⟨done, ?_⟩
  rw [readRati_writeRati _ _ _ done]
  intro same
  have slopes := congrArg CorrectInput.slope (Option.some.inj same)
  have first := congrArg (fun v : Vector INT32S 16 => v[0]) slopes
  simp only [written, Vector.map_replicate, Vector.getElem_replicate] at first
  exact absurd first (by decide)

end GasSub.Guarantees.SavedOptions
