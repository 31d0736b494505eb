import GasSub.Library.ByteMemory
import GasSub.Source.Sensor
import Mathlib.Tactic.IntervalCases

/-!
# The options in the EEPROM

`eeprom_st24c02.c` and `user_SaveOption.c`. The part has 256 bytes in pages of
eight; a page write that runs past the end of its page goes on at the page's first
byte. Each I2C transfer either succeeds or is given up after some of its data bytes
have been stored; a read that fails leaves the caller's buffer as it was, and what
is then read out of it is indeterminate (`none`).
-/
namespace GasSub.Source
open GasSub.Library.ByteMemory

structure IpConfigStruct where
  ip : Vector INT8U 4
  sub : Vector INT8U 4
  gw : Vector INT8U 4
  mac : Vector INT8U 6
  deriving DecidableEq, Repr

structure EepromDataStruct where
  ipConfig : IpConfigStruct
  uartConfig : Vector INT8U 6
  password : Vector INT8U 6
  deriving DecidableEq, Repr

/-- `Correct_Input`: the calibration of the sixteen ports. -/
structure CorrectInput where
  slope : Vector INT32S 16
  intercept : Vector INT32S 16
  deriving DecidableEq, Repr

/-! ### The driver -/

/-- What becomes of a write transfer. -/
inductive I2cTransfer where
  | success
  | error (stored : Nat)
  deriving DecidableEq, Repr

/-- The part takes a page write whose first byte goes to `page + offset`. -/
def programPage (m : Memory) (page offset : Nat) : List INT8U → Memory
  | [] => m
  | byte :: rest => programPage (store m (page + offset % 8) [byte]) page (offset + 1) rest

/-- A call of `EEPROM_WriteDataOnePage`. -/
structure PageWrite where
  data : List INT8U
  size : INT8U
  address : INT8U
  deriving DecidableEq, Repr

/-- The data bytes that go out: `wrdata` is the address and eight bytes of `data`,
of which `size + 1` are sent. -/
def PageWrite.bytes (write : PageWrite) : List INT8U :=
  ((write.address :: write.data.take 8).take (write.size.toNat + 1)).tail

theorem PageWrite.bytes_eq_take (write : PageWrite) (full : write.data.length = 8) :
    write.bytes = write.data.take write.size.toNat := by
  have whole : write.data.take 8 = write.data := List.take_of_length_le (by omega)
  rw [PageWrite.bytes, whole]
  rfl

/-- `EEPROM_WriteDataOnePage`. -/
def eepromWriteDataOnePage (m : Memory) (transfer : I2cTransfer) (write : PageWrite) :
    Memory × Bool :=
  let page := write.address.toNat / 8 * 8
  let offset := write.address.toNat % 8
  match transfer with
  | .success => (programPage m page offset write.bytes, true)
  | .error stored => (programPage m page offset (write.bytes.take stored), false)

/-- `EEPROM_ReadData`: a sequential read, from the last byte on to the first. -/
def eepromReadData (m : Memory) (success : Bool) (size : Nat) (address : INT8U) :
    Option (Vector INT8U size) :=
  if success then some (Vector.ofFn fun i => m ((address.toNat + i.val) % 256)) else none

/-- A write that stays inside its page is a plain store. -/
theorem programPage_inside (m : Memory) (page offset : Nat) (bytes : List INT8U)
    (inside : offset + bytes.length ≤ 8) :
    programPage m page offset bytes = store m (page + offset) bytes := by
  induction bytes generalizing m offset with
  | nil => rw [programPage, store_nil]
  | cons byte rest ih =>
    simp only [List.length_cons] at inside
    have here : offset % 8 = offset := Nat.mod_eq_of_lt (by omega)
    rw [programPage, ih _ _ (by omega), here]
    exact (store_append m (page + offset) [byte] rest).symm

/-- Page writes that lie one behind the other from `base` on, none across a page end. -/
def Consecutive (base : Nat) : List PageWrite → Prop
  | [] => True
  | write :: rest =>
    write.address.toNat = base ∧ base % 8 + write.bytes.length ≤ 8 ∧
      Consecutive (base + write.bytes.length) rest

/-- Full pages, each behind the one before. -/
theorem consecutive_finRange (n base : Nat) (write : Fin n → PageWrite) (aligned : base % 8 = 0)
    (address : ∀ i, (write i).address.toNat = base + 8 * i.val)
    (full : ∀ i, (write i).bytes.length = 8) :
    Consecutive base ((List.finRange n).map write) := by
  induction n generalizing base with
  | zero => exact trivial
  | succ n ih =>
    rw [List.finRange_succ, List.map_cons, List.map_map]
    have first := address 0
    refine ⟨first, by rw [full]; omega, ?_⟩
    rw [full]
    refine ih (base + 8) (write ∘ Fin.succ) (by omega) (fun i => ?_) fun i => full i.succ
    have later := address i.succ
    rw [Fin.val_succ] at later
    rw [Function.comp_apply, later]
    omega

theorem consecutive_append {base : Nat} {first second : List PageWrite}
    (left : Consecutive base first)
    (right : Consecutive (base + (first.flatMap PageWrite.bytes).length) second) :
    Consecutive base (first ++ second) := by
  induction first generalizing base with
  | nil => exact right
  | cons write rest ih =>
    obtain ⟨address, inside, later⟩ := left
    rw [List.flatMap_cons, List.length_append, ← Nat.add_assoc] at right
    exact ⟨address, inside, ih later right⟩

/-! ### The options -/

def dataAddress : INT8U := 0x20
def ratiAddress : INT8U := 0x40

/-- Page writes one after the other, up to the first that returns `FALSE`; transfer
`i` is that of the write number `i`. -/
def writePages (m : Memory) (transfers : Nat → I2cTransfer) : List PageWrite → Memory × Bool
  | [] => (m, true)
  | write :: rest =>
    match eepromWriteDataOnePage m (transfers 0) write with
    | (next, false) => (next, false)
    | (next, true) => writePages next (fun i => transfers (i + 1)) rest

/-- Consecutive page writes that all succeed store one run of bytes. -/
theorem writePages_consecutive (m : Memory) (transfers : Nat → I2cTransfer) (base : Nat)
    (writes : List PageWrite) (consecutive : Consecutive base writes)
    (done : (writePages m transfers writes).2 = true) :
    (writePages m transfers writes).1 = store m base (writes.flatMap PageWrite.bytes) := by
  induction writes generalizing m transfers base with
  | nil => exact (store_nil m base).symm
  | cons write rest ih =>
    obtain ⟨address, inside, later⟩ := consecutive
    cases transfer : transfers 0 with
    | error stored =>
      simp only [writePages, eepromWriteDataOnePage, transfer] at done
      cases done
    | success =>
      simp only [writePages, eepromWriteDataOnePage, transfer, address] at done ⊢
      have place : base / 8 * 8 + base % 8 = base := Nat.div_add_mod' base 8
      rw [ih _ _ _ later done, programPage_inside m _ _ _ inside, place, List.flatMap_cons,
        store_append]

/-- The four pages of `EEPROM_WriteStruct`. The last holds six bytes only; behind
them the buffer still has bytes of the page before. -/
def structPages (savestruct : EepromDataStruct) : List PageWrite :=
  let ipConfig := savestruct.ipConfig
  [{ data := ipConfig.ip.toList ++ ipConfig.gw.toList, size := 8, address := dataAddress },
    { data := ipConfig.sub.toList ++ ipConfig.mac.toList.take 4
      size := 8
      address := dataAddress + 8 * 1 },
    { data := ipConfig.mac.toList.drop 4 ++ savestruct.uartConfig.toList
      size := 8
      address := dataAddress + 8 * 2 },
    { data := savestruct.password.toList ++ savestruct.uartConfig.toList.drop 4
      size := 6
      address := dataAddress + 8 * 3 }]

/-- `EEPROM_WriteStruct`. -/
def eepromWriteStruct (m : Memory) (transfers : Nat → I2cTransfer)
    (savestruct : EepromDataStruct) : Memory × Bool :=
  writePages m transfers (structPages savestruct)

/-- The next `k` bytes of a buffer, from `num` on. -/
def takeField {n : Nat} (readData : Vector INT8U n) (num k : Nat) (fits : num + k ≤ n) :
    Vector INT8U k :=
  Vector.ofFn fun i => readData[num + i.val]

/-- The loops of `EEPROM_ReadStruct`. -/
def unpackStruct (readData : Vector INT8U 30) : EepromDataStruct :=
  { ipConfig :=
      { ip := takeField readData 0 4 (by decide)
        gw := takeField readData 4 4 (by decide)
        sub := takeField readData 8 4 (by decide)
        mac := takeField readData 12 6 (by decide) }
    uartConfig := takeField readData 18 6 (by decide)
    password := takeField readData 24 6 (by decide) }

/-- A field that was stored at its place is read back. -/
theorem takeField_store {n : Nat} (m : Memory) (base num k : Nat) (fits : num + k ≤ n)
    (small : base + n ≤ 256) (bytes before after : List INT8U) (field : Vector INT8U k)
    (split : bytes = before ++ (field.toList ++ after)) (place : before.length = num) :
    takeField (Vector.ofFn fun i : Fin n => store m base bytes ((base + i.val) % 256)) num k fits =
      field := by
  apply Vector.ext
  intro i inside
  have address : (base + (num + i)) % 256 = base + (before.length + i) := by
    rw [place]
    exact Nat.mod_eq_of_lt (by omega)
  simp only [takeField, Vector.getElem_ofFn, address]
  exact store_field m base bytes before after field split i inside

/-- `EEPROM_ReadStruct`. -/
def eepromReadStruct (m : Memory) (success : Bool) : Option EepromDataStruct :=
  (eepromReadData m success 30 dataAddress).map unpackStruct

/-- The thirty bytes of the options as they lie in the EEPROM. -/
def packStruct (savestruct : EepromDataStruct) : List INT8U :=
  let ipConfig := savestruct.ipConfig
  ipConfig.ip.toList ++ ipConfig.gw.toList ++ ipConfig.sub.toList ++ ipConfig.mac.toList ++
    savestruct.uartConfig.toList ++ savestruct.password.toList

/-- Each field with the bytes before and behind it. -/
theorem packStruct_split (s : EepromDataStruct) :
    let ip := s.ipConfig.ip.toList
    let gw := s.ipConfig.gw.toList
    let sub := s.ipConfig.sub.toList
    let mac := s.ipConfig.mac.toList
    let uart := s.uartConfig.toList
    let password := s.password.toList
    packStruct s = [] ++ (ip ++ (gw ++ (sub ++ (mac ++ (uart ++ password))))) ∧
    packStruct s = ip ++ (gw ++ (sub ++ (mac ++ (uart ++ password)))) ∧
    packStruct s = (ip ++ gw) ++ (sub ++ (mac ++ (uart ++ password))) ∧
    packStruct s = (ip ++ gw ++ sub) ++ (mac ++ (uart ++ password)) ∧
    packStruct s = (ip ++ gw ++ sub ++ mac) ++ (uart ++ password) ∧
    packStruct s = (ip ++ gw ++ sub ++ mac ++ uart) ++ (password ++ []) := by
  simp only [packStruct, List.append_assoc, List.append_nil, List.nil_append, and_self]

theorem structPages_consecutive (savestruct : EepromDataStruct) :
    Consecutive 0x20 (structPages savestruct) := by
  simp [structPages, Consecutive, PageWrite.bytes, dataAddress, Vector.length_toList]

theorem structPages_bytes (savestruct : EepromDataStruct) :
    (structPages savestruct).flatMap PageWrite.bytes = packStruct savestruct := by
  obtain ⟨⟨ip, sub, gw, mac⟩, uart, password⟩ := savestruct
  have first : (ip.toList ++ gw.toList).take 8 = ip.toList ++ gw.toList :=
    List.take_of_length_le (by simp)
  have second : (sub.toList ++ mac.toList.take 4).take 8 = sub.toList ++ mac.toList.take 4 :=
    List.take_of_length_le (by simp)
  have third : (mac.toList.drop 4 ++ uart.toList).take 8 = mac.toList.drop 4 ++ uart.toList :=
    List.take_of_length_le (by simp)
  have fourth : (password.toList ++ uart.toList.drop 4).take 6 = password.toList :=
    List.take_left' (by simp)
  simp only [structPages, List.flatMap_cons, List.flatMap_nil]
  rw [PageWrite.bytes_eq_take _ (by simp), PageWrite.bytes_eq_take _ (by simp),
    PageWrite.bytes_eq_take _ (by simp), PageWrite.bytes_eq_take _ (by simp)]
  simp only [BitVec.reduceToNat, first, second, third, fourth, packStruct]
  simp only [List.append_assoc, List.append_nil]
  rw [← List.append_assoc (mac.toList.take 4), List.take_append_drop]

theorem readStruct_packed (m : Memory) (savestruct : EepromDataStruct) :
    eepromReadStruct (store m 0x20 (packStruct savestruct)) true = some savestruct := by
  have split := packStruct_split savestruct
  obtain ⟨⟨ip, sub, gw, mac⟩, uart, password⟩ := savestruct
  simp only at split
  obtain ⟨h1, h2, h3, h4, h5, h6⟩ := split
  have field := fun num k fits => @takeField_store 30 m 0x20 num k fits (by decide)
  have ips := field 0 4 (by decide) _ _ _ ip h1 rfl
  have gws := field 4 4 (by decide) _ _ _ gw h2 (by simp)
  have subs := field 8 4 (by decide) _ _ _ sub h3 (by simp)
  have macs := field 12 6 (by decide) _ _ _ mac h4 (by simp)
  have uarts := field 18 6 (by decide) _ _ _ uart h5 (by simp)
  have passwords := field 24 6 (by decide) _ _ _ password h6 (by simp)
  have base : dataAddress.toNat = 0x20 := rfl
  simp only [eepromReadStruct, eepromReadData, if_true, Option.map_some, unpackStruct, base, ips,
    gws, subs, macs, uarts, passwords]

/-! ### The calibration -/

/-- `INT32TOUINT8`: the mask moves by one bit per byte, the shift by four. -/
def int32ToUint8 (fp1 fp2 : INT32S) : List INT8U :=
  (List.range 8).map fun i =>
    if i < 4 then ((fp1 &&& (0xF000 >>> i)) >>> ((3 - i) * 4)).setWidth 8
    else ((fp2 &&& (0xF000 >>> (i - 4))) >>> ((7 - i) * 4)).setWidth 8

/-- The eight pages of one loop of `EEPROM_WriteRati`. -/
def ratiPages (values : Vector INT32S 16) (address : INT8U) : List PageWrite :=
  (List.finRange 8).map fun i =>
    { data := int32ToUint8 values[2 * i.val] values[2 * i.val + 1]
      size := 8
      address := address + 8 * BitVec.ofNat 8 i.val }

/-- `EEPROM_WriteRati`: both loops send the intercepts. -/
def eepromWriteRati (m : Memory) (transfers : Nat → I2cTransfer) (savestruct : CorrectInput) :
    Memory × Bool :=
  writePages m transfers
    (ratiPages savestruct.intercept ratiAddress ++ ratiPages savestruct.intercept (ratiAddress + 0x40))

/-- One loop of `UINT8TOINT32`. -/
def uint8ToInt32 (data : Vector INT8U 128) (start : Nat) (fits : start + 64 ≤ 128) :
    Vector INT32S 16 :=
  Vector.ofFn fun i : Fin 16 =>
    data[4 * i.val + start].setWidth 32 <<< 12 ||| data[4 * i.val + 1 + start].setWidth 32 <<< 8 |||
      data[4 * i.val + 2 + start].setWidth 32 <<< 4 ||| data[4 * i.val + 3 + start].setWidth 32

/-- `EEPROM_ReadRati`. -/
def eepromReadRati (m : Memory) (success : Bool) : Option CorrectInput :=
  (eepromReadData m success 128 ratiAddress).map fun readData =>
    { intercept := uint8ToInt32 readData 0 (by decide)
      slope := uint8ToInt32 readData 0x40 (by decide) }

/-- The four bytes one value is sent as. -/
def valueBytes (fp : INT32S) : List INT8U :=
  (List.range 4).map fun i => ((fp &&& (0xF000 >>> i)) >>> ((3 - i) * 4)).setWidth 8

theorem int32ToUint8_eq (fp1 fp2 : INT32S) :
    int32ToUint8 fp1 fp2 = valueBytes fp1 ++ valueBytes fp2 := rfl

/-- What the reader makes of the four bytes: of the sixteen bits they are meant to
carry the lower ten get lost, and the upper sixteen are not sent at all. -/
theorem valueBytes_joined (fp : INT32S) :
    (((fp &&& 0xF000) >>> 12).setWidth 8).setWidth 32 <<< 12 |||
        (((fp &&& 0x7800) >>> 8).setWidth 8).setWidth 32 <<< 8 |||
        (((fp &&& 0x3C00) >>> 4).setWidth 8).setWidth 32 <<< 4 |||
        ((fp &&& 0x1E00).setWidth 8).setWidth 32 =
      fp &&& 0xFC00 := by
  apply BitVec.eq_of_getLsbD_eq
  intro i inside
  interval_cases i <;> simp

theorem valueBytes_length (fp : INT32S) : (valueBytes fp).length = 4 := rfl

theorem int32ToUint8_length (fp1 fp2 : INT32S) : (int32ToUint8 fp1 fp2).length = 8 := rfl

/-- A calibration page carries two values. -/
theorem ratiPage_bytes (fp1 fp2 : INT32S) (address : INT8U) :
    ({ data := int32ToUint8 fp1 fp2, size := 8, address := address } : PageWrite).bytes =
      valueBytes fp1 ++ valueBytes fp2 := by
  rw [PageWrite.bytes_eq_take _ (int32ToUint8_length fp1 fp2), ← int32ToUint8_eq]
  exact List.take_of_length_le (Nat.le_refl 8)

theorem ratiPages_uniform (values : Vector INT32S 16) (address : INT8U) :
    ∀ write ∈ ratiPages values address, write.bytes.length = 8 := by
  intro write member
  obtain ⟨i, -, rfl⟩ := List.mem_map.mp member
  rw [ratiPage_bytes]
  rfl

theorem ratiPages_consecutive (values : Vector INT32S 16) (address : INT8U)
    (aligned : address.toNat % 8 = 0) (room : address.toNat + 64 ≤ 256) :
    Consecutive address.toNat (ratiPages values address) := by
  apply consecutive_finRange _ _ _ aligned
  · intro i
    have inside := i.isLt
    have eight : (8 : INT8U).toNat = 8 := rfl
    simp only [BitVec.toNat_add, BitVec.toNat_mul, BitVec.toNat_ofNat, eight]
    omega
  · intro i
    rw [ratiPage_bytes]
    rfl

/-- Both loops of `EEPROM_WriteRati` together fill `RATI_SIZE` bytes. -/
theorem rati_consecutive (values : Vector INT32S 16) :
    Consecutive 0x40 (ratiPages values ratiAddress ++ ratiPages values (ratiAddress + 0x40)) := by
  apply consecutive_append
  · exact ratiPages_consecutive values ratiAddress (by decide) (by decide)
  · rw [length_flatMap_records _ _ (ratiPages_uniform values ratiAddress)]
    exact ratiPages_consecutive values (ratiAddress + 0x40) (by decide) (by decide)

/-- Byte `k` of value `i` in the block one loop writes. -/
theorem ratiPages_byte (values : Vector INT32S 16) (address : INT8U) (i k : Nat) (inside : i < 16)
    (part : k < 4) :
    ((ratiPages values address).flatMap PageWrite.bytes)[4 * i + k]? =
      (valueBytes values[i])[k]? := by
  have page : ∀ j, (counted : j < 8) → (ratiPages values address)[j]? =
      some
        { data := int32ToUint8 values[2 * j] values[2 * j + 1]
          size := 8
          address := address + 8 * BitVec.ofNat 8 j } := by
    intro j counted
    simp [ratiPages, counted]
  have byte := fun j => getElem?_flatMap_records PageWrite.bytes _ (ratiPages_uniform values address) j
  obtain ⟨j, rfl | rfl⟩ := Nat.even_or_odd' i
  · have first := byte j k (by omega)
    rw [page j (by omega), Option.bind_some, ratiPage_bytes,
      List.getElem?_append_left (by rw [valueBytes_length]; exact part)] at first
    rw [← first]
    congr 1
    omega
  · have second := byte j (4 + k) (by omega)
    rw [page j (by omega), Option.bind_some, ratiPage_bytes,
      List.getElem?_append_right (by rw [valueBytes_length]; omega), valueBytes_length,
      Nat.add_sub_cancel_left] at second
    rw [← second]
    congr 1
    omega

end GasSub.Source
