import GasSub.Library.ByteMemory
import GasSub.Source.Rs485Copies

/-!
# RS485 transmission in memory

`RS485Send_Struct` over the bytes of memory, for lengths with which the frame leaves
`Send`: a store behind its ten bytes hits the members that follow, and behind the
structure whatever lies there. The packet is read as it was at the call.
-/
namespace GasSub.Source
open GasSub.Library.ByteMemory

/-- The members in their order; all are bytes, so that there is no padding. -/
def RS485TMP.bytes (uart : RS485TMP) : List INT8U :=
  uart.send.toList ++ (uart.rcv.toList ++
    [uart.sendIndex, uart.rcvIndex, uart.sendOK, uart.readyToRcv, uart.sendLen])

def sizeofRS485TMP : Nat := 30

def offsetSendOK : Nat := 27

def offsetSendLen : Nat := 29

/-- Where the structures `RS485UartN` lie. -/
structure Rs485Layout where
  uart : RS485UartNum → Nat
  apart : ∀ n m, n ≠ m → uart n + sizeofRS485TMP ≤ uart m ∨ uart m + sizeofRS485TMP ≤ uart n

/-- `rs485Send_S->data[i-1]`; in front of `data` stands `len`. -/
def UserRS485Send.payloadAt (packet : UserRS485Send) (behind : Nat → INT8U) (i : INT8U) : INT8U :=
  if i = 0 then packet.len else packet.dataAt behind (i.toNat - 1)

/-- The loop over the payload from counter `i` on, as far as the fuel goes. -/
def copyLoop (uart : Nat) (packet : UserRS485Send) (behind : Nat → INT8U) :
    (fuel : Nat) → INT8U → Memory → Option Memory
  | 0, _, _ => none
  | fuel + 1, i, m =>
    if i.toNat ≤ packet.len.toNat then
      copyLoop uart packet behind fuel (i + 1)
        (store m (uart + (3 + i.toNat)) [packet.payloadAt behind i])
    else some m

/-- One arm of the switch, on the structure at `uart`. -/
def sendStructAt (uart : Nat) (packet : UserRS485Send) (behind : Nat → INT8U) (fuel : Nat)
    (m : Memory) : Option Memory :=
  if m (uart + offsetSendOK) = 0 then some m
  else
    let m := store m uart [0x53]
    let m := store m (uart + 1) [packet.address]
    let m := store m (uart + 2) [packet.ctrl]
    let m := store m (uart + 3) [packet.len]
    (copyLoop uart packet behind fuel 1 m).map fun m =>
      let m := store m (uart + (3 + packet.len.toNat + 1)) [0x98]
      let m := store m (uart + (3 + packet.len.toNat + 2)) [0x45]
      let m := store m (uart + offsetSendLen) [packet.len + 6]
      store m (uart + offsetSendOK) [0]

/-- `RS485Send_Struct` in memory. -/
def sendStructMemory (layout : Rs485Layout) (n : RS485UartNum) (packet : UserRS485Send)
    (behind : Nat → INT8U) (fuel : Nat) (m : Memory) : Option Memory :=
  match n with
  | .uart0 => sendStructAt (layout.uart .uart0) packet behind fuel m
  | .uart2 => sendStructAt (layout.uart .uart2) packet behind fuel m
  | .uart3 => sendStructAt (layout.uart .uart3) packet behind fuel m
  | .uart4 => sendStructAt (layout.uart .uart4) packet behind fuel m

theorem sendStructMemory_eq (layout : Rs485Layout) (n : RS485UartNum) (packet : UserRS485Send)
    (behind : Nat → INT8U) (fuel : Nat) (m : Memory) :
    sendStructMemory layout n packet behind fuel m =
      sendStructAt (layout.uart n) packet behind fuel m := by
  cases n <;> rfl

/-! ### The loop -/

/-- A length of 255 keeps the loop going: no counter of eight bits is above it. -/
theorem copyLoop_endless (uart : Nat) (packet : UserRS485Send) (behind : Nat → INT8U)
    (longest : packet.len = 255) (fuel : Nat) (i : INT8U) (m : Memory) :
    copyLoop uart packet behind fuel i m = none := by
  induction fuel generalizing i m with
  | zero => rfl
  | succ fuel ih =>
    have below : i.toNat ≤ packet.len.toNat := by
      have small := i.isLt
      rw [longest]
      exact Nat.le_of_lt_succ small
    rw [copyLoop, if_pos below, ih]

/-- More fuel does not change a result. -/
theorem copyLoop_more {uart : Nat} {packet : UserRS485Send} {behind : Nat → INT8U}
    {fuel larger : Nat} {i : INT8U} {m after : Memory}
    (result : copyLoop uart packet behind fuel i m = some after) (more : fuel ≤ larger) :
    copyLoop uart packet behind larger i m = some after := by
  induction fuel generalizing larger i m with
  | zero => cases result
  | succ fuel ih =>
    obtain ⟨spare, rfl⟩ := Nat.exists_eq_add_of_le' (Nat.lt_of_lt_of_le (Nat.succ_pos fuel) more)
    rw [copyLoop] at result ⊢
    split
    next below =>
      rw [if_pos below] at result
      exact ih result (by omega)
    next beyond =>
      rw [if_neg beyond] at result
      exact result

/-- With any other length the loop ends with the payload stored. -/
theorem copyLoop_runs (uart : Nat) (packet : UserRS485Send) (behind : Nat → INT8U)
    (ends : packet.len.toNat < 255) (left : Nat) (i : INT8U) (m : Memory)
    (place : i.toNat + left = packet.len.toNat + 1) (started : 0 < i.toNat) :
    copyLoop uart packet behind (left + 1) i m =
      some (store m (uart + (3 + i.toNat))
        ((List.range left).map fun k => packet.dataAt behind (i.toNat - 1 + k))) := by
  induction left generalizing i m with
  | zero =>
    rw [copyLoop, if_neg (by omega)]
    exact congrArg some (store_nil m _).symm
  | succ left ih =>
    have next : (i + 1).toNat = i.toNat + 1 := counter_succ (by omega)
    have notFirst : ¬ i = 0 := by
      rintro rfl
      exact absurd started (by decide)
    have byte : packet.payloadAt behind i = packet.dataAt behind (i.toNat - 1) := if_neg notFirst
    have rest : ((List.range (left + 1)).map fun k => packet.dataAt behind (i.toNat - 1 + k)) =
        [packet.payloadAt behind i] ++
          (List.range left).map fun k => packet.dataAt behind ((i + 1).toNat - 1 + k) := by
      rw [List.range_succ_eq_map, List.map_cons, List.map_map, byte, next, Nat.add_zero]
      refine congrArg (List.cons _) (List.map_congr_left fun k _ => ?_)
      change packet.dataAt behind _ = packet.dataAt behind _
      congr 1
      omega
    rw [copyLoop, if_pos (by omega), ih (i + 1) _ (by omega) (by omega), rest, store_append, next]
    rfl

/-! ### The call -/

/-- The last two stores, behind the frame. -/
def storeFlags (m : Memory) (uart : Nat) (packet : UserRS485Send) : Memory :=
  store (store m (uart + offsetSendLen) [packet.len + 6]) (uart + offsetSendOK) [0]

/-- A free channel and a length below 255: the whole frame is stored, wherever it ends. -/
theorem sendStructAt_runs (uart : Nat) (packet : UserRS485Send) (behind : Nat → INT8U) (m : Memory)
    (free : m (uart + offsetSendOK) ≠ 0) (ends : packet.len.toNat < 255) :
    sendStructAt uart packet behind (packet.len.toNat + 1) m =
      some (storeFlags (store m uart (frameBytes packet behind)) uart packet) := by
  have whole : frameBytes packet behind = [0x53] ++ ([packet.address] ++ ([packet.ctrl] ++
      ([packet.len] ++ ((List.range packet.len.toNat).map (packet.dataAt behind) ++
        ([0x98] ++ [0x45]))))) := by
    simp only [frameBytes, List.cons_append, List.nil_append]
  have payload : ∀ m, copyLoop uart packet behind (packet.len.toNat + 1) 1 m =
      some (store m (uart + 4) ((List.range packet.len.toNat).map (packet.dataAt behind))) := by
    intro m
    have run := copyLoop_runs uart packet behind ends packet.len.toNat 1 m
      (Nat.add_comm 1 packet.len.toNat) (by decide)
    simpa using run
  have check : 3 + packet.len.toNat + 1 = 4 + packet.len.toNat := by omega
  have tail : 3 + packet.len.toNat + 2 = 4 + (packet.len.toNat + 1) := by omega
  rw [sendStructAt, if_neg free, whole]
  simp only [payload, Option.map_some, store_append, List.length_singleton, List.length_map,
    List.length_range, Nat.add_assoc, Nat.reduceAdd, check, tail, storeFlags]

theorem sendStructAt_busy (uart : Nat) (packet : UserRS485Send) (behind : Nat → INT8U)
    (fuel : Nat) (m : Memory) (busy : m (uart + offsetSendOK) = 0) :
    sendStructAt uart packet behind fuel m = some m := if_pos busy

theorem sendStructAt_endless (uart : Nat) (packet : UserRS485Send) (behind : Nat → INT8U)
    (m : Memory) (free : m (uart + offsetSendOK) ≠ 0) (longest : packet.len = 255) (fuel : Nat) :
    sendStructAt uart packet behind fuel m = none := by
  rw [sendStructAt, if_neg free]
  simp only [copyLoop_endless uart packet behind longest, Option.map_none]

/-- A call that returns has one result, whatever the fuel. -/
theorem sendStructAt_result {uart : Nat} {packet : UserRS485Send} {behind : Nat → INT8U}
    {fuel : Nat} {m after : Memory} (free : m (uart + offsetSendOK) ≠ 0)
    (returned : sendStructAt uart packet behind fuel m = some after) :
    packet.len.toNat < 255 ∧
      after = storeFlags (store m uart (frameBytes packet behind)) uart packet := by
  have ends : packet.len.toNat < 255 := by
    by_contra long
    have longest : packet.len = 255 := by
      apply BitVec.eq_of_toNat_eq
      have small := packet.len.isLt
      have limit : (255 : INT8U).toNat = 255 := rfl
      omega
    rw [sendStructAt_endless uart packet behind m free longest fuel] at returned
    cases returned
  refine ⟨ends, ?_⟩
  have whole := sendStructAt_runs uart packet behind m free ends
  rw [sendStructAt, if_neg free] at returned whole
  obtain ⟨copied, loop, rfl⟩ := Option.map_eq_some_iff.mp returned
  obtain ⟨copied', loop', same⟩ := Option.map_eq_some_iff.mp whole
  have left := copyLoop_more loop (Nat.le_max_left fuel (packet.len.toNat + 1))
  have right := copyLoop_more loop' (Nat.le_max_right fuel (packet.len.toNat + 1))
  obtain rfl := Option.some.inj (left.symm.trans right)
  exact same

/-! ### The bytes afterwards -/

@[simp] theorem storeFlags_sendOK (m : Memory) (uart : Nat) (packet : UserRS485Send) :
    storeFlags m uart packet (uart + offsetSendOK) = 0 :=
  store_inside _ (uart + offsetSendOK) 0 [0] Nat.zero_lt_one

@[simp] theorem storeFlags_sendLen (m : Memory) (uart : Nat) (packet : UserRS485Send) :
    storeFlags m uart packet (uart + offsetSendLen) = packet.len + 6 := by
  have behindOK : uart + offsetSendOK + 1 ≤ uart + offsetSendLen := by
    simp only [offsetSendOK, offsetSendLen]
    omega
  rw [storeFlags, store_outside _ _ _ _ (Or.inr behindOK)]
  exact store_inside m (uart + offsetSendLen) 0 [packet.len + 6] Nat.zero_lt_one

theorem storeFlags_other (m : Memory) (uart : Nat) (packet : UserRS485Send) {a : Nat}
    (notOK : a ≠ uart + offsetSendOK) (notLen : a ≠ uart + offsetSendLen) :
    storeFlags m uart packet a = m a := by
  rw [storeFlags, store_outside _ _ _ _ (by rw [List.length_singleton]; omega),
    store_outside _ _ _ _ (by rw [List.length_singleton]; omega)]

/-! ### Lengths for which the frame fits -/

/-- Memory holds the four structures. -/
def Rs485Layout.Holds (layout : Rs485Layout) (m : Memory) (g : Rs485Globals) : Prop :=
  ∀ n k byte, (g.rs485Uart n).bytes[k]? = some byte → m (layout.uart n + k) = byte

theorem RS485TMP.length_bytes (uart : RS485TMP) : uart.bytes.length = sizeofRS485TMP := by
  simp only [bytes, List.length_append, Vector.length_toList, List.length_cons, List.length_nil]
  rfl

theorem RS485TMP.bytes_sendOK (uart : RS485TMP) :
    uart.bytes[offsetSendOK]? = some uart.sendOK := by
  have sendSize : uart.send.toList.length = 10 := Vector.length_toList
  have rcvSize : uart.rcv.toList.length = 15 := Vector.length_toList
  rw [bytes, List.getElem?_append_right (by rw [sendSize]; decide), sendSize,
    List.getElem?_append_right (by rw [rcvSize]; decide), rcvSize]
  rfl

/-- A frame loaded, in bytes. -/
theorem RS485TMP.bytes_loaded (uart : RS485TMP) (send : Vector INT8U 10) (frame : List INT8U)
    (length : INT8U) (fits : frame.length ≤ 10)
    (loaded : send.toList = frame ++ uart.send.toList.drop frame.length) :
    RS485TMP.bytes { uart with send := send, sendLen := length, sendOK := 0 } =
      (((frame ++ uart.bytes.drop frame.length).set offsetSendOK 0).set offsetSendLen length) := by
  have room : frame.length ≤ uart.send.toList.length := by
    rw [Vector.length_toList]
    exact fits
  have sendSize : (frame ++ uart.send.toList.drop frame.length).length = 10 := by
    rw [List.length_append, List.length_drop, Vector.length_toList]
    omega
  have rcvSize : uart.rcv.toList.length = 15 := Vector.length_toList
  rw [bytes, bytes, loaded, List.drop_append_of_le_length room, ← List.append_assoc frame,
    List.set_append_right _ _ (by rw [sendSize]; decide), sendSize,
    List.set_append_right _ _ (by rw [sendSize]; decide), sendSize,
    List.set_append_right _ _ (by rw [rcvSize]; decide), rcvSize,
    List.set_append_right _ _ (by rw [rcvSize]; decide), rcvSize]
  rfl

/-- The bytes of such a structure, once its stores are done. -/
theorem storeFlags_loaded {m : Memory} {uart : Nat} {bytes : List INT8U} (packet : UserRS485Send)
    (behind : Nat → INT8U) (holds : ∀ j byte, bytes[j]? = some byte → m (uart + j) = byte)
    {j : Nat} {byte : INT8U}
    (member : (((frameBytes packet behind ++ bytes.drop (frameBytes packet behind).length).set
      offsetSendOK 0).set offsetSendLen (packet.len + 6))[j]? = some byte) :
    storeFlags (store m uart (frameBytes packet behind)) uart packet (uart + j) = byte := by
  by_cases length : j = offsetSendLen
  · subst length
    rw [List.getElem?_set_self'] at member
    obtain ⟨old, -, rfl⟩ := Option.map_eq_some_iff.mp member
    exact storeFlags_sendLen _ uart packet
  by_cases ok : j = offsetSendOK
  · subst ok
    rw [List.getElem?_set_ne (by decide), List.getElem?_set_self'] at member
    obtain ⟨old, -, rfl⟩ := Option.map_eq_some_iff.mp member
    exact storeFlags_sendOK _ uart packet
  rw [storeFlags_other _ _ _ (by omega) (by omega)]
  rw [List.getElem?_set_ne (Ne.symm length), List.getElem?_set_ne (Ne.symm ok)] at member
  rcases Nat.lt_or_ge j (frameBytes packet behind).length with inside | after
  · rw [store_inside _ _ _ _ inside]
    rw [List.getElem?_append_left inside, List.getElem?_eq_getElem inside] at member
    exact Option.some.inj member
  · rw [store_outside _ _ _ _ (Or.inr (by omega))]
    rw [List.getElem?_append_right after, List.getElem?_drop, Nat.add_sub_of_le after] at member
    exact holds j byte member

/-- Where the frame fits, the call in memory is the call on the structures. -/
theorem sendStructMemory_holds (layout : Rs485Layout) (n : RS485UartNum) (packet : UserRS485Send)
    (behind : Nat → INT8U) {m : Memory} {g : Rs485Globals} (holds : layout.Holds m g)
    (short : packet.len.toNat ≤ 4) :
    ∃ after final, sendStructMemory layout n packet behind (packet.len.toNat + 1) m = some after ∧
      sendStructSwitch g packet behind n = some final ∧ layout.Holds after final := by
  have flag : m (layout.uart n + offsetSendOK) = (g.rs485Uart n).sendOK :=
    holds n offsetSendOK _ (g.rs485Uart n).bytes_sendOK
  by_cases busy : (g.rs485Uart n).sendOK = 0
  · refine ⟨m, g, ?_, sendStructSwitch_busy g n packet behind busy, holds⟩
    rw [sendStructMemory_eq, sendStructAt_busy _ _ _ _ _ (flag.trans busy)]
  have free : m (layout.uart n + offsetSendOK) ≠ 0 := fun down => busy (flag.symm.trans down)
  obtain ⟨final, send, sent, whole, changed⟩ :=
    sendStructSwitch_short g n packet behind busy short
  have size := length_frameBytes packet behind
  refine ⟨_, final, (sendStructMemory_eq _ _ _ _ _ _).trans
    (sendStructAt_runs _ packet behind m free (by omega)), sent, fun k j byte member => ?_⟩
  rw [changed] at member
  by_cases here : k = n
  · subst here
    rw [Function.update_self, RS485TMP.bytes_loaded _ _ (frameBytes packet behind) _ (by omega)
      (by rw [size]; exact whole)] at member
    exact storeFlags_loaded packet behind (holds k) member
  · rw [Function.update_of_ne here] at member
    have inside : j < sizeofRS485TMP := by
      rw [← RS485TMP.length_bytes (g.rs485Uart k)]
      exact (List.getElem?_eq_some_iff.mp member).1
    have apart := layout.apart n k (Ne.symm here)
    have flags : offsetSendOK < sizeofRS485TMP ∧ offsetSendLen < sizeofRS485TMP := by decide
    have room : (frameBytes packet behind).length ≤ sizeofRS485TMP := by
      rw [size, sizeofRS485TMP]
      omega
    rw [storeFlags_other _ _ _ (by omega) (by omega), store_outside _ _ _ _ (by omega)]
    exact holds k j byte member

end GasSub.Source
