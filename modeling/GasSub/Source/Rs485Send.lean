import GasSub.Source.Rs485Receive

/-!
# RS485 transmission

`RS485Send_Struct` and the THRE branches of `UART0/2/3/4_IRQHandler`, again one
text over four sets of globals. A store or a read outside the ten bytes of
`Send` leaves no defined state; a read behind the three bytes of `data` finds
bytes of some other variable, given by `behind`.
-/
namespace GasSub.Source

structure UserRS485Send where
  address : INT8U
  ctrl : INT8U
  len : INT8U
  data : Vector INT8U 3
  deriving DecidableEq, Repr

/-- `data[k]`, with what lies behind the array. -/
def UserRS485Send.dataAt (packet : UserRS485Send) (behind : Nat → INT8U) (k : Nat) : INT8U :=
  packet.data.toList.getD k (behind k)

/-- A channel with the THRE bit of its interrupt enable register and the bytes handed to
`UART_SendByte`. -/
structure Rs485Channel where
  port : Rs485Port
  threEnabled : Bool
  line : List INT8U
  deriving DecidableEq, Repr

/-- `LPC_Uart_Init`; `UART_Init` clears the interrupt enable register. -/
def Rs485Channel.init (c : Rs485Channel) : Rs485Channel :=
  { c with port := c.port.init, threEnabled := false }

/-- The four channels. -/
abbrev Rs485Channels := RS485UartNum → Rs485Channel

/-! ### The statements of `RS485Send_Struct` -/

/-- `Send[index]=byte`. -/
def storeSend (send : Vector INT8U 10) (index : Nat) (byte : INT8U) : Option (Vector INT8U 10) :=
  if index < 10 then some (send.setIfInBounds index byte) else none

/-- The loop over the payload. Its counter is a byte, so that with a length of 255 the
condition never fails, but a store has left the array long before. -/
def copyPayload (send : Vector INT8U 10) (packet : UserRS485Send) (behind : Nat → INT8U) :
    Option (Vector INT8U 10) :=
  (List.range packet.len.toNat).foldlM
    (fun send k => storeSend send (4 + k) (packet.dataAt behind k)) send

/-- The stores that build the frame. -/
def fillSend (send : Vector INT8U 10) (packet : UserRS485Send) (behind : Nat → INT8U) :
    Option (Vector INT8U 10) := do
  let send ← storeSend send 0 0x53
  let send ← storeSend send 1 packet.address
  let send ← storeSend send 2 packet.ctrl
  let send ← storeSend send 3 packet.len
  let send ← copyPayload send packet behind
  let send ← storeSend send (3 + packet.len.toNat + 1) 0x98
  storeSend send (3 + packet.len.toNat + 2) 0x45

/-- Everything before the first byte goes out. -/
def rs485Load (c : Rs485Channel) (packet : UserRS485Send) (behind : Nat → INT8U) :
    Option Rs485Channel :=
  (fillSend c.port.uart.send packet behind).map fun send =>
    { c with port := { c.port with
        uart := { c.port.uart with send := send, sendLen := packet.len + 6 } } }

/-- `UART_SendByte` of the first byte. -/
def rs485SendFirst (c : Rs485Channel) : Rs485Channel :=
  { c with line := c.line ++ [c.port.uart.send.head] }

/-- `UART_IntConfig` with THRE and ENABLE. -/
def rs485Arm (c : Rs485Channel) : Rs485Channel := { c with threEnabled := true }

/-- `sendOK=0`. -/
def rs485Mark (c : Rs485Channel) : Rs485Channel :=
  { c with port := { c.port with uart := { c.port.uart with sendOK := 0 } } }

/-- One arm of the switch. -/
def rs485SendFrame (c : Rs485Channel) (packet : UserRS485Send) (behind : Nat → INT8U) :
    Option Rs485Channel :=
  if c.port.uart.sendOK = 0 then some c
  else (rs485Load c packet behind).map fun loaded => rs485Mark (rs485Arm (rs485SendFirst loaded))

/-- A statement on one channel; the other three stay as they are. -/
def onChannel (channels : Rs485Channels) (n : RS485UartNum) (result : Option Rs485Channel) :
    Option Rs485Channels :=
  result.map (Function.update channels n)

/-- `RS485Send_Struct`. -/
def rs485SendStruct (channels : Rs485Channels) (packet : UserRS485Send) (behind : Nat → INT8U) :
    RS485UartNum → Option Rs485Channels
  | .uart0 => onChannel channels .uart0 (rs485SendFrame (channels .uart0) packet behind)
  | .uart2 => onChannel channels .uart2 (rs485SendFrame (channels .uart2) packet behind)
  | .uart3 => onChannel channels .uart3 (rs485SendFrame (channels .uart3) packet behind)
  | .uart4 => onChannel channels .uart4 (rs485SendFrame (channels .uart4) packet behind)

theorem rs485SendStruct_eq (channels : Rs485Channels) (packet : UserRS485Send)
    (behind : Nat → INT8U) (n : RS485UartNum) :
    rs485SendStruct channels packet behind n =
      onChannel channels n (rs485SendFrame (channels n) packet behind) := by
  cases n <;> rfl

/-! ### The THRE interrupt -/

/-- The THRE branch shared by the four handlers. `sendLen-1` is an `int`: it is -1 for a
wrapped `sendLen` of 0. -/
def rs485Transmit (c : Rs485Channel) : Option Rs485Channel :=
  let index := c.port.uart.sendIndex + 1
  if index.toNat < 10 then
    let byte := c.port.uart.send.toList.getD index.toNat 0
    let sent := { c with
      port := { c.port with uart := { c.port.uart with sendIndex := index } }
      line := c.line ++ [byte] }
    if c.port.uart.sendLen.toNat ≤ index.toNat + 1 ∧ byte = 0x45 then
      some { sent with
        threEnabled := false
        port := { sent.port with uart := { sent.port.uart with sendOK := 1, sendIndex := 0 } } }
    else some sent
  else none

def uart0IRQHandlerSend (channels : Rs485Channels) : Option Rs485Channels :=
  onChannel channels .uart0 (rs485Transmit (channels .uart0))

def uart2IRQHandlerSend (channels : Rs485Channels) : Option Rs485Channels :=
  onChannel channels .uart2 (rs485Transmit (channels .uart2))

def uart3IRQHandlerSend (channels : Rs485Channels) : Option Rs485Channels :=
  onChannel channels .uart3 (rs485Transmit (channels .uart3))

def uart4IRQHandlerSend (channels : Rs485Channels) : Option Rs485Channels :=
  onChannel channels .uart4 (rs485Transmit (channels .uart4))

/-- The handler of channel `n`. -/
def rs485IRQHandlerSend (channels : Rs485Channels) : RS485UartNum → Option Rs485Channels
  | .uart0 => uart0IRQHandlerSend channels
  | .uart2 => uart2IRQHandlerSend channels
  | .uart3 => uart3IRQHandlerSend channels
  | .uart4 => uart4IRQHandlerSend channels

theorem rs485IRQHandlerSend_eq (channels : Rs485Channels) (n : RS485UartNum) :
    rs485IRQHandlerSend channels n = onChannel channels n (rs485Transmit (channels n)) := by
  cases n <;> rfl

/-- A THRE interrupt goes on with the frame or ends it. -/
theorem rs485Transmit_cases {c after : Rs485Channel} (sent : rs485Transmit c = some after) :
    after.threEnabled = c.threEnabled ∧ after.port.uart.sendOK = c.port.uart.sendOK ∨
      after.threEnabled = false ∧ after.port.uart.sendOK = 1 := by
  simp only [rs485Transmit] at sent
  split at sent
  · split at sent
    · obtain rfl := Option.some.inj sent
      exact Or.inr ⟨rfl, rfl⟩
    · obtain rfl := Option.some.inj sent
      exact Or.inl ⟨rfl, rfl⟩
  · cases sent

/-! ### The frame as a whole -/

/-- The bytes that `RS485Send_Struct` stores from `Send[0]` on. -/
def frameBytes (packet : UserRS485Send) (behind : Nat → INT8U) : List INT8U :=
  [0x53, packet.address, packet.ctrl, packet.len] ++
    (List.range packet.len.toNat).map (packet.dataAt behind) ++ [0x98, 0x45]

theorem length_frameBytes (packet : UserRS485Send) (behind : Nat → INT8U) :
    (frameBytes packet behind).length = packet.len.toNat + 6 := by
  simp only [frameBytes, List.length_append, List.length_cons, List.length_nil, List.length_map,
    List.length_range]
  omega

/-- The last byte of the frame, by the index the interrupt compares. -/
theorem frameBytes_last (packet : UserRS485Send) (behind : Nat → INT8U) :
    (frameBytes packet behind)[packet.len.toNat + 5]? = some 0x45 := by
  have front : ([0x53, packet.address, packet.ctrl, packet.len] ++
      (List.range packet.len.toNat).map (packet.dataAt behind)).length = packet.len.toNat + 4 := by
    simp only [List.length_append, List.length_cons, List.length_nil, List.length_map,
      List.length_range]
    omega
  rw [frameBytes, List.getElem?_append_right (by omega), front]
  have offset : packet.len.toNat + 5 - (packet.len.toNat + 4) = 1 := by omega
  rw [offset]
  rfl

/-- Stores one behind the other. -/
def storeRun (send : Vector INT8U 10) (index : Nat) : List INT8U → Option (Vector INT8U 10)
  | [] => some send
  | byte :: rest => (storeSend send index byte).bind fun send => storeRun send (index + 1) rest

theorem storeRun_append (send : Vector INT8U 10) (index : Nat) (left right : List INT8U) :
    storeRun send index (left ++ right) =
      (storeRun send index left).bind fun send => storeRun send (index + left.length) right := by
  induction left generalizing send index with
  | nil => rfl
  | cons byte rest ih =>
    rw [List.cons_append, storeRun, storeRun, Option.bind_assoc]
    congr 1
    funext stored
    have place : index + 1 + rest.length = index + (rest.length + 1) := by omega
    rw [ih, place, List.length_cons]

/-- The loop over the payload is such a run. -/
theorem foldlM_storeSend (send : Vector INT8U 10) (byte : Nat → INT8U) (start n : Nat) :
    (List.range n).foldlM (fun send k => storeSend send (start + k) (byte k)) send =
      storeRun send start ((List.range n).map byte) := by
  induction n with
  | zero => rfl
  | succ n ih =>
    rw [List.range_succ, List.foldlM_append, ih, List.map_append, storeRun_append, List.length_map,
      List.length_range]
    rfl

theorem fillSend_eq (send : Vector INT8U 10) (packet : UserRS485Send) (behind : Nat → INT8U) :
    fillSend send packet behind = storeRun send 0 (frameBytes packet behind) := by
  have tail : 3 + packet.len.toNat + 1 = 4 + packet.len.toNat := by omega
  have last : 3 + packet.len.toNat + 2 = 4 + packet.len.toNat + 1 := by omega
  rw [frameBytes, List.append_assoc, storeRun_append]
  simp only [fillSend, copyPayload, foldlM_storeSend, storeRun, storeRun_append,
    Option.bind_eq_bind, Option.bind_assoc, List.length_cons, List.length_nil, List.length_map,
    List.length_range, tail, last, Nat.zero_add, Nat.reduceAdd, Option.bind_fun_some]

/-- A run that fits the array replaces its bytes and no others. -/
theorem storeRun_inside (send : Vector INT8U 10) (index : Nat) (bytes : List INT8U)
    (fits : index + bytes.length ≤ 10) :
    ∃ filled, storeRun send index bytes = some filled ∧
      filled.toList = send.toList.take index ++ bytes ++ send.toList.drop (index + bytes.length) := by
  induction bytes generalizing send index with
  | nil => exact ⟨send, rfl, by simp⟩
  | cons byte rest ih =>
    rw [List.length_cons] at fits
    have inside : index < 10 := by omega
    obtain ⟨filled, run, whole⟩ := ih (send.setIfInBounds index byte) (index + 1) (by omega)
    refine ⟨filled, ?_, ?_⟩
    · rw [storeRun, storeSend, if_pos inside, Option.bind_some, run]
    · have size : index < send.toList.length := by
        rw [Vector.length_toList]
        exact inside
      have place : index + 1 + rest.length = index + (rest.length + 1) := by omega
      have front : (send.toList.set index byte).take (index + 1) =
          send.toList.take index ++ [byte] := by
        rw [List.take_add_one, List.getElem?_set_self size, Option.toList_some,
          List.take_set_of_le (Nat.le_refl index)]
      rw [whole, Vector.toList_setIfInBounds, List.length_cons, place, front,
        List.drop_set_of_lt (by omega), List.append_assoc (List.take index send.toList),
        List.singleton_append]

/-! ### Frames that fit -/

theorem sendLen_toNat (packet : UserRS485Send) (short : packet.len.toNat ≤ 4) :
    (packet.len + 6).toNat = packet.len.toNat + 6 := by
  have small : packet.len.toNat + 6 < 2 ^ 8 := by omega
  exact BitVec.toNat_add_of_lt small

/-- With a length of up to four the whole frame fits and nothing else of `Send` changes. -/
theorem rs485Load_short (c : Rs485Channel) (packet : UserRS485Send) (behind : Nat → INT8U)
    (short : packet.len.toNat ≤ 4) :
    ∃ send : Vector INT8U 10,
      send.toList =
        frameBytes packet behind ++ c.port.uart.send.toList.drop (packet.len.toNat + 6) ∧
      rs485Load c packet behind = some { c with port := { c.port with
        uart := { c.port.uart with send := send, sendLen := packet.len + 6 } } } := by
  have fits : 0 + (frameBytes packet behind).length ≤ 10 := by
    rw [length_frameBytes]
    omega
  obtain ⟨send, run, whole⟩ := storeRun_inside c.port.uart.send 0 (frameBytes packet behind) fits
  refine ⟨send, ?_, by rw [rs485Load, fillSend_eq, run, Option.map_some]⟩
  rw [whole, List.take_zero, List.nil_append, Nat.zero_add, length_frameBytes]

/-- The tail of such a frame is in its last place. -/
theorem rs485Load_defined (c : Rs485Channel) (packet : UserRS485Send) (behind : Nat → INT8U)
    (short : packet.len.toNat ≤ 4) :
    ∃ send : Vector INT8U 10, send.toList.getD (packet.len.toNat + 5) 0 = 0x45 ∧
      rs485Load c packet behind = some { c with port := { c.port with
        uart := { c.port.uart with send := send, sendLen := packet.len + 6 } } } := by
  obtain ⟨send, whole, loaded⟩ := rs485Load_short c packet behind short
  refine ⟨send, ?_, loaded⟩
  have inside : packet.len.toNat + 5 < (frameBytes packet behind).length := by
    rw [length_frameBytes]
    omega
  rw [whole, List.getD_eq_getElem?_getD, List.getElem?_append_left inside,
    frameBytes_last, Option.getD_some]

end GasSub.Source
