import GasSub.Library.BufferFill
import GasSub.Library.ByteWord
import GasSub.Source.Sensor

/-!
# UART1 reception

The receive branch of `UART1_IRQHandler` and `Uart1_Get_Struct` of
`com_uart.c`. One interrupt delivers one byte. A store behind the end of
`dataToRcv` is left without effect; `InBounds` below shows that none happens
from `LPC_Uart_Init` on.
-/
namespace GasSub.Source
open GasSub.Library.ByteWord GasSub.Library.BufferFill

/-- The receive-side globals of the driver. -/
structure Uart1Rx where
  dataToRcv : Vector INT8U 134
  uart1RcvOK : INT8U
  uart1RcvStart : INT8U
  readyToRcv : INT8U
  uart1RcvIndex : INT16U
  deriving DecidableEq, Repr

/-- What `LPC_Uart_Init` does to the receive side. -/
def lpcUartInit (s : Uart1Rx) : Uart1Rx :=
  { s with uart1RcvOK := 0, uart1RcvStart := 0, readyToRcv := 0, uart1RcvIndex := 0 }

/-- The handler while a capture runs: store, and judge the block when it is full. -/
def uart1Capture (s : Uart1Rx) (byte : INT8U) : Uart1Rx :=
  let stored :=
    { s with
      dataToRcv := s.dataToRcv.setIfInBounds s.uart1RcvIndex.toNat byte
      uart1RcvIndex := s.uart1RcvIndex + 1 }
  if stored.uart1RcvIndex.toNat < 134 then stored
  else if stored.dataToRcv[132] = 0xE5 ∧ stored.dataToRcv[133] = 0x5E then
    { stored with uart1RcvOK := 1, readyToRcv := 0, uart1RcvIndex := 0 }
  else
    { stored with uart1RcvOK := 0, readyToRcv := 0, uart1RcvIndex := 0 }

/-- The handler outside a capture: look for the header 5A A5. -/
def uart1Hunt (s : Uart1Rx) (byte : INT8U) : Uart1Rx :=
  if byte = 0x5A ∧ s.uart1RcvStart = 0 then { s with uart1RcvStart := 1 }
  else if s.uart1RcvStart = 1 then
    if byte = 0xA5 then { s with readyToRcv := 1, uart1RcvStart := 0, uart1RcvIndex := 0 }
    else s
  else s

/-- `UART1_IRQHandler` for a received-data or time-out interrupt. -/
def uart1IRQHandlerReceive (s : Uart1Rx) (byte : INT8U) : Uart1Rx :=
  if s.readyToRcv = 1 then uart1Capture s byte else uart1Hunt s byte

/-- One receive interrupt per byte. -/
def deliver (s : Uart1Rx) (bytes : List INT8U) : Uart1Rx :=
  bytes.foldl uart1IRQHandlerReceive s

/-! ### Reading a captured block -/

/-- Sixteen little-endian 16-bit words; pass `i` of the loop reads at `num + 2i`. -/
def readWords16 (d : Vector INT8U 134) (num : Nat) (fits : num + 32 ≤ 134) : Vector INT16U 16 :=
  Vector.ofFn fun i : Fin 16 => join16 d[num + 2 * i.val + 1] d[num + 2 * i.val]

/-- Sixteen 32-bit words whose halves come low half first, high byte first in
each half; pass `i` of the loop reads at `num + 4i`. -/
def readWords32 (d : Vector INT8U 134) (num : Nat) (fits : num + 64 ≤ 134) : Vector INT32U 16 :=
  Vector.ofFn fun i : Fin 16 =>
    join32 d[num + 4 * i.val + 2] d[num + 4 * i.val + 3] d[num + 4 * i.val]
      d[num + 4 * i.val + 1]

theorem getElem_readWords16 (d : Vector INT8U 134) (num : Nat) (fits : num + 32 ≤ 134) (i : Nat)
    (inside : i < 16) :
    (readWords16 d num fits)[i] = join16 d[num + 2 * i + 1] d[num + 2 * i] := by
  simp only [readWords16, Vector.getElem_ofFn]

theorem getElem_readWords32 (d : Vector INT8U 134) (num : Nat) (fits : num + 64 ≤ 134) (i : Nat)
    (inside : i < 16) :
    (readWords32 d num fits)[i] =
      join32 d[num + 4 * i + 2] d[num + 4 * i + 3] d[num + 4 * i] d[num + 4 * i + 1] := by
  simp only [readWords32, Vector.getElem_ofFn]

/-- The block layout `Uart1_Get_Struct` assumes; two bytes after `AD` are skipped. -/
def decodeBody (d : Vector INT8U 134) : RcvStruct :=
  { fre := readWords16 d 0 (by decide)
    ad := readWords16 d 32 (by decide)
    count := readWords32 d 66 (by decide)
    sel := join16 d[131] d[130] }

/-- `Uart1_Get_Struct`; without a ready block it returns an uninitialized
structure, here `none`. -/
def uart1GetStruct (s : Uart1Rx) : Option RcvStruct × Uart1Rx :=
  if s.uart1RcvOK = 0 then (none, s)
  else (some (decodeBody s.dataToRcv), { s with uart1RcvOK := 0 })

/-! ### Captures -/

/-- The index invariant: a running capture has room, and none starts half way. -/
def Uart1Rx.InBounds (s : Uart1Rx) : Prop :=
  (s.readyToRcv = 0 ∨ s.readyToRcv = 1) ∧ (s.readyToRcv = 1 → s.uart1RcvIndex.toNat < 134)

theorem inBounds_init (s : Uart1Rx) : (lpcUartInit s).InBounds :=
  ⟨Or.inl rfl, fun h => absurd h (by decide : (0 : INT8U) ≠ 1)⟩

theorem toNat_succ {n : INT16U} (bound : n.toNat < 134) : (n + 1).toNat = n.toNat + 1 := by
  have small : n.toNat + 1 < 2 ^ 16 := by omega
  exact BitVec.toNat_add_of_lt small

/-- A byte that does not complete the block is stored and nothing else happens. -/
theorem uart1Capture_inside (s : Uart1Rx) (byte : INT8U) (room : s.uart1RcvIndex.toNat < 133) :
    uart1Capture s byte =
      { s with
        dataToRcv := s.dataToRcv.setIfInBounds s.uart1RcvIndex.toNat byte
        uart1RcvIndex := s.uart1RcvIndex + 1 } := by
  have next := toNat_succ (n := s.uart1RcvIndex) (by omega)
  simp only [uart1Capture]
  rw [if_pos (by omega)]

/-- The last byte of the block ends the capture; the flag tells the verdict. -/
theorem uart1Capture_last (s : Uart1Rx) (byte : INT8U) (full : s.uart1RcvIndex.toNat = 133) :
    uart1Capture s byte =
      { s with
        dataToRcv := s.dataToRcv.setIfInBounds 133 byte
        uart1RcvOK := if s.dataToRcv[132] = 0xE5 ∧ byte = 0x5E then 1 else 0
        readyToRcv := 0
        uart1RcvIndex := 0 } := by
  have next := toNat_succ (n := s.uart1RcvIndex) (by omega)
  simp only [uart1Capture, full]
  rw [if_neg (by omega)]
  simp only [Vector.getElem_setIfInBounds_self, Vector.getElem_setIfInBounds_ne (by omega : 132 < 134)
    (by decide : 133 ≠ 132)]
  split <;> rfl

theorem inBounds_receive (s : Uart1Rx) (byte : INT8U) (h : s.InBounds) :
    (uart1IRQHandlerReceive s byte).InBounds := by
  obtain ⟨phase, bound⟩ := h
  unfold uart1IRQHandlerReceive
  by_cases capturing : s.readyToRcv = 1
  · rw [if_pos capturing]
    by_cases room : s.uart1RcvIndex.toNat < 133
    · rw [uart1Capture_inside s byte room]
      refine ⟨phase, fun _ => ?_⟩
      have next := toNat_succ (bound capturing)
      simp only [next]
      omega
    · have inside := bound capturing
      rw [uart1Capture_last s byte (by omega)]
      exact ⟨Or.inl rfl, fun h => absurd h (by decide : (0 : INT8U) ≠ 1)⟩
  · rw [if_neg capturing]
    unfold uart1Hunt
    split
    · exact ⟨phase, bound⟩
    · split
      · split
        · exact ⟨Or.inr rfl, fun _ => (by decide : (0 : INT16U).toNat < 134)⟩
        · exact ⟨phase, bound⟩
      · exact ⟨phase, bound⟩

/-! ### Whole frames -/

/-- The header takes an idle receiver into a capture at index zero. -/
theorem deliver_header (s : Uart1Rx) (idle : s.readyToRcv = 0)
    (start : s.uart1RcvStart = 0 ∨ s.uart1RcvStart = 1) :
    deliver s [0x5A, 0xA5] = { s with readyToRcv := 1, uart1RcvStart := 0, uart1RcvIndex := 0 } := by
  have first : uart1IRQHandlerReceive s 0x5A = { s with uart1RcvStart := 1 } := by
    obtain ⟨data, ok, start', ready, index⟩ := s
    simp only at idle start
    subst idle
    cases start with
    | inl zero => subst zero; rfl
    | inr one => subst one; rfl
  simp only [deliver, List.foldl_cons, List.foldl_nil, first]
  simp only [uart1IRQHandlerReceive, idle]
  rfl

/-- A run of bytes that does not complete the block fills the buffer in order. -/
theorem deliver_inside (bytes : List INT8U) (s : Uart1Rx) (capturing : s.readyToRcv = 1)
    (room : s.uart1RcvIndex.toNat + bytes.length ≤ 133) :
    deliver s bytes =
      { s with
        dataToRcv := fillFrom s.dataToRcv s.uart1RcvIndex.toNat bytes
        uart1RcvIndex := s.uart1RcvIndex + BitVec.ofNat 16 bytes.length } := by
  induction bytes generalizing s with
  | nil => simp [deliver, fillFrom]
  | cons byte rest ih =>
    simp only [List.length_cons] at room
    have step : uart1IRQHandlerReceive s byte =
        { s with
          dataToRcv := s.dataToRcv.setIfInBounds s.uart1RcvIndex.toNat byte
          uart1RcvIndex := s.uart1RcvIndex + 1 } := by
      rw [uart1IRQHandlerReceive, if_pos capturing, uart1Capture_inside s byte (by omega)]
    have next := toNat_succ (n := s.uart1RcvIndex) (by omega)
    have index : s.uart1RcvIndex + 1 + BitVec.ofNat 16 rest.length =
        s.uart1RcvIndex + BitVec.ofNat 16 (rest.length + 1) := by
      rw [BitVec.ofNat_add, BitVec.add_assoc, BitVec.add_comm 1]
      rfl
    have tail := ih (uart1IRQHandlerReceive s byte) (by rw [step]; exact capturing)
      (by simp only [step, next]; omega)
    simp only [deliver, List.foldl_cons, List.length_cons, fillFrom] at tail ⊢
    rw [tail, step]
    simp only [next, index]

/-- The tail `UART1_IRQHandler` accepts. -/
def WellFormed (block : Vector INT8U 134) : Prop := block[132] = 0xE5 ∧ block[133] = 0x5E

instance (block : Vector INT8U 134) : Decidable (WellFormed block) :=
  inferInstanceAs (Decidable (_ ∧ _))

/-- A whole block replaces the buffer, and its last two bytes give the verdict. -/
theorem deliver_block (s : Uart1Rx) (block : Vector INT8U 134) (capturing : s.readyToRcv = 1)
    (fresh : s.uart1RcvIndex = 0) :
    deliver s block.toList =
      { s with
        dataToRcv := block
        uart1RcvOK := if WellFormed block then 1 else 0
        readyToRcv := 0
        uart1RcvIndex := 0 } := by
  have length : block.toList.length = 134 := Vector.length_toList
  have parts : block.toList = block.toList.take 133 ++ [block[133]] := by
    have bound : 133 < block.toList.length := by omega
    have last : block.toList[133] = block[133] := Vector.getElem_toList bound
    have split := List.take_append_drop 133 block.toList
    rw [List.drop_eq_getElem_cons (by omega), List.drop_of_length_le (by omega), last] at split
    exact split.symm
  have taken : (block.toList.take 133).length = 133 := by rw [List.length_take]; omega
  have inside := deliver_inside (block.toList.take 133) s capturing (by rw [fresh, taken]; decide)
  have filled : (fillFrom s.dataToRcv 0 (block.toList.take 133)).setIfInBounds 133 block[133] =
      block := by
    have whole := fillFrom_all s.dataToRcv block
    rw [parts, fillFrom_append, taken] at whole
    exact whole
  have marker : (fillFrom s.dataToRcv 0 (block.toList.take 133))[132] = block[132] := by
    rw [← Vector.getElem_setIfInBounds_ne (x := block[133]) (by omega : 132 < 134)
      (by decide : 133 ≠ 132)]
    simp only [filled]
  rw [parts, deliver, List.foldl_append]
  rw [deliver] at inside
  rw [inside, List.foldl_cons, List.foldl_nil, uart1IRQHandlerReceive, if_pos capturing,
    uart1Capture_last _ _ (by simp only [fresh, taken]; decide)]
  have zero : (0 : INT16U).toNat = 0 := rfl
  simp only [fresh, zero, filled, marker]
  rfl

/-- A header and a block, delivered to an idle receiver. -/
theorem deliver_frame (s : Uart1Rx) (block : Vector INT8U 134) (idle : s.readyToRcv = 0)
    (start : s.uart1RcvStart = 0 ∨ s.uart1RcvStart = 1) :
    deliver s (0x5A :: 0xA5 :: block.toList) =
      { dataToRcv := block
        uart1RcvOK := if WellFormed block then 1 else 0
        uart1RcvStart := 0
        readyToRcv := 0
        uart1RcvIndex := 0 } := by
  have header := deliver_header s idle start
  have split : deliver s (0x5A :: 0xA5 :: block.toList) =
      deliver (deliver s [0x5A, 0xA5]) block.toList := by
    simp only [deliver, ← List.foldl_append, List.cons_append, List.nil_append]
  rw [split, header, deliver_block _ block rfl rfl]

end GasSub.Source
