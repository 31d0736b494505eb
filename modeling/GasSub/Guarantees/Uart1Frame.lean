import GasSub.Source.Uart1Receive

/-!
# UART1 frames decode to what was encoded

`serialise` is the frame the port board sends, written down position by
position and independently of the receiver. Delivering it byte by byte to an
idle receiver and reading the block returns the encoded structure, whatever the
payload bytes are; and every payload byte belongs to exactly one field.
-/
namespace GasSub.Guarantees.Uart1Frame
open GasSub.Source GasSub.Library.ByteWord GasSub.Library.BufferFill

/-- The byte of the word, counted from its low end, at each position of a
word-swapped quadruple: b1 b0 b3 b2. -/
def swappedByte : Nat → Nat
  | 0 => 1
  | 1 => 0
  | 2 => 3
  | _ => 2

/-- Byte `k` of the 134-byte body. -/
def bodyByte (r : RcvStruct) (filler : Vector INT8U 2) (k : Fin 134) : INT8U :=
  if fre : k.val < 32 then byteOf r.fre[k.val / 2] (k.val % 2)
  else if ad : k.val < 64 then byteOf r.ad[(k.val - 32) / 2] (k.val % 2)
  else if gap : k.val < 66 then filler[k.val - 64]
  else if count : k.val < 130 then byteOf r.count[(k.val - 66) / 4] (swappedByte ((k.val - 66) % 4))
  else if k.val < 132 then byteOf r.sel (k.val - 130)
  else if k.val = 132 then 0xE5
  else 0x5E

def body (r : RcvStruct) (filler : Vector INT8U 2) : Vector INT8U 134 :=
  Vector.ofFn (bodyByte r filler)

/-- The frame on the line: header 5A A5, then the body. -/
def serialise (r : RcvStruct) (filler : Vector INT8U 2) : List INT8U :=
  0x5A :: 0xA5 :: (body r filler).toList

/-! ### The block decodes -/

@[simp] theorem body_getElem (r : RcvStruct) (filler : Vector INT8U 2) (k : Nat)
    (inside : k < 134) : (body r filler)[k] = bodyByte r filler ⟨k, inside⟩ := by
  simp [body]

theorem bodyByte_fre (r : RcvStruct) (filler : Vector INT8U 2) (i j k : Nat) (index : i < 16)
    (half : j < 2) (position : k = 2 * i + j) (inside : k < 134) :
    bodyByte r filler ⟨k, inside⟩ = byteOf r.fre[i] j := by
  have word : k / 2 = i := by omega
  have byte : k % 2 = j := by omega
  simp only [bodyByte, byte]
  rw [dif_pos (by omega), getElem_congr_idx word]

theorem bodyByte_ad (r : RcvStruct) (filler : Vector INT8U 2) (i j k : Nat) (index : i < 16)
    (half : j < 2) (position : k = 32 + 2 * i + j) (inside : k < 134) :
    bodyByte r filler ⟨k, inside⟩ = byteOf r.ad[i] j := by
  have word : (k - 32) / 2 = i := by omega
  have byte : k % 2 = j := by omega
  simp only [bodyByte, byte]
  rw [dif_neg (by omega), dif_pos (by omega), getElem_congr_idx word]

theorem bodyByte_count (r : RcvStruct) (filler : Vector INT8U 2) (i j k : Nat) (index : i < 16)
    (quarter : j < 4) (position : k = 66 + 4 * i + j) (inside : k < 134) :
    bodyByte r filler ⟨k, inside⟩ = byteOf r.count[i] (swappedByte j) := by
  have word : (k - 66) / 4 = i := by omega
  have byte : (k - 66) % 4 = j := by omega
  simp only [bodyByte, byte]
  rw [dif_neg (by omega), dif_neg (by omega), dif_neg (by omega), dif_pos (by omega),
    getElem_congr_idx word]

theorem readWords16_fre (r : RcvStruct) (filler : Vector INT8U 2) :
    readWords16 (body r filler) 0 (by decide) = r.fre := by
  apply Vector.ext
  intro i inside
  rw [getElem_readWords16, body_getElem, body_getElem,
    bodyByte_fre r filler i 1 _ inside (by omega) (by omega),
    bodyByte_fre r filler i 0 _ inside (by omega) (by omega), join16_bytes]

theorem readWords16_ad (r : RcvStruct) (filler : Vector INT8U 2) :
    readWords16 (body r filler) 32 (by decide) = r.ad := by
  apply Vector.ext
  intro i inside
  rw [getElem_readWords16, body_getElem, body_getElem,
    bodyByte_ad r filler i 1 _ inside (by omega) (by omega),
    bodyByte_ad r filler i 0 _ inside (by omega) (by omega), join16_bytes]

theorem readWords32_count (r : RcvStruct) (filler : Vector INT8U 2) :
    readWords32 (body r filler) 66 (by decide) = r.count := by
  apply Vector.ext
  intro i inside
  rw [getElem_readWords32, body_getElem, body_getElem, body_getElem, body_getElem,
    bodyByte_count r filler i 2 _ inside (by omega) (by omega),
    bodyByte_count r filler i 3 _ inside (by omega) (by omega),
    bodyByte_count r filler i 0 _ inside (by omega) (by omega),
    bodyByte_count r filler i 1 _ inside (by omega) (by omega)]
  exact join32_bytes r.count[i]

/-- Reading a serialised body gives back the structure, whatever the filler. -/
theorem decodeBody_body (r : RcvStruct) (filler : Vector INT8U 2) :
    decodeBody (body r filler) = r := by
  have sel : join16 (body r filler)[131] (body r filler)[130] = r.sel := by
    rw [body_getElem, body_getElem]
    exact join16_bytes r.sel
  rw [decodeBody, readWords16_fre, readWords16_ad, readWords32_count, sel]

/-! ### Which field a body byte belongs to -/

/-- The forty-nine fields of `RcvStruct`. -/
inductive Field where
  | fre (i : Fin 16)
  | ad (i : Fin 16)
  | count (i : Fin 16)
  | sel
  deriving DecidableEq, Repr

/-- The content of a field, as a number. -/
def Field.value (r : RcvStruct) : Field → Nat
  | .fre i => r.fre[i].toNat
  | .ad i => r.ad[i].toNat
  | .count i => r.count[i].toNat
  | .sel => r.sel.toNat

/-- The body positions a field is read from. -/
def Field.reads : Field → Nat → Prop
  | .fre i, k => k / 2 = i.val
  | .ad i, k => 32 ≤ k ∧ (k - 32) / 2 = i.val
  | .count i, k => 66 ≤ k ∧ (k - 66) / 4 = i.val
  | .sel, k => k = 130 ∨ k = 131

/-- Some change of byte `k` of some body changes what is read as `field`. -/
def Contributes (k : Fin 134) (field : Field) : Prop :=
  ∃ (block : Vector INT8U 134) (v : INT8U),
    field.value (decodeBody (block.set k v)) ≠ field.value (decodeBody block)

theorem getElem_set_eq_iff (block : Vector INT8U 134) (k : Fin 134) (v : INT8U) (j : Nat)
    (inside : j < 134) : (block.set k v)[j] = block[j] ↔ (k.val = j → v = block[k]) := by
  rw [Vector.getElem_set]
  by_cases same : k.val = j
  · subst same
    simp only [if_true, true_implies, Fin.getElem_fin]
  · simp only [same, if_false, false_implies]

/-- Positions outside a field leave it alone; every position of it matters. -/
theorem value_set_eq_iff (block : Vector INT8U 134) (k : Fin 134) (v : INT8U) (field : Field) :
    field.value (decodeBody (block.set k v)) = field.value (decodeBody block) ↔
      (field.reads k.val → v = block[k]) := by
  by_cases same : v = block[k.val]
  · cases field <;>
      simp only [Field.value, decodeBody, Fin.getElem_fin, getElem_readWords16,
        getElem_readWords32, BitVec.toNat_inj, join16_inj, join32_inj, getElem_set_eq_iff, same,
        implies_true, and_self]
  · cases field <;>
      simp only [Field.value, Field.reads, decodeBody, Fin.getElem_fin, getElem_readWords16,
        getElem_readWords32, BitVec.toNat_inj, join16_inj, join32_inj, getElem_set_eq_iff, same,
        imp_false] <;>
      omega

theorem contributes_iff (k : Fin 134) (field : Field) : Contributes k field ↔ field.reads k.val := by
  constructor
  · intro change
    obtain ⟨block, v, differs⟩ := change
    rw [ne_eq, value_set_eq_iff] at differs
    exact Classical.byContradiction fun outside => differs fun inside => absurd inside outside
  · intro inside
    refine ⟨Vector.replicate 134 0, 1, ?_⟩
    rw [ne_eq, value_set_eq_iff]
    intro unchanged
    have impossible := unchanged inside
    rw [Fin.getElem_fin, Vector.getElem_replicate] at impossible
    exact absurd impossible (by decide)

/-- The field a payload position belongs to. -/
def owner (k : Nat) (payload : k < 132) : Field :=
  if fre : k < 32 then .fre ⟨k / 2, by omega⟩
  else if ad : k < 64 then .ad ⟨(k - 32) / 2, by omega⟩
  else if count : k < 130 then .count ⟨(k - 66) / 4, by omega⟩
  else .sel

theorem reads_owner_iff (k : Nat) (payload : k < 132) (noGap : k ≠ 64 ∧ k ≠ 65) (field : Field) :
    field.reads k ↔ field = owner k payload := by
  unfold owner
  cases field with
  | fre i =>
    simp only [Field.reads]
    split_ifs <;> simp [Fin.ext_iff] <;> omega
  | ad i =>
    simp only [Field.reads]
    split_ifs <;> simp [Fin.ext_iff] <;> omega
  | count i =>
    simp only [Field.reads]
    split_ifs <;> simp [Fin.ext_iff] <;> omega
  | sel =>
    simp only [Field.reads]
    split_ifs <;> simp <;> omega

/-! ### Decoding undoes encoding -/

/-- What an idle receiver holds after a serialised frame. -/
theorem deliver_serialise (s : Uart1Rx) (r : RcvStruct) (filler : Vector INT8U 2)
    (idle : s.readyToRcv = 0) (start : s.uart1RcvStart = 0 ∨ s.uart1RcvStart = 1) :
    deliver s (serialise r filler) =
      { dataToRcv := body r filler
        uart1RcvOK := 1
        uart1RcvStart := 0
        readyToRcv := 0
        uart1RcvIndex := 0 } := by
  have tail : WellFormed (body r filler) := by
    rw [WellFormed, body_getElem, body_getElem]
    exact ⟨rfl, rfl⟩
  rw [serialise, deliver_frame s (body r filler) idle start, if_pos tail]

/-- Every frame is received and decoded to the structure it was made from, and
every payload byte counts in exactly one field. -/
theorem uart1GetStruct_serialise (s : Uart1Rx) (r : RcvStruct) (filler : Vector INT8U 2)
    (idle : s.readyToRcv = 0) (start : s.uart1RcvStart = 0 ∨ s.uart1RcvStart = 1) :
    let received := deliver s (serialise r filler)
    (received.uart1RcvOK = 1 ∧ received.readyToRcv = 0) ∧
      ((uart1GetStruct received).1 = some r ∧ (uart1GetStruct received).2.uart1RcvOK = 0) ∧
      ∀ k : Fin 134, k.val ∉ [64, 65, 132, 133] → ∃! field, Contributes k field := by
  intro received
  have state := deliver_serialise s r filler idle start
  refine ⟨?_, ?_, ?_⟩
  · simp only [received, state]
    exact ⟨trivial, trivial⟩
  · simp only [received, state, uart1GetStruct, decodeBody_body]
    exact ⟨rfl, rfl⟩
  · intro k outside
    simp only [List.mem_cons, List.not_mem_nil, not_or] at outside
    have payload : k.val < 132 := by omega
    have owned := reads_owner_iff k.val payload ⟨outside.1, outside.2.1⟩
    refine ⟨owner k.val payload, ?_, ?_⟩
    · exact (contributes_iff k _).mpr ((owned _).mpr rfl)
    · intro field contributes
      rw [contributes_iff] at contributes
      exact (owned field).mp contributes

/-- A receiver that has already seen a lone 5A, and a structure of alternating
header bytes. -/
theorem uart1GetStruct_serialise_header :
    let s : Uart1Rx := ⟨Vector.replicate 134 0, 0, 1, 0, 0⟩
    let r : RcvStruct :=
      ⟨Vector.replicate 16 0xA55A, Vector.replicate 16 0x5EE5, Vector.replicate 16 0x5AA5E55E, 0xA55A⟩
    let received := deliver s (serialise r #v[0xE5, 0x5E])
    (received.uart1RcvOK = 1 ∧ received.readyToRcv = 0) ∧
      ((uart1GetStruct received).1 = some r ∧ (uart1GetStruct received).2.uart1RcvOK = 0) ∧
      ∀ k : Fin 134, k.val ∉ [64, 65, 132, 133] → ∃! field, Contributes k field :=
  uart1GetStruct_serialise _ _ _ rfl (Or.inr rfl)

end GasSub.Guarantees.Uart1Frame
