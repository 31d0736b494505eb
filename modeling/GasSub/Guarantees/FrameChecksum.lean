import GasSub.Library.CyclicCode
import GasSub.Source.MbRtuMaster
import Mathlib.Data.List.Basic

/-!
# The checksum of a Modbus frame

`usMBCRC16` walks two tables of bytes. What it computes is the remainder of the frame's
bits, the lowest bit of each byte first, by the generator polynomial, from a register of
ones on. A frame has the checksum zero exactly when its last two bytes are the checksum
of the bytes before them, the low one first, and a damaged frame has not when the damage
is an odd number of bits, up to three bits, or lies within sixteen bits in a row.
-/
namespace GasSub.Guarantees.FrameChecksum
open GasSub.Source
open GasSub.Library.CyclicCode

/-- `x^16 + x^15 + x^2 + 1`, the lowest power on top. -/
def generator : BitVec 16 := 0xA001

/-- The two bytes of a checksum as one word. -/
def checksumWord (crc : INT8U × INT8U) : BitVec 16 := crc.1 ++ crc.2

/-- A frame bit by bit, as it goes over the line. -/
def wireBits (frame : List INT8U) : List Bool := frame.flatMap bitsOf

theorem checksumWord_injective {a b : INT8U × INT8U} (same : checksumWord a = checksumWord b) :
    a = b := by
  have high := congrArg (fun x : BitVec 16 => x.extractLsb' 8 8) same
  have low := congrArg (fun x : BitVec 16 => x.extractLsb' 0 8) same
  simp only [checksumWord, BitVec.extractLsb'_append_eq_left,
    BitVec.extractLsb'_append_eq_right] at high low
  exact Prod.ext high low

/-! ### The tables -/

/-- Entry `i` of the two tables is what eight shifts make of `i`. -/
theorem table_entry (index : INT8U) :
    checksumWord (aucCRCLo.getD index.toNat 0, aucCRCHi.getD index.toNat 0) =
      shifts generator 8 (index.setWidth 16) := by
  have all : (List.range 256).all (fun i =>
      checksumWord (aucCRCLo.getD i 0, aucCRCHi.getD i 0) == shifts generator 8 (BitVec.ofNat 16 i))
      = true := by decide +kernel
  rw [List.all_eq_true] at all
  have entry := all index.toNat (List.mem_range.mpr index.isLt)
  rw [beq_iff_eq] at entry
  rw [entry]
  exact congrArg _ (BitVec.eq_of_toNat_eq (by rw [BitVec.toNat_setWidth, BitVec.toNat_ofNat]))

/-- A byte in the upper half only moves down. -/
theorem shifts_upper (high : INT8U) : shifts generator 8 (high ++ 0#8) = high.setWidth 16 := by
  have all : (List.range 256).all (fun i =>
      shifts generator 8 (BitVec.ofNat 8 i ++ 0#8) == (BitVec.ofNat 8 i).setWidth 16) = true := by
    decide +kernel
  rw [List.all_eq_true] at all
  have entry := all high.toNat (List.mem_range.mpr high.isLt)
  rw [beq_iff_eq, BitVec.ofNat_toNat, BitVec.setWidth_eq] at entry
  exact entry

theorem spread_bitsOf (byte : INT8U) : (spread (bitsOf byte) : BitVec 16) = byte.setWidth 16 := by
  apply BitVec.eq_of_getLsbD_eq
  intro i inside
  rw [getLsbD_spread, BitVec.getLsbD_setWidth, decide_eq_true inside, Bool.true_and, Bool.true_and,
    bitsOf, List.getD_eq_getElem?_getD, List.getElem?_map]
  by_cases low : i < 8
  · rw [List.getElem?_range low]
    rfl
  · rw [List.getElem?_eq_none (by rw [List.length_range]; omega)]
    exact (BitVec.getLsbD_of_ge byte i (by omega)).symm

/-- One pass of the loop takes the eight bits of a byte. -/
theorem checksumWord_crcByte (crc : INT8U × INT8U) (byte : INT8U) :
    checksumWord (crcByte crc byte) = remainder generator (checksumWord crc) (bitsOf byte) := by
  obtain ⟨high, low⟩ := crc
  have eight : (bitsOf byte).length = 8 := by rw [bitsOf, List.length_map, List.length_range]
  have halves : checksumWord (high, low) ^^^ byte.setWidth 16 =
      (high ++ 0#8) ^^^ (low ^^^ byte).setWidth 16 := by
    apply BitVec.eq_of_getLsbD_eq
    intro i inside
    simp only [checksumWord, BitVec.getLsbD_xor, BitVec.getLsbD_append, BitVec.getLsbD_setWidth]
    by_cases lower : i < 8
    · simp [lower, inside]
    · simp [lower, BitVec.getLsbD_of_ge byte i (by omega), BitVec.getLsbD_of_ge low i (by omega)]
  have tables : checksumWord (crcByte (high, low) byte) =
      high.setWidth 16 ^^^ checksumWord (aucCRCLo.getD (low ^^^ byte).toNat 0,
        aucCRCHi.getD (low ^^^ byte).toNat 0) := by
    apply BitVec.eq_of_getLsbD_eq
    intro i inside
    simp only [crcByte, checksumWord, BitVec.getLsbD_xor, BitVec.getLsbD_append,
      BitVec.getLsbD_setWidth]
    by_cases lower : i < 8
    · simp [lower, inside]
    · simp [lower, BitVec.getLsbD_of_ge high i (by omega)]
  rw [remainder_spread _ _ (by rw [eight]; decide), eight, spread_bitsOf, halves, shifts_xor,
    shifts_upper, ← table_entry, tables]

theorem checksumWord_foldl (crc : INT8U × INT8U) (frame : List INT8U) :
    checksumWord (frame.foldl crcByte crc) = remainder generator (checksumWord crc) (wireBits frame) := by
  induction frame generalizing crc with
  | nil => rfl
  | cons byte rest ih =>
    rw [List.foldl_cons, ih, checksumWord_crcByte, ← remainder_append]
    rfl

theorem checksumWord_usMBCRC16 (frame : List INT8U) :
    checksumWord (usMBCRC16 frame) = remainder generator 0xFFFF (wireBits frame) :=
  checksumWord_foldl (0xFF, 0xFF) frame

/-! ### Accepted frames -/

theorem full_generator : Full generator := by decide

theorem usMBCRC16_append (body tail : List INT8U) :
    usMBCRC16 (body ++ tail) = tail.foldl crcByte (usMBCRC16 body) := List.foldl_append

/-- Two more bytes shift out all that the register held. -/
theorem checksumWord_two (crc : INT8U × INT8U) (lo hi : INT8U) :
    checksumWord ([lo, hi].foldl crcByte crc) =
      shifts generator 16 (checksumWord crc ^^^ checksumWord (hi, lo)) := by
  have bits : wireBits [lo, hi] = bitsOf lo ++ bitsOf hi := by
    rw [wireBits, List.flatMap_cons, List.flatMap_cons, List.flatMap_nil, List.append_nil]
  have sixteen : (bitsOf lo ++ bitsOf hi).length = 16 := by
    rw [List.length_append, bitsOf, bitsOf, List.length_map, List.length_map, List.length_range]
  have word : (spread (bitsOf lo ++ bitsOf hi) : BitVec 16) = checksumWord (hi, lo) := by
    apply BitVec.eq_of_getLsbD_eq
    intro i inside
    rw [getLsbD_spread, decide_eq_true inside, Bool.true_and, checksumWord, BitVec.getLsbD_append,
      List.getD_eq_getElem?_getD]
    by_cases lower : i < 8
    · rw [List.getElem?_append_left (by rw [bitsOf, List.length_map, List.length_range]; exact lower)]
      simp [lower, bitsOf]
    · rw [List.getElem?_append_right (by rw [bitsOf, List.length_map, List.length_range]; omega)]
      have place : i - 8 < 8 := by omega
      simp [lower, bitsOf, place]
  rw [checksumWord_foldl, bits, remainder_spread _ _ (by rw [sixteen]), sixteen, word]

/-- The checksum of a frame is zero exactly when its last two bytes are the checksum of
what stands before them, the low byte first. -/
theorem usMBCRC16_eq_zero_iff (body : List INT8U) (lo hi : INT8U) :
    usMBCRC16 (body ++ [lo, hi]) = (0, 0) ↔ usMBCRC16 body = (hi, lo) := by
  have two := checksumWord_two (usMBCRC16 body) lo hi
  rw [← usMBCRC16_append] at two
  have zero : checksumWord ((0, 0) : INT8U × INT8U) = 0 := by decide
  constructor
  · intro accepted
    rw [accepted, zero] at two
    exact checksumWord_injective
      (BitVec.xor_eq_zero_iff.mp (eq_zero_of_shifts full_generator two.symm))
  · intro appended
    rw [appended] at two
    apply checksumWord_injective
    rw [two, zero]
    exact (congrArg _ BitVec.xor_self).trans (shifts_zero generator 16)

theorem length_wireBits (frame : List INT8U) : (wireBits frame).length = 8 * frame.length := by
  induction frame with
  | nil => rfl
  | cons byte rest ih =>
    have eight : (bitsOf byte).length = 8 := by rw [bitsOf, List.length_map, List.length_range]
    rw [wireBits, List.flatMap_cons, List.length_append, eight]
    have tail : (rest.flatMap bitsOf).length = 8 * rest.length := ih
    rw [tail, List.length_cons]
    omega

/-- No frame shorter than a checksum passes. -/
theorem usMBCRC16_short {frame : List INT8U} (short : frame.length < 2) :
    usMBCRC16 frame ≠ (0, 0) := by
  intro zero
  have word := checksumWord_usMBCRC16 frame
  have cleared : checksumWord ((0, 0) : INT8U × INT8U) = 0 := by decide
  have bits : (wireBits frame).length ≤ 8 := by
    rw [length_wireBits]
    omega
  rw [zero, cleared, remainder_spread _ _ (by omega)] at word
  -- the frame has not reached the upper half of the register, which starts with ones
  have register := congrArg (fun w : BitVec 16 => w.getLsbD 15) (eq_zero_of_shifts full_generator word.symm)
  have outside : (wireBits frame).getD 15 false = false := by
    rw [List.getD_eq_getElem?_getD, List.getElem?_eq_none (by omega)]
    rfl
  have top : (0xFFFF : BitVec 16).getLsbD 15 = true := by decide
  have nothing : (0 : BitVec 16).getLsbD 15 = false := by decide
  simp only [BitVec.getLsbD_xor, getLsbD_spread, outside, top, nothing, Bool.and_false,
    Bool.xor_false] at register
  exact Bool.noConfusion register

/-- The table walk computes the remainder of the frame's bits by the generator, and it
comes out zero exactly for the frames that end with the checksum of what stands before
them, the low byte first. -/
theorem checksum_is_remainder (frame : List INT8U) :
    checksumWord (usMBCRC16 frame) = remainder generator 0xFFFF (wireBits frame) ∧
      (usMBCRC16 frame = (0, 0) ↔
        ∃ body, frame = body ++ [(usMBCRC16 body).2, (usMBCRC16 body).1]) := by
  refine ⟨checksumWord_usMBCRC16 frame, fun accepted => ?_, fun ⟨body, ends⟩ => ?_⟩
  · by_cases short : frame.length < 2
    · exact absurd accepted (usMBCRC16_short short)
    · have tail : (frame.drop (frame.length - 2)).length = 2 := by
        rw [List.length_drop]
        omega
      obtain ⟨lo, hi, last⟩ := List.length_eq_two.mp tail
      have split : frame = frame.take (frame.length - 2) ++ [lo, hi] := by
        rw [← last, List.take_append_drop]
      refine ⟨frame.take (frame.length - 2), ?_⟩
      have whole := accepted
      rw [split, usMBCRC16_eq_zero_iff] at whole
      rw [whole]
      exact split
  · rw [ends]
    exact (usMBCRC16_eq_zero_iff body _ _).mpr rfl

/-! ### Damage -/

/-- What the checksum notices: the number of damaged bits is odd or at most three, or all
of them lie within sixteen bits in a row. -/
structure Noticed (damage : List Bool) : Prop where
  some : true ∈ damage
  few : parity damage = true ∨ damage.count true ≤ 3 ∨
    ∃ before stretch after, Burst damage before stretch after ∧ stretch.length ≤ 16

theorem replicate_false {places : List Bool} (clear : true ∉ places) :
    places = List.replicate places.length false := by
  refine List.eq_replicate_iff.mpr ⟨rfl, fun b member => ?_⟩
  cases b with
  | false => rfl
  | true => exact absurd member clear

theorem parity_eq (damage : List Bool) : parity damage = decide (damage.count true % 2 = 1) := by
  induction damage with
  | nil => rfl
  | cons b rest ih =>
    cases b with
    | false => rw [parity, ih, Bool.false_xor, List.count_cons_of_ne (by decide)]
    | true =>
      rw [parity, ih, Bool.true_xor, List.count_cons_self, ← decide_not, decide_eq_decide]
      omega

/-- In a frame of at most 256 bytes the register does not come back to one. -/
theorem returns_late {apart : Nat} (short : apart < 2048) :
    shifts generator (apart + 1) (lowest true) ≠ lowest true :=
  shifts_ne_of_awayFrom (n := 2048) (by decide +kernel) short

/-- Two damaged bits. -/
theorem remainder_two {damage : List Bool} (two : damage.count true = 2)
    (short : damage.length ≤ 2048) : remainder generator 0 damage ≠ 0 := by
  have some : true ∈ damage := List.count_pos_iff.mp (by omega)
  obtain ⟨before, rest, split, clear⟩ := List.eq_append_cons_of_mem some
  have one : rest.count true = 1 := by
    rw [split, List.count_append, List.count_eq_zero.mpr clear, List.count_cons_self] at two
    omega
  obtain ⟨apart, after, split', clear'⟩ := List.eq_append_cons_of_mem
    (List.count_pos_iff.mp (by omega : 0 < rest.count true))
  have none : true ∉ after := by
    rw [split', List.count_append, List.count_eq_zero.mpr clear', List.count_cons_self] at one
    exact List.count_eq_zero.mp (by omega)
  have inside : apart.length < 2048 := by
    rw [split, split'] at short
    simp only [List.length_append, List.length_cons] at short
    omega
  have pair := remainder_pair full_generator before.length apart.length after.length
    (returns_late inside)
  rw [← replicate_false clear, ← replicate_false clear', ← replicate_false none] at pair
  rw [split, split']
  simpa only [List.append_assoc, List.cons_append, List.nil_append] using pair

theorem remainder_noticed {damage : List Bool} (noticed : Noticed damage)
    (short : damage.length ≤ 2048) : remainder generator 0 damage ≠ 0 := by
  have weight : parity (bitsOf generator) = true := by decide
  have odd : parity damage = true → remainder generator 0 damage ≠ 0 :=
    remainder_odd (by decide) weight
  rcases noticed.few with odds | three | burst
  · exact odd odds
  · by_cases two : damage.count true = 2
    · exact remainder_two two short
    · have positive := List.count_pos_iff.mpr noticed.some
      refine odd ?_
      rw [parity_eq, decide_eq_true_eq]
      omega
  · obtain ⟨before, stretch, after, burst, within⟩ := burst
    exact remainder_burst full_generator burst within

/-- A frame that differs from an accepted one by damage the checksum notices is refused. -/
theorem usMBCRC16_damaged {sent received : List INT8U} (same : received.length = sent.length)
    (short : sent.length ≤ 256) (accepted : usMBCRC16 sent = (0, 0))
    (noticed : Noticed (difference (wireBits sent) (wireBits received))) :
    usMBCRC16 received ≠ (0, 0) := by
  intro zero
  have lengths : (wireBits sent).length = (wireBits received).length := by
    rw [length_wireBits, length_wireBits, same]
  have sum := remainder_difference generator 0xFFFF 0xFFFF lengths
  rw [← checksumWord_usMBCRC16, ← checksumWord_usMBCRC16, accepted, zero] at sum
  refine remainder_noticed noticed ?_ sum
  rw [difference, List.length_zipWith, length_wireBits, length_wireBits]
  omega

end GasSub.Guarantees.FrameChecksum
