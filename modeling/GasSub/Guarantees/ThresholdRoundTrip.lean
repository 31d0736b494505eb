import GasSub.Source.ConfigFile
import GasSub.Source.InitConf

/-!
# Thresholds and masks through the configuration file

What a configuration structure holds after its own records were read back. The
writers print the address of `outputControl` instead of its two bytes, and the
readers scan it last, as four bytes: the two that follow `outputControl` belong
to the first threshold. Masks and thresholds survive exactly when the word that
starts at `outputControl` happens to be its own address.
-/
namespace GasSub.Guarantees.ThresholdRoundTrip
open GasSub.Source GasSub.Library.ByteWord GasSub.Library.ByteMemory

/-- `outputControl` of the structure at the start of `m`. -/
def outputControlOf (m : Memory) : Vector INT8U 2 := #v[m outputControlAt, m (outputControlAt + 1)]

def rangeOf (m : Memory) (offset : Nat) : Range :=
  { minval := load32 m offset, maxval := load32 m (offset + 4) }

def currentOf (m : Memory) : Vector INT32S 3 :=
  #v[load32 m currentAt, load32 m (currentAt + 4), load32 m (currentAt + 8)]

/-- The structure at the start of `m` has the mask and the thresholds of `conf`. -/
def AnalogueKept (conf : AnalogueConfig) (m : Memory) : Prop :=
  outputControlOf m = conf.outputControl ∧ rangeOf m outageAt = conf.outage ∧
    rangeOf m recoverAt = conf.recover

/-- The structure at the start of `m` has the mask and the current levels of `conf`. -/
def TristateKept (conf : TristateConfig) (m : Memory) : Prop :=
  outputControlOf m = conf.outputControl ∧
    currentOf m = #v[conf.current0, conf.current1, conf.current2]

/-- In a structure at `address`, the word that starts at `outputControl` and takes in the
low half of the `next` field is the address of `outputControl`. -/
def HoldsOwnAddress (address : INT32U) (outputControl : Vector INT8U 2) (next : INT32S) : Prop :=
  address + BitVec.ofNat 32 outputControlAt =
    join32 (byteOf next 1) (byteOf next 0) (control1 outputControl)
      (control0 outputControl)

/-- A word over the mask and the low half of `next` leaves both unchanged exactly when
it is the word they make up. -/
theorem overlay_iff (word next : BitVec 32) (mask : Vector INT8U 2) :
    #v[byteOf word 0, byteOf word 1] = mask ∧
        join32 (byteOf next 3) (byteOf next 2) (byteOf word 3) (byteOf word 2) = next ↔
      word = join32 (byteOf next 1) (byteOf next 0) (control1 mask) (control0 mask) := by
  have parts := join32_inj (byteOf next 3) (byteOf next 2) (byteOf word 3) (byteOf word 2)
    (byteOf next 3) (byteOf next 2) (byteOf next 1) (byteOf next 0)
  have own := join32_inj (byteOf word 3) (byteOf word 2) (byteOf word 1) (byteOf word 0)
    (byteOf next 1) (byteOf next 0) (control1 mask) (control0 mask)
  rw [join32_bytes] at parts own
  rw [parts, own]
  constructor
  · intro both
    obtain ⟨masks, -, -, high, low⟩ := both
    subst masks
    exact ⟨high, low, rfl, rfl⟩
  · intro bytes
    obtain ⟨high, low, second, first⟩ := bytes
    refine ⟨?_, rfl, rfl, high, low⟩
    apply Vector.ext
    intro i inside
    rcases (by omega : i = 0 ∨ i = 1) with rfl | rfl
    · exact first
    · exact second

/-- The mask and the field after it, once a word was stored over `outputControl`. -/
theorem stored_iff (m : Memory) (word : BitVec 32) (mask : Vector INT8U 2) (next : INT32S)
    (held : load32 m (outputControlAt + 2) = next) :
    outputControlOf (store32 m outputControlAt word) = mask ∧
        load32 (store32 m outputControlAt word) (outputControlAt + 2) = next ↔
      word = join32 (byteOf next 1) (byteOf next 0) (control1 mask) (control0 mask) := by
  have first : store32 m outputControlAt word outputControlAt = byteOf word 0 :=
    store32_inside m outputControlAt 0 word (by decide)
  have second : store32 m outputControlAt word (outputControlAt + 1) = byteOf word 1 :=
    store32_inside m outputControlAt 1 word (by decide)
  have control : outputControlOf (store32 m outputControlAt word) =
      #v[byteOf word 0, byteOf word 1] :=
    congrArg₂ (fun low high => #v[low, high]) first second
  rw [control, load32_store32_half, held]
  exact overlay_iff word next mask

/-- Before the mask is read, the thresholds are those written. -/
theorem rangeOf_analogueRanges (conf : AnalogueConfig) (m : Memory) :
    rangeOf (analogueRanges conf m) outageAt = conf.outage ∧
      rangeOf (analogueRanges conf m) recoverAt = conf.recover := by
  unfold rangeOf analogueRanges
  constructor
  · rw [load32_storeRange_outside _ recoverAt outageAt _ (by decide),
      load32_storeRange_outside _ recoverAt (outageAt + 4) _ (by decide)]
    simp only [load32_storeRange]
  · simp only [load32_storeRange]

/-- A word stored over `outputControl` leaves everything from `outage.maxval` on alone. -/
theorem load32_control (m : Memory) (word : BitVec 32) (number : Option (BitVec 32)) (a : Nat)
    (later : outputControlAt + 4 ≤ a) (inside : a + 4 ≤ coefficientAt) :
    load32 (storeFloat (store32 m outputControlAt word) coefficientAt number) a = load32 m a := by
  rw [load32_storeFloat_outside _ _ _ _ (Or.inl inside), load32_store32_outside _ _ _ _ (Or.inr later)]

theorem analogueReadBack_kept_iff (address : INT32U) (conf : AnalogueConfig) (m : Memory) :
    AnalogueKept conf (analogueReadBack address conf m) ↔
      HoldsOwnAddress address conf.outputControl conf.outage.minval := by
  obtain ⟨outage, recover⟩ := rangeOf_analogueRanges conf m
  have minval : load32 (analogueRanges conf m) (outputControlAt + 2) = conf.outage.minval :=
    congrArg Range.minval outage
  have own := stored_iff (analogueRanges conf m) (address + BitVec.ofNat 32 outputControlAt)
    conf.outputControl conf.outage.minval minval
  have control : outputControlOf (analogueReadBack address conf m) =
      outputControlOf (store32 (analogueRanges conf m) outputControlAt
        (address + BitVec.ofNat 32 outputControlAt)) := by
    unfold outputControlOf analogueReadBack
    rw [storeFloat_outside _ coefficientAt outputControlAt _ (by decide),
      storeFloat_outside _ coefficientAt (outputControlAt + 1) _ (by decide)]
  have low : load32 (analogueReadBack address conf m) outageAt =
      load32 (store32 (analogueRanges conf m) outputControlAt
        (address + BitVec.ofNat 32 outputControlAt)) (outputControlAt + 2) :=
    load32_storeFloat_outside _ coefficientAt outageAt _ (by decide)
  have later : ∀ a, outputControlAt + 4 ≤ a → a + 4 ≤ coefficientAt →
      load32 (analogueReadBack address conf m) a = load32 (analogueRanges conf m) a :=
    load32_control _ _ _
  have recovers : rangeOf (analogueReadBack address conf m) recoverAt = conf.recover := by
    rw [← recover]
    unfold rangeOf
    rw [later recoverAt (by decide) (by decide), later (recoverAt + 4) (by decide) (by decide)]
  have maxval : load32 (analogueReadBack address conf m) (outageAt + 4) = conf.outage.maxval := by
    rw [later (outageAt + 4) (by decide) (by decide)]
    exact congrArg Range.maxval outage
  have outages : rangeOf (analogueReadBack address conf m) outageAt = conf.outage ↔
      load32 (analogueReadBack address conf m) outageAt = conf.outage.minval := by
    unfold rangeOf
    rw [maxval]
    exact ⟨congrArg Range.minval, fun same => by rw [same]⟩
  unfold AnalogueKept HoldsOwnAddress
  rw [← own, outages, low, control]
  exact ⟨fun kept => ⟨kept.1, kept.2.1⟩, fun kept => ⟨kept.1, kept.2, recovers⟩⟩

theorem tristateReadBack_kept_iff (address : INT32U) (conf : TristateConfig) (m : Memory) :
    TristateKept conf (tristateReadBack address conf m) ↔
      HoldsOwnAddress address conf.outputControl conf.current0 := by
  obtain ⟨first, second, third⟩ := load32_tristateCurrents conf m
  have own := stored_iff (tristateCurrents conf m) (address + BitVec.ofNat 32 outputControlAt)
    conf.outputControl conf.current0 first
  have low : load32 (tristateReadBack address conf m) currentAt =
      load32 (store32 (tristateCurrents conf m) outputControlAt
        (address + BitVec.ofNat 32 outputControlAt)) (outputControlAt + 2) := rfl
  have later : ∀ a, outputControlAt + 4 ≤ a →
      load32 (tristateReadBack address conf m) a = load32 (tristateCurrents conf m) a :=
    fun a beyond => load32_store32_outside _ _ _ _ (Or.inr beyond)
  have currents : currentOf (tristateReadBack address conf m) =
      #v[load32 (tristateReadBack address conf m) currentAt, conf.current1, conf.current2] :=
    congrArg₂ (fun level level' => #v[load32 (tristateReadBack address conf m) currentAt, level, level'])
      ((later (currentAt + 4) (by decide)).trans second)
      ((later (currentAt + 8) (by decide)).trans third)
  have firstOnly : ∀ level : INT32S,
      (#v[level, conf.current1, conf.current2] : Vector INT32S 3) =
          #v[conf.current0, conf.current1, conf.current2] ↔
        level = conf.current0 := by
    intro level
    simp only [Vector.mk.injEq, Array.mk.injEq, List.cons.injEq, and_true]
  have control : outputControlOf (tristateReadBack address conf m) =
      outputControlOf (store32 (tristateCurrents conf m) outputControlAt
        (address + BitVec.ofNat 32 outputControlAt)) := rfl
  unfold TristateKept HoldsOwnAddress
  rw [← own, currents, firstOnly, low, control]

/-- What was written for a test point is read back with the mask and the thresholds it
had exactly when its structure holds its own address at `outputControl`. -/
theorem roundTrip_iff (address : INT32U) (analogue : AnalogueConfig) (tristate : TristateConfig)
    (more : List (List INT8U)) (m : Memory) :
    (AnalogueKept analogue (fileGetConfigAnalogue
          (yaffsRead (fileSetConfigAnalogue address analogue ++ more)).2 m).1 ↔
        HoldsOwnAddress address analogue.outputControl analogue.outage.minval) ∧
      (TristateKept tristate (fileGetConfigTristate
          (yaffsRead (fileSetConfigTristate address tristate ++ more)).2 m).1 ↔
        HoldsOwnAddress address tristate.outputControl tristate.current0) := by
  rw [fileGetConfigAnalogue_written, fileGetConfigTristate_written]
  exact ⟨analogueReadBack_kept_iff address analogue m, tristateReadBack_kept_iff address tristate m⟩

/-- The default analogue configuration at 0x10000100 comes back with the mask 26 01. -/
theorem roundTrip_initConf :
    let records := fileSetConfigAnalogue 0x10000100 initConfAnalogue
    let after := (fileGetConfigAnalogue (yaffsRead records).2 fun _ => 0).1
    initConfAnalogue.outputControl = #v[0x80, 0xFF] ∧ outputControlOf after = #v[0x26, 0x01] ∧
      ¬ AnalogueKept initConfAnalogue after := by
  have written := fileGetConfigAnalogue_written 0x10000100 initConfAnalogue [] fun _ => 0
  rw [List.append_nil] at written
  intro records after
  have back : after = analogueReadBack 0x10000100 initConfAnalogue fun _ => 0 :=
    congrArg Prod.fst written
  rw [back]
  refine ⟨rfl, ?_, fun kept => ?_⟩
  · decide
  · exact absurd kept.1 (by decide)

end GasSub.Guarantees.ThresholdRoundTrip
