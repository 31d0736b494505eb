import GasSub.Source.EquipmentList
import GasSub.Source.InitConf
import GasSub.Source.Uart1Receive

/-!
# Large counts

A count is received in four bytes and kept unsigned in `RcvStruct`. The test point
stores it in the signed `collectData`, where the upper half of its range is negative
and below every maximum.
-/
namespace GasSub.Guarantees.CounterAlarm
open GasSub.Library.ByteWord GasSub.Source

/-- The channel of a point within the group its port type selects. -/
def channelOf (conf : AnalogueConfig) : Fin 16 :=
  ⟨conf.portType.toNat % 16, Nat.mod_lt _ (by decide)⟩

/-- The number in the four bytes that a channel's counter arrives in. -/
def receivedCount (dataToRcv : Vector INT8U 134) (channel : Fin 16) : Nat :=
  let num := 66 + 4 * channel.val
  65536 * (256 * dataToRcv[num + 2].toNat + dataToRcv[num + 3].toNat) +
    (256 * dataToRcv[num].toNat + dataToRcv[num + 1].toNat)

/-- Reaching a configured maximum that is not negative gives the verdict. -/
def ReachedAt (range : Range) (count : Nat) (verdict : Option Bool) : Prop :=
  range.maxval ≠ valueUndef → 0 ≤ range.maxval.toInt → range.maxval.toInt ≤ count →
    verdict = some true

/-- A count that reaches the maxima of a point raises the alarm and cuts. -/
structure LargeCountsAlarm (dataToRcv : Vector INT8U 134) (conf : AnalogueConfig)
    (updated : Testpoint) : Prop where
  alarm : ReachedAt conf.alarm (receivedCount dataToRcv (channelOf conf))
    (ifAlarmAnalogue updated)
  output : ReachedAt conf.outage (receivedCount dataToRcv (channelOf conf))
    (ifOutputAnalogue updated)

/-- The count is positive as a signed number, or no maximum that is not negative is
configured, or the negative number it becomes reaches the configured minimum. -/
def SignedSound (range : Range) (count : Nat) : Prop :=
  count < 2 ^ 31 ∨ range.maxval = valueUndef ∨ range.maxval.toInt < 0 ∨
    (range.minval ≠ valueUndef ∧ (count : Int) - 2 ^ 32 ≤ range.minval.toInt)

theorem count_toNat (dataToRcv : Vector INT8U 134) (channel : Fin 16) :
    ((decodeBody dataToRcv).count.get channel).toNat = receivedCount dataToRcv channel := by
  have word := getElem_readWords32 dataToRcv 66 (by decide) channel.val channel.isLt
  change (readWords32 dataToRcv 66 (by decide))[channel.val].toNat = _
  rw [word, toNat_join32, toNat_join16, toNat_join16]
  rfl

/-- One range: the signed reading of a count reaches it exactly when it is sound. -/
theorem reachedAt_iff (range : Range) (count : INT32U) :
    ReachedAt range count.toNat (some (reachesBound range count)) ↔ SignedSound range count.toNat := by
  have small := count.isLt
  have signed := BitVec.toInt_eq_toNat_cond count
  rw [ReachedAt, SignedSound, Option.some.injEq, reachesBound_iff]
  by_cases positive : count.toNat < 2 ^ 31
  · have value : count.toInt = count.toNat := by
      rw [signed, if_pos (by omega)]
    simp only [positive, true_or, iff_true, value]
    intro configured _ reached
    exact Or.inr ⟨configured, reached⟩
  · have value : count.toInt = count.toNat - 2 ^ 32 := by
      rw [signed, if_neg (by omega)]
      rfl
    have maximum := BitVec.toInt_lt (x := range.maxval)
    rw [value]
    constructor
    · intro reaches
      by_cases configured : range.maxval = valueUndef
      · exact Or.inr (Or.inl configured)
      · by_cases negative : range.maxval.toInt < 0
        · exact Or.inr (Or.inr (Or.inl negative))
        · rcases reaches configured (by omega) (by omega) with low | high
          · exact Or.inr (Or.inr (Or.inr low))
          · omega
    · rintro (below | undefined | negative | low) configured notNegative reached
      · exact absurd below positive
      · exact absurd undefined configured
      · omega
      · exact Or.inl low

/-- A counter point decides on the count of its channel. -/
theorem collected_counter {tp : Testpoint} {conf : AnalogueConfig} (rev : RcvStruct)
    (analogue : tp.config = some (.analogue conf))
    (counter : conf.portType.toNat / 16 = portCount) :
    let count := rev.count.get (channelOf conf)
    getDataFromUartAnalogue rev tp = some (tp.collect rev conf.portType) ∧
      ifAlarmAnalogue (tp.collect rev conf.portType) = some (reachesBound conf.alarm count) ∧
      ifOutputAnalogue (tp.collect rev conf.portType) = some (reachesBound conf.outage count) := by
  have stored : (tp.collect rev conf.portType).upload.collectData =
      rev.count.get (channelOf conf) := by
    simp only [Testpoint.collect, portValue, counter]
    rfl
  have config : (tp.collect rev conf.portType).analogueConf = some conf := by
    have kept : (tp.collect rev conf.portType).config = some (.analogue conf) := analogue
    rw [Testpoint.analogueConf, kept]
  refine ⟨?_, ?_, ?_⟩
  · rw [getDataFromUartAnalogue, analogue]
  · rw [ifAlarmAnalogue, config, Option.map_some, stored]
  · rw [ifOutputAnalogue, config, Option.map_some, stored]

/-- A counter point alarms and cuts on large counts exactly when the signed reading of
the count is sound for its two ranges. -/
theorem largeCounts_iff (rx : Uart1Rx) (tp : Testpoint) (conf : AnalogueConfig)
    (ready : rx.uart1RcvOK ≠ 0) (analogue : tp.config = some (.analogue conf))
    (counter : conf.portType.toNat / 16 = portCount) :
    (∃ rev updated, (uart1GetStruct rx).1 = some rev ∧
        getDataFromUartAnalogue rev tp = some updated ∧
        LargeCountsAlarm rx.dataToRcv conf updated) ↔
      SignedSound conf.alarm (receivedCount rx.dataToRcv (channelOf conf)) ∧
        SignedSound conf.outage (receivedCount rx.dataToRcv (channelOf conf)) := by
  have received := count_toNat rx.dataToRcv (channelOf conf)
  have got : (uart1GetStruct rx).1 = some (decodeBody rx.dataToRcv) := by
    rw [uart1GetStruct, if_neg ready]
  obtain ⟨read, alarm, output⟩ := collected_counter (decodeBody rx.dataToRcv) analogue counter
  rw [← received, ← reachedAt_iff, ← reachedAt_iff, ← alarm, ← output, received]
  constructor
  · rintro ⟨rev, other, gotRev, readOther, alarms⟩
    obtain rfl : decodeBody rx.dataToRcv = rev := Option.some.inj (got.symm.trans gotRev)
    obtain rfl := Option.some.inj (read.symm.trans readOther)
    exact ⟨alarms.alarm, alarms.output⟩
  · rintro ⟨alarms, cuts⟩
    exact ⟨_, _, got, read, alarms, cuts⟩

/-- The default methane point, moved to the first counter channel. -/
def counterConf : AnalogueConfig := { initConfAnalogue with portType := 32 }

/-- A receiver that has a block ready, filled with one byte. -/
def filledWith (byte : INT8U) : Uart1Rx :=
  { dataToRcv := Vector.replicate 134 byte
    uart1RcvOK := 1
    uart1RcvStart := 0
    readyToRcv := 0
    uart1RcvIndex := 0 }

theorem largeCounts_iff_zero :
    (∃ rev updated, (uart1GetStruct (filledWith 0)).1 = some rev ∧
        getDataFromUartAnalogue rev (initTestpoint (.analogue counterConf)) = some updated ∧
        LargeCountsAlarm (filledWith 0).dataToRcv counterConf updated) ↔
      SignedSound counterConf.alarm (receivedCount (filledWith 0).dataToRcv (channelOf counterConf)) ∧
        SignedSound counterConf.outage
          (receivedCount (filledWith 0).dataToRcv (channelOf counterConf)) :=
  largeCounts_iff (filledWith 0) (initTestpoint (.analogue counterConf)) counterConf (by decide)
    (by decide) (by decide)

/-- The count 2^32 - 1 is the reading -1, and no alarm at 70. -/
theorem largeCounts_silent :
    ∃ rev updated, (uart1GetStruct (filledWith 0xFF)).1 = some rev ∧
      getDataFromUartAnalogue rev (initTestpoint (.analogue counterConf)) = some updated ∧
      ¬ LargeCountsAlarm (filledWith 0xFF).dataToRcv counterConf updated := by
  refine ⟨_, _, rfl, rfl, fun alarms => ?_⟩
  have verdict := alarms.alarm (by decide) (by decide) (by decide)
  exact absurd verdict (by decide)

end GasSub.Guarantees.CounterAlarm
