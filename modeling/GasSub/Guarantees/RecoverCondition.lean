import GasSub.Source.EquipmentList
import GasSub.Source.InitConf

/-!
# The cut and the recover condition

A configuration that cuts and recovers at an upper threshold, as `initConf` builds
it. Recovering compares as cutting does, at or above its threshold, where lifting an
alarm compares the other way: every reading that cuts recovers too, and no reading
below the recover threshold does.
-/
namespace GasSub.Guarantees.RecoverCondition
open GasSub.Source

/-- Only the maximum is configured. -/
structure UpperOnly (range : Range) : Prop where
  minval : range.minval = valueUndef
  maxval : range.maxval ≠ valueUndef

/-- Cut and recover thresholds above which to cut and below which to recover. -/
structure CutShape (conf : AnalogueConfig) : Prop where
  outage : UpperOnly conf.outage
  recover : UpperOnly conf.recover
  ordered : conf.recover.maxval.toInt ≤ conf.outage.maxval.toInt

/-- The point never cuts and recovers at once, and recovers below both thresholds. -/
structure Exclusive (tp : Testpoint) (conf : AnalogueConfig) : Prop where
  apart : ¬ (ifOutputAnalogue tp = some true ∧ ifRecoverAnalogue tp = some true)
  restores : tp.upload.collectData.toInt < conf.outage.maxval.toInt →
    tp.upload.collectData.toInt < conf.recover.maxval.toInt → ifRecoverAnalogue tp = some true

theorem reachesBound_upper {range : Range} (upper : UpperOnly range) (data : INT32S) :
    reachesBound range data = true ↔ range.maxval.toInt ≤ data.toInt := by
  have escaped : ¬ (range.minval ≠ valueUndef ∧ data.toInt ≤ range.minval.toInt) :=
    fun both => both.1 upper.minval
  rw [reachesBound_iff, or_iff_right escaped]
  exact and_iff_right upper.maxval

/-- For every reading, the two conditions exclude each other and recovery comes back exactly
between the thresholds. -/
theorem exclusive_iff {tp : Testpoint} {conf : AnalogueConfig}
    (analogue : tp.config = some (.analogue conf)) (shape : CutShape conf) :
    Exclusive tp conf ↔ conf.recover.maxval.toInt ≤ tp.upload.collectData.toInt ∧
      tp.upload.collectData.toInt < conf.outage.maxval.toInt := by
  have config : tp.analogueConf = some conf := by rw [Testpoint.analogueConf, analogue]
  have cuts : ifOutputAnalogue tp = some true ↔
      conf.outage.maxval.toInt ≤ tp.upload.collectData.toInt := by
    rw [ifOutputAnalogue, config, Option.map_some, Option.some.injEq,
      reachesBound_upper shape.outage]
  have recovers : ifRecoverAnalogue tp = some true ↔
      conf.recover.maxval.toInt ≤ tp.upload.collectData.toInt := by
    rw [ifRecoverAnalogue, config, Option.map_some, Option.some.injEq,
      reachesBound_upper shape.recover]
  have ordered := shape.ordered
  constructor
  · intro exclusive
    have apart := exclusive.apart
    have restores := exclusive.restores
    rw [cuts, recovers] at apart
    rw [recovers] at restores
    constructor
    · by_contra below
      exact below (restores (by omega) (by omega))
    · by_contra reached
      exact apart ⟨by omega, by omega⟩
  · intro between
    refine ⟨fun both => ?_, fun _ below => ?_⟩
    · have reached := cuts.mp both.1
      omega
    · omega

/-- The default methane point at some reading. -/
def methaneAt (data : INT32S) : Testpoint :=
  { initTestpoint (.analogue initConfAnalogue) with
    upload := { testpointNo := 0, collectTime := [], collectData := data, sensorState := 0 } }

theorem initConfAnalogue_shape : CutShape initConfAnalogue :=
  ⟨⟨rfl, by decide⟩, ⟨rfl, by decide⟩, Int.le_refl _⟩

theorem exclusive_methane :
    Exclusive (methaneAt 75) initConfAnalogue ↔
      initConfAnalogue.recover.maxval.toInt ≤ (methaneAt 75).upload.collectData.toInt ∧
        (methaneAt 75).upload.collectData.toInt < initConfAnalogue.outage.maxval.toInt :=
  exclusive_iff (by decide) initConfAnalogue_shape

/-- At 75 the default point cuts and recovers at once; at 60 it does not recover. -/
theorem methane_not_exclusive :
    ¬ Exclusive (methaneAt 75) initConfAnalogue ∧ ¬ Exclusive (methaneAt 60) initConfAnalogue := by
  constructor
  · intro exclusive
    exact exclusive.apart (by decide)
  · intro exclusive
    have recovers := exclusive.restores (by decide) (by decide)
    exact absurd recovers (by decide)

end GasSub.Guarantees.RecoverCondition
