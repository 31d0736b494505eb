import GasSub.Source.InitConf
import GasSub.Source.OnPaint

/-!
# Cutting and restoring power in one paint pass

Two properties of the output byte a paint pass stores, over every equipment
list. The cut is fail-safe: a point at its outage condition always has its ports
off. It is not selective: the recover mask is the complement of a point's ports
and is merged like a cut, so a point that recovers switches every other port
off. `RecoverCovered` is the exact condition under which that does no harm.
-/
namespace GasSub.Guarantees.PowerCut
open GasSub.Source

/-- Every point at its outage condition has all its ports off. -/
def FailSafe (sensors : List Sensor) (outPut : INT8U) : Prop :=
  ∀ s ∈ sensors, s.Cuts → ∀ i, s.Controls i → outPut.getLsbD i = false

/-- A port is off only if some point at its outage condition controls it. -/
def CutByOutage (sensors : List Sensor) (outPut : INT8U) : Prop :=
  ∀ i < 8, outPut.getLsbD i = false → ∃ s ∈ sensors, s.Cuts ∧ s.Controls i

/-- A point that recovers without being at its outage condition turns no port
off: without it in the list, every port it leaves off would be off as well. -/
def RecoverNeverCuts (sensors : List Sensor) : Prop :=
  ∀ before s after, sensors = before ++ s :: after → s.Recovers → ¬ s.Cuts →
    ∀ i < 8, (outputByte sensors).getLsbD i = false →
      (outputByte (before ++ after)).getLsbD i = false

def NoSpuriousCut (sensors : List Sensor) (outPut : INT8U) : Prop :=
  CutByOutage sensors outPut ∧ RecoverNeverCuts sensors

/-- Every port that a recovering point does not control is controlled by some
point at its outage condition. -/
def RecoverCovered (sensors : List Sensor) : Prop :=
  ∀ s ∈ sensors, s.Recovers → ∀ i < 8, s.Spares i → ∃ t ∈ sensors, t.Cuts ∧ t.Controls i

theorem controls_lt {s : Sensor} {i : Nat} (h : s.Controls i) : i < 8 := by
  obtain ⟨conf, _, bit⟩ := h
  by_contra outside
  rw [BitVec.getLsbD_of_ge _ i (by omega)] at bit
  cases bit

theorem outputByte_failSafe (sensors : List Sensor) : FailSafe sensors (outputByte sensors) := by
  intro s member cut i controlled
  exact (outputByte_off_iff sensors i (controls_lt controlled)).mpr
    ⟨s, member, Or.inl ⟨cut, controlled⟩⟩

theorem cutByOutage_of_covered (sensors : List Sensor) (covered : RecoverCovered sensors) :
    CutByOutage sensors (outputByte sensors) := by
  intro i inside off
  obtain ⟨s, member, cause⟩ := (outputByte_off_iff sensors i inside).mp off
  rcases cause with ⟨cut, controlled⟩ | ⟨recover, spared⟩
  · exact ⟨s, member, cut, controlled⟩
  · exact covered s member recover i inside spared

/-- When every port that is off has a cut behind it, dropping a point that does
not cut changes none of them. -/
theorem recoverNeverCuts_of_cutByOutage (sensors : List Sensor)
    (caused : CutByOutage sensors (outputByte sensors)) : RecoverNeverCuts sensors := by
  intro before s after split _ notCut i inside off
  obtain ⟨t, member, cut, controlled⟩ := caused i inside off
  have other : t ∈ before ++ after := by
    rw [split] at member
    rcases List.mem_append.mp member with left | right
    · exact List.mem_append_left _ left
    · rcases List.mem_cons.mp right with same | right
      · subst same
        exact absurd cut notCut
      · exact List.mem_append_right _ right
  exact outputByte_failSafe (before ++ after) t other cut i controlled

theorem covered_of_cutByOutage (sensors : List Sensor)
    (caused : CutByOutage sensors (outputByte sensors)) : RecoverCovered sensors := by
  intro s member recover i inside spared
  have off := (outputByte_off_iff sensors i inside).mpr ⟨s, member, Or.inr ⟨recover, spared⟩⟩
  exact caused i inside off

/-- The paint pass cuts no port spuriously exactly when every recovering point's
foreign ports are cut by some other point anyway. -/
theorem onPaint_noSpuriousCut_iff (sensors : List Sensor) (info : SendStruct) :
    ∃ after calls, onPaint (sensors.map Sensor.testpoint) info = some (after, calls) ∧
      (NoSpuriousCut sensors after.outPut ↔ RecoverCovered sensors) := by
  obtain ⟨calls, painted⟩ := onPaint_sensors sensors info
  refine ⟨_, calls, painted, ?_⟩
  constructor
  · intro selective
    exact covered_of_cutByOutage sensors selective.1
  · intro covered
    have caused := cutByOutage_of_covered sensors covered
    exact ⟨caused, recoverNeverCuts_of_cutByOutage sensors caused⟩

/-- The default methane point, controlling port 7 only, at a reading of 75. -/
def methaneAt75 : Sensor where
  config := .analogue initConfAnalogue
  upload := { testpointNo := 0, collectTime := [], collectData := 75, sensorState := 0 }

/-- With the default configuration alone in the list, a reading of 75 switches
off all eight ports, seven of which nothing controls. -/
theorem onPaint_spuriousCut :
    ∃ after calls, onPaint ([methaneAt75].map Sensor.testpoint) ⟨0, 0, 0⟩ = some (after, calls) ∧
      after.outPut = 0 ∧ ¬ NoSpuriousCut [methaneAt75] after.outPut := by
  obtain ⟨calls, painted⟩ := onPaint_sensors [methaneAt75] ⟨0, 0, 0⟩
  refine ⟨_, calls, painted, by decide, ?_⟩
  rintro ⟨caused, -⟩
  obtain ⟨s, member, -, conf, hc, controlled⟩ := caused 0 (by decide) (by decide)
  obtain rfl : s = methaneAt75 := by simpa using member
  cases hc
  revert controlled
  decide

/-- In the byte stored at the end of every walk, each analogue point that was at
its outage condition at its visit has all its ports off. -/
theorem onPaint_failSafe (sensors : List Sensor) (info : SendStruct) :
    ∃ after calls, onPaint (sensors.map Sensor.testpoint) info = some (after, calls) ∧
      FailSafe sensors after.outPut := by
  obtain ⟨calls, painted⟩ := onPaint_sensors sensors info
  exact ⟨_, calls, painted, outputByte_failSafe sensors⟩

end GasSub.Guarantees.PowerCut
