import GasSub.Library.Latch
import GasSub.Source.InitConf
import GasSub.Source.OnPaint

/-!
# The cut latch over runs of paint passes

A station paints in successive passes over a fixed equipment list; before each
pass the readings are arbitrary. The latch a separate recover threshold asks for
is `Library.Latch`. The code recomputes the output byte from the readings of the
pass alone, so it keeps the latch exactly in the runs that satisfy
`DeadBandDriven`: no point that still holds a port reads between its thresholds
while nothing else turns that port off.
-/
namespace GasSub.Guarantees.CutLatch
open GasSub.Source
open GasSub.Library.Latch

structure Station where
  points : List Sensor
  sendInfo : SendStruct

/-- The readings of one pass, by position in the list. -/
abbrev Readings := Nat → INT32S

def withReading (s : Sensor) (data : INT32S) : Sensor :=
  { s with upload := { s.upload with collectData := data } }

def readPoints (points : List Sensor) (reads : Readings) : List Sensor :=
  points.mapIdx fun k s => withReading s (reads k)

/-- One pass: the points hold new readings, then `_OnPaint` runs. -/
def Station.pass (st : Station) (reads : Readings) : Option Station :=
  let points := readPoints st.points reads
  (onPaint (points.map Sensor.testpoint) st.sendInfo).map fun painted =>
    { points := points, sendInfo := painted.1 }

/-- The station after pass `n` of a run. -/
def Station.run (st : Station) (reads : Nat → Readings) : Nat → Option Station
  | 0 => st.pass (reads 0)
  | n + 1 => (st.run reads n).bind fun s => s.pass (reads (n + 1))

/-- Port `i` is off in the byte pass `n` stored. -/
def Station.OffAfter (st : Station) (reads : Nat → Readings) (n : Nat) (i : Fin 8) : Prop :=
  ∃ after, st.run reads n = some after ∧ after.sendInfo.outPut.getLsbD i = false

/-- Point `k` satisfies `ifOutput` in pass `n`. -/
def Station.CutsAt (st : Station) (reads : Nat → Readings) (n k : Nat) : Prop :=
  ∃ s, st.points[k]? = some s ∧ (withReading s (reads n k)).Cuts

/-- Point `k` satisfies `ifRecover` in pass `n`. -/
def Station.RecoversAt (st : Station) (reads : Nat → Readings) (n k : Nat) : Prop :=
  ∃ s, st.points[k]? = some s ∧ (withReading s (reads n k)).Recovers

/-- Point `k` is an analogue point with bit `i` in its cut mask. -/
def Station.UsesPort (st : Station) (k : Nat) (i : Fin 8) : Prop :=
  ∃ s, st.points[k]? = some s ∧ s.Controls i

/-- Some analogue point without bit `i` in its cut mask recovers in pass `n`. -/
def Station.SparedByRecovery (st : Station) (reads : Nat → Readings) (n : Nat) (i : Fin 8) :
    Prop :=
  ∃ k s, st.points[k]? = some s ∧ (withReading s (reads n k)).Recovers ∧ s.Spares i

/-- Once a pass has cut a port of a point, the port stays off in every later
pass until one in which that point recovers and no point using the port cuts. -/
def Station.KeepsCut (st : Station) (reads : Nat → Readings) : Prop :=
  ∀ k i n m, st.UsesPort k i → n ≤ m → st.CutsAt reads n k →
    (∀ j, n < j → j ≤ m →
      ¬ (st.RecoversAt reads j k ∧ ∀ q, st.UsesPort q i → ¬ st.CutsAt reads j q)) →
    st.OffAfter reads m i

/-- In every pass, a port still held by a point that reads between its cut and
recover conditions is cut by another point using it, or switched off by the
recover mask of a point not using it. -/
def Station.DeadBandDriven (st : Station) (reads : Nat → Readings) : Prop :=
  IdleHeldDriven (st.CutsAt reads) (st.RecoversAt reads) st.UsesPort (st.SparedByRecovery reads)

theorem readPoints_readPoints (points : List Sensor) (old new : Readings) :
    readPoints (readPoints points old) new = readPoints points new := by
  unfold readPoints
  rw [List.mapIdx_mapIdx]
  rfl

theorem mem_readPoints (points : List Sensor) (reads : Readings) (s : Sensor) :
    s ∈ readPoints points reads ↔
      ∃ k t, points[k]? = some t ∧ s = withReading t (reads k) := by
  rw [readPoints, List.mem_iff_getElem?]
  simp only [List.getElem?_mapIdx, Option.map_eq_some_iff]
  constructor
  · rintro ⟨k, t, found, rfl⟩
    exact ⟨k, t, found, rfl⟩
  · rintro ⟨k, t, found, rfl⟩
    exact ⟨k, t, found, rfl⟩

/-- One pass completes and stores the byte of its own readings. -/
theorem pass_eq (st : Station) (reads : Readings) :
    st.pass reads = some { points := readPoints st.points reads,
                           sendInfo := { st.sendInfo with
                             outPut := outputByte (readPoints st.points reads) } } := by
  obtain ⟨calls, painted⟩ := onPaint_sensors (readPoints st.points reads) st.sendInfo
  simp only [Station.pass, painted, Option.map_some]

/-- Every run completes; the byte after pass `n` depends on pass `n` only. -/
theorem run_eq (st : Station) (reads : Nat → Readings) (n : Nat) :
    st.run reads n = some { points := readPoints st.points (reads n),
                            sendInfo := { st.sendInfo with
                              outPut := outputByte (readPoints st.points (reads n)) } } := by
  induction n with
  | zero => exact pass_eq st (reads 0)
  | succ n ih => simp only [Station.run, ih, Option.bind_some, pass_eq, readPoints_readPoints]

/-- The memoryless law of the code: a port is off after a pass exactly when that
pass cuts it or recovers a point that does not use it. -/
theorem offAfter_iff (st : Station) (reads : Nat → Readings) (m : Nat) (i : Fin 8) :
    st.OffAfter reads m i ↔
      (∃ q, st.UsesPort q i ∧ st.CutsAt reads m q) ∨ st.SparedByRecovery reads m i := by
  have stored : st.OffAfter reads m i ↔
      (outputByte (readPoints st.points (reads m))).getLsbD i = false := by
    simp [Station.OffAfter, run_eq]
  rw [stored, outputByte_off_iff _ i i.isLt]
  constructor
  · rintro ⟨s, member, cause⟩
    obtain ⟨k, t, found, rfl⟩ := (mem_readPoints _ _ _).mp member
    rcases cause with ⟨cut, controlled⟩ | ⟨recover, spared⟩
    · exact Or.inl ⟨k, ⟨t, found, controlled⟩, ⟨t, found, cut⟩⟩
    · exact Or.inr ⟨k, t, found, recover, spared⟩
  · rintro (⟨k, ⟨t, found, controlled⟩, ⟨u, foundAgain, cut⟩⟩ | ⟨k, t, found, recover, spared⟩)
    · obtain rfl : u = t := Option.some.inj (foundAgain.symm.trans found)
      exact ⟨_, (mem_readPoints _ _ _).mpr ⟨k, u, found, rfl⟩, Or.inl ⟨cut, controlled⟩⟩
    · exact ⟨_, (mem_readPoints _ _ _).mpr ⟨k, t, found, rfl⟩, Or.inr ⟨recover, spared⟩⟩

/-- The latch stated over the history is the latch state machine. -/
theorem keepsCut_iff_keepsHeld (st : Station) (reads : Nat → Readings) :
    st.KeepsCut reads ↔
      KeepsHeld (st.CutsAt reads) (st.RecoversAt reads) st.UsesPort (st.OffAfter reads) := by
  constructor
  · intro latch m k i held
    obtain ⟨used, n, bound, cut, kept⟩ := (held_iff _ _ _ m k i).mp held
    exact latch k i n m used bound cut kept
  · intro keeps k i n m used bound cut kept
    exact keeps m k i ((held_iff _ _ _ m k i).mpr ⟨used, n, bound, cut, kept⟩)

/-- A run keeps the cut latch exactly when no pass leaves a held port undriven
while its point reads between the thresholds. -/
theorem keepsCut_iff (st : Station) (reads : Nat → Readings) :
    st.KeepsCut reads ↔ st.DeadBandDriven reads := by
  rw [keepsCut_iff_keepsHeld]
  exact keepsHeld_iff_of_memoryless _ _ _ _ _ (offAfter_iff st reads)

/-- One default methane point, which cuts port 7 from a reading of 70 on and
recovers at no reading below 70. -/
def methaneStation : Station where
  points := [{ config := .analogue initConfAnalogue
               upload := { testpointNo := 0, collectTime := [], collectData := 0,
                           sensorState := 0 } }]
  sendInfo := ⟨0, 0, 0⟩

/-- A reading of 75, then 60 for ever. -/
def risenThenFallen (n : Nat) : Readings := fun _ => if n = 0 then 75 else 60

/-- At 60 the point neither cuts nor recovers, and its port is switched on. -/
theorem keepsCut_lost : ¬ methaneStation.KeepsCut risenThenFallen := by
  intro latch
  have released : ∀ n k, 0 < n → ¬ methaneStation.RecoversAt risenThenFallen n k := by
    rintro n k later ⟨s, found, recovers⟩
    cases k with
    | zero =>
      obtain rfl := Option.some.inj found
      simp only [risenThenFallen, if_neg (Nat.ne_of_gt later)] at recovers
      revert recovers
      decide
    | succ k => simp [methaneStation] at found
  obtain ⟨after, ran, off⟩ := latch 0 7 0 1
    ⟨_, rfl, initConfAnalogue, rfl, by decide⟩ (by decide) ⟨_, rfl, by decide⟩
    (fun j later _ recovered => released j 0 later recovered.1)
  rw [run_eq] at ran
  obtain rfl := Option.some.inj ran
  revert off
  decide

end GasSub.Guarantees.CutLatch
