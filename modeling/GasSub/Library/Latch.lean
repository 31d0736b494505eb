import Mathlib.Algebra.Order.Ring.Int

/-!
# Hysteresis latches

A controller observes points in successive passes. A point that trips holds off
every channel it uses until a pass in which it resets and no point using that
channel trips. `Held` is that latch as a state machine over any points and
channels; `held_iff` unrolls it over the history. A controller that recomputes
its channels from the current pass alone obeys the latch exactly when each held
channel is driven anyway (`keepsHeld_iff_of_memoryless`).
-/
namespace GasSub.Library.Latch

variable {ι β : Type} (trips resets : Nat → ι → Prop) (uses : ι → β → Prop)

/-- In pass `n`, point `p` resets while nothing trips channel `b`. -/
def Releases (n : Nat) (p : ι) (b : β) : Prop :=
  resets n p ∧ ∀ q, uses q b → ¬ trips n q

/-- The latch after pass `n`: point `p` holds channel `b` off. -/
def Held : Nat → ι → β → Prop
  | 0, p, b => uses p b ∧ trips 0 p
  | n + 1, p, b =>
      uses p b ∧ (trips (n + 1) p ∨ Held n p b ∧ ¬ Releases trips resets uses (n + 1) p b)

/-- A channel is held exactly when its point tripped once and was never
released in a later pass. -/
theorem held_iff (m : Nat) (p : ι) (b : β) :
    Held trips resets uses m p b ↔
      uses p b ∧ ∃ n ≤ m, trips n p ∧
        ∀ j, n < j → j ≤ m → ¬ Releases trips resets uses j p b := by
  induction m with
  | zero =>
    simp only [Held]
    constructor
    · rintro ⟨used, tripped⟩
      exact ⟨used, 0, Nat.le_refl 0, tripped, fun j after until_ => by omega⟩
    · rintro ⟨used, n, bound, tripped, -⟩
      obtain rfl : n = 0 := by omega
      exact ⟨used, tripped⟩
  | succ m ih =>
    simp only [Held, ih]
    constructor
    · rintro ⟨used, tripped | ⟨⟨-, n, bound, tripped, kept⟩, notNow⟩⟩
      · exact ⟨used, m + 1, Nat.le_refl _, tripped, fun j after until_ => by omega⟩
      · refine ⟨used, n, by omega, tripped, fun j after until_ => ?_⟩
        by_cases last : j = m + 1
        · subst last
          exact notNow
        · exact kept j after (by omega)
    · rintro ⟨used, n, bound, tripped, kept⟩
      refine ⟨used, ?_⟩
      by_cases now : n = m + 1
      · subst now
        exact Or.inl tripped
      · have earlier : n ≤ m := by omega
        exact Or.inr ⟨⟨used, n, earlier, tripped, fun j after until_ => kept j after (by omega)⟩,
          kept (m + 1) (by omega) (Nat.le_refl _)⟩

/-- A controller honours the latch: every held channel is off. -/
def KeepsHeld (off : Nat → β → Prop) : Prop :=
  ∀ m p b, Held trips resets uses m p b → off m b

/-- A held channel whose point neither trips nor resets in this pass is driven
by something else. -/
def IdleHeldDriven (driven : Nat → β → Prop) : Prop :=
  ∀ m p b, Held trips resets uses m p b → ¬ trips m p → ¬ resets m p →
    (∃ q, uses q b ∧ trips m q) ∨ driven m b

/-- A controller whose channels are off exactly when the present pass trips them
or drives them otherwise keeps the latch exactly when every idle held channel is
driven in the present pass. -/
theorem keepsHeld_iff_of_memoryless (off driven : Nat → β → Prop)
    (memoryless : ∀ m b, off m b ↔ (∃ q, uses q b ∧ trips m q) ∨ driven m b) :
    KeepsHeld trips resets uses off ↔ IdleHeldDriven trips resets uses driven := by
  constructor
  · intro keeps m p b held _ _
    exact (memoryless m b).mp (keeps m p b held)
  · intro driven_ m p b held
    rw [memoryless]
    by_cases tripped : trips m p
    · exact Or.inl ⟨p, ((held_iff trips resets uses m p b).mp held).1, tripped⟩
    · by_cases reset : resets m p
      · -- The point resets without releasing, so another point trips the channel.
        cases m with
        | zero => exact absurd held.2 tripped
        | succ m =>
          obtain ⟨used, now | ⟨-, kept⟩⟩ := held
          · exact absurd now tripped
          · by_contra quiet
            refine kept ⟨reset, fun q usesIt trip => quiet (Or.inl ⟨q, usesIt, trip⟩)⟩
      · exact driven_ m p b held tripped reset

end GasSub.Library.Latch
