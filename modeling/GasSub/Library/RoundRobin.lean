import Mathlib.Algebra.Order.Ring.Int

/-!
# Items dealt round robin

Items are put into the first `c` cells of a list one after the other, from the first cell
again behind the last one. A cell holds the last item that it was dealt.
-/
namespace GasSub.Library.RoundRobin

variable {α : Type} {c k r : Nat} {cells items : List α}

/-- The items from number `k` on. -/
def deal (c : Nat) : Nat → List α → List α → List α
  | _, cells, [] => cells
  | k, cells, x :: rest => deal c (k + 1) (cells.set (k % c) x) rest

/-- The last of `n` items that cell `r` is dealt. -/
def lastDealt (c n r : Nat) : Nat := r + c * ((n - 1 - r) / c)

theorem length_deal : (deal c k cells items).length = cells.length := by
  induction items generalizing k cells with
  | nil => rfl
  | cons x rest ih => rw [deal, ih, List.length_set]

/-- A cell that is dealt nothing keeps what it has. -/
theorem deal_untouched (untouched : ∀ i < items.length, (k + i) % c ≠ r) :
    (deal c k cells items)[r]? = cells[r]? := by
  induction items generalizing k cells with
  | nil => rfl
  | cons x rest ih =>
    have first : k % c ≠ r := untouched 0 (Nat.zero_lt_succ _)
    rw [deal, ih, List.getElem?_set_ne first]
    intro i inside
    rw [Nat.add_right_comm]
    exact untouched (i + 1) (Nat.succ_lt_succ inside)

theorem deal_last (place : r < cells.length) {j : Nat} (here : (k + j) % c = r)
    (inside : j < items.length) (last : ∀ i, j < i → i < items.length → (k + i) % c ≠ r) :
    (deal c k cells items)[r]? = items[j]? := by
  induction items generalizing k cells j with
  | nil => cases inside
  | cons x rest ih =>
    rw [deal]
    cases j with
    | zero =>
      rw [deal_untouched, ← here, Nat.add_zero, List.getElem?_set_self (by rwa [← here] at place)]
      · rfl
      · intro i inside
        rw [Nat.add_right_comm]
        exact last (i + 1) (Nat.zero_lt_succ i) (Nat.succ_lt_succ inside)
    | succ j =>
      rw [ih (by rwa [List.length_set]) (by rw [← here]; congr 1; omega)
        (Nat.lt_of_succ_lt_succ inside), List.getElem?_cons_succ]
      intro i later inside
      rw [Nat.add_right_comm]
      exact last (i + 1) (Nat.succ_lt_succ later) (Nat.succ_lt_succ inside)

theorem lastDealt_mod (inside : r < c) (n : Nat) : lastDealt c n r % c = r := by
  rw [lastDealt, Nat.add_mul_mod_self_left, Nat.mod_eq_of_lt inside]

theorem lastDealt_lt {n : Nat} (dealt : r < n) : lastDealt c n r < n := by
  have most := Nat.mul_div_le (n - 1 - r) c
  unfold lastDealt
  omega

theorem lastDealt_last (positive : 0 < c) {n i : Nat} (later : lastDealt c n r < i) (inside : i < n) :
    i % c ≠ r := by
  rintro rfl
  have whole := Nat.mod_add_div i c
  have further : (n - 1 - i % c) / c < i / c := by
    unfold lastDealt at later
    exact Nat.lt_of_mul_lt_mul_left (show c * ((n - 1 - i % c) / c) < c * (i / c) by omega)
  have beyond := (Nat.div_lt_iff_lt_mul positive).mp further
  rw [Nat.mul_comm] at beyond
  omega

/-- Every cell that is dealt something holds the last of it. -/
theorem deal_dealt (place : r < cells.length) (inside : r < c) (dealt : r < items.length) :
    (deal c 0 cells items)[r]? = items[lastDealt c items.length r]? := by
  apply deal_last place
  · rw [Nat.zero_add, lastDealt_mod inside]
  · exact lastDealt_lt dealt
  · intro i later bound
    rw [Nat.zero_add]
    exact lastDealt_last (Nat.zero_lt_of_lt inside) later bound

theorem deal_beyond (positive : 0 < c) (beyond : c ≤ r) : (deal c k cells items)[r]? = cells[r]? :=
  deal_untouched fun _ _ => Nat.ne_of_lt (Nat.lt_of_lt_of_le (Nat.mod_lt _ positive) beyond)

end GasSub.Library.RoundRobin
