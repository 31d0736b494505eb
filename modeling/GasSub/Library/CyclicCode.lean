import GasSub.Library.XorSum

/-!
# Cyclic codes

The remainder of a message by a generator polynomial, computed by a register that is
shifted towards its lowest bit: each bit of the message is added to the lowest place,
and a one that leaves the register adds the polynomial. The remainder is linear in the
message, so a damaged message is told by the remainder of the damage alone: what a
register with a polynomial of full degree never takes for zero is a burst no longer
than the register, a single bit, and two bits a distance apart at which the register
does not come back to one. With a polynomial of odd weight it keeps the parity, too.
-/
namespace GasSub.Library.CyclicCode
open GasSub.Library.XorSum

variable {w : Nat}

/-- The register is shifted once. -/
def shift (poly x : BitVec w) : BitVec w :=
  if x.getLsbD 0 then (x >>> 1) ^^^ poly else x >>> 1

def shifts (poly : BitVec w) : Nat → BitVec w → BitVec w
  | 0, x => x
  | n + 1, x => shifts poly n (shift poly x)

/-- A bit in the lowest place. -/
def lowest (b : Bool) : BitVec w := (BitVec.ofBool b).setWidth w

/-- The register takes one bit of the message. -/
def feed (poly x : BitVec w) (b : Bool) : BitVec w := shift poly (x ^^^ lowest b)

/-- The register after a message, from `x` on. -/
def remainder (poly x : BitVec w) (message : List Bool) : BitVec w :=
  message.foldl (feed poly) x

/-- The message as a word, the first bit in the lowest place. -/
def spread : List Bool → BitVec w
  | [] => 0
  | b :: rest => lowest b ^^^ (spread rest <<< 1)

/-- Where two messages differ. -/
def difference (a b : List Bool) : List Bool := List.zipWith (fun x y => x ^^ y) a b

/-! ### The register is linear -/

theorem xor_shuffle (a b c d : BitVec w) : (a ^^^ b) ^^^ (c ^^^ d) = (a ^^^ c) ^^^ (b ^^^ d) := by
  ac_rfl

theorem shift_xor (poly x y : BitVec w) : shift poly (x ^^^ y) = shift poly x ^^^ shift poly y := by
  unfold shift
  rw [BitVec.getLsbD_xor, BitVec.ushiftRight_xor_distrib]
  cases x.getLsbD 0 <;> cases y.getLsbD 0
  · rfl
  · simp [BitVec.xor_assoc]
  · simp only [Bool.xor_false, if_true, Bool.false_eq_true, if_false]
    ac_rfl
  · simp only [Bool.xor_self, if_true, Bool.false_eq_true, if_false]
    rw [xor_shuffle, BitVec.xor_self, BitVec.xor_zero]

@[simp] theorem shift_zero (poly : BitVec w) : shift poly 0 = 0 := by
  simp [shift]

theorem shifts_xor (poly : BitVec w) (n : Nat) (x y : BitVec w) :
    shifts poly n (x ^^^ y) = shifts poly n x ^^^ shifts poly n y := by
  induction n generalizing x y with
  | zero => rfl
  | succ n ih => rw [shifts, shift_xor, ih, shifts, shifts]

@[simp] theorem shifts_zero (poly : BitVec w) (n : Nat) : shifts poly n 0 = 0 := by
  induction n with
  | zero => rfl
  | succ n ih => rw [shifts, shift_zero, ih]

theorem lowest_xor (a b : Bool) : (lowest (a ^^ b) : BitVec w) = lowest a ^^^ lowest b := by
  cases a <;> cases b <;> simp [lowest]

@[simp] theorem lowest_false : (lowest false : BitVec w) = 0 := by simp [lowest]

theorem feed_xor (poly x y : BitVec w) (a b : Bool) :
    feed poly (x ^^^ y) (a ^^ b) = feed poly x a ^^^ feed poly y b := by
  rw [feed, lowest_xor, xor_shuffle, shift_xor, feed, feed]

/-- Two messages of one length leave remainders that differ as their difference does. -/
theorem remainder_difference (poly x y : BitVec w) {a b : List Bool} (same : a.length = b.length) :
    remainder poly (x ^^^ y) (difference a b) = remainder poly x a ^^^ remainder poly y b := by
  induction a generalizing x y b with
  | nil =>
    obtain rfl : b = [] := List.length_eq_zero_iff.mp same.symm
    rfl
  | cons p a ih =>
    cases b with
    | nil => cases same
    | cons q b =>
      have tail := ih (feed poly x p) (feed poly y q) (Nat.succ.inj same)
      rw [← feed_xor] at tail
      exact tail

theorem remainder_append (poly x : BitVec w) (a b : List Bool) :
    remainder poly x (a ++ b) = remainder poly (remainder poly x a) b := List.foldl_append

theorem remainder_replicate (poly x : BitVec w) (n : Nat) :
    remainder poly x (List.replicate n false) = shifts poly n x := by
  induction n generalizing x with
  | zero => rfl
  | succ n ih =>
    have step : feed poly x false = shift poly x := by
      rw [feed, lowest_false]
      exact congrArg _ BitVec.xor_zero
    rw [List.replicate_succ, shifts, ← ih, ← step]
    rfl

/-! ### A message as a word -/

theorem getLsbD_lowest (b : Bool) (i : Nat) :
    (lowest b : BitVec w).getLsbD i = (decide (i < w) && (decide (i = 0) && b)) := by
  rw [lowest, BitVec.getLsbD_setWidth, BitVec.getLsbD_ofBool]

theorem getLsbD_spread (message : List Bool) (i : Nat) :
    (spread message : BitVec w).getLsbD i = (decide (i < w) && message.getD i false) := by
  induction message generalizing i with
  | nil => simp [spread]
  | cons b rest ih =>
    rw [spread, BitVec.getLsbD_xor, getLsbD_lowest, BitVec.getLsbD_shiftLeft]
    cases i with
    | zero => simp
    | succ i =>
      rw [Nat.add_sub_cancel, ih]
      by_cases inside : i + 1 < w
      · simp [inside, Nat.lt_of_succ_lt inside]
      · simp [inside]

/-- A word without its lowest bit only moves down. -/
theorem shift_shiftLeft (poly y : BitVec w) (top : ∀ i, w ≤ i + 1 → y.getLsbD i = false) :
    shift poly (y <<< 1) = y := by
  have clear : (y <<< 1).getLsbD 0 = false := by simp
  rw [shift, clear, if_neg Bool.false_ne_true]
  apply BitVec.eq_of_getLsbD_eq
  intro i inside
  rw [BitVec.getLsbD_ushiftRight, BitVec.getLsbD_shiftLeft]
  by_cases next : 1 + i < w
  · simp [next]
  · rw [top i (by omega)]
    simp [next]

/-- A message no longer than the register may as well be added at once. -/
theorem remainder_spread (poly x : BitVec w) {message : List Bool} (short : message.length ≤ w) :
    remainder poly x message = shifts poly message.length (x ^^^ spread message) := by
  induction message generalizing x with
  | nil =>
    have empty : x ^^^ (spread [] : BitVec w) = x := BitVec.xor_zero
    rw [empty]
    rfl
  | cons b rest ih =>
    have fits : rest.length + 1 ≤ w := short
    have tail : shift poly (spread rest <<< 1) = (spread rest : BitVec w) := by
      refine shift_shiftLeft poly _ fun i high => ?_
      rw [getLsbD_spread, List.getD_eq_getElem?_getD, List.getElem?_eq_none (by omega)]
      exact Bool.and_false _
    rw [List.length_cons, shifts, spread, ← BitVec.xor_assoc, shift_xor, tail,
      ← ih _ (Nat.le_of_succ_le fits)]
    rfl

/-! ### Nothing is lost -/

/-- A polynomial of full degree. -/
def Full (poly : BitVec w) : Prop := poly.getLsbD (w - 1) = true

instance (poly : BitVec w) : Decidable (Full poly) := inferInstanceAs (Decidable (_ = true))

/-- The top bit says whether a one has left. -/
theorem getLsbD_top_shift {poly : BitVec w} (full : Full poly) (x : BitVec w) :
    (shift poly x).getLsbD (w - 1) = x.getLsbD 0 := by
  have above : (x >>> 1).getLsbD (w - 1) = false := by
    rw [BitVec.getLsbD_ushiftRight]
    exact BitVec.getLsbD_of_ge x _ (by omega)
  unfold shift
  split
  · case isTrue low => rw [BitVec.getLsbD_xor, above, full, low]; rfl
  · case isFalse low => rw [above, Bool.eq_false_of_not_eq_true low]

theorem eq_zero_of_shift {poly x : BitVec w} (full : Full poly) (zero : shift poly x = 0) :
    x = 0 := by
  have low : x.getLsbD 0 = false := by
    rw [← getLsbD_top_shift full, zero]
    exact BitVec.getLsbD_zero
  rw [shift, low, if_neg Bool.false_ne_true] at zero
  apply BitVec.eq_of_getLsbD_eq
  intro i _
  cases i with
  | zero => rw [low]; exact BitVec.getLsbD_zero.symm
  | succ i =>
    have bit := congrArg (fun y : BitVec w => y.getLsbD i) zero
    simp only [BitVec.getLsbD_ushiftRight, Nat.add_comm 1 i] at bit
    rw [bit]
    exact BitVec.getLsbD_zero.trans BitVec.getLsbD_zero.symm

theorem eq_zero_of_shifts {poly x : BitVec w} (full : Full poly) {n : Nat}
    (zero : shifts poly n x = 0) : x = 0 := by
  induction n generalizing x with
  | zero => exact zero
  | succ n ih => exact eq_zero_of_shift full (ih zero)

/-! ### What a register notices -/

/-- Nothing but a stretch of a message is damaged. -/
structure Burst (damage : List Bool) (before : Nat) (stretch : List Bool) (after : Nat) : Prop where
  split : damage = List.replicate before false ++ (stretch ++ List.replicate after false)
  damaged : true ∈ stretch

theorem remainder_split (poly : BitVec w) (before after : Nat) (stretch : List Bool) :
    remainder poly 0 (List.replicate before false ++ (stretch ++ List.replicate after false)) =
      shifts poly after (remainder poly 0 stretch) := by
  rw [remainder_append, remainder_append, remainder_replicate, remainder_replicate, shifts_zero]

theorem spread_ne_zero {message : List Bool} (short : message.length ≤ w)
    (damaged : true ∈ message) : (spread message : BitVec w) ≠ 0 := by
  intro zero
  obtain ⟨i, inside, bit⟩ := List.mem_iff_getElem.mp damaged
  have set := getLsbD_spread (w := w) message i
  rw [zero, decide_eq_true (Nat.lt_of_lt_of_le inside short), Bool.true_and,
    List.getD_eq_getElem?_getD, List.getElem?_eq_getElem inside, bit] at set
  exact absurd (BitVec.getLsbD_zero.symm.trans set) Bool.false_ne_true

/-- A burst no longer than the register does not leave the remainder zero. -/
theorem remainder_burst {poly : BitVec w} (full : Full poly) {damage stretch : List Bool}
    {before after : Nat} (burst : Burst damage before stretch after) (short : stretch.length ≤ w) :
    remainder poly 0 damage ≠ 0 := by
  intro zero
  rw [burst.split, remainder_split, remainder_spread poly 0 short] at zero
  have none := eq_zero_of_shifts full (eq_zero_of_shifts full zero)
  exact spread_ne_zero short burst.damaged (BitVec.zero_xor.symm.trans none)

/-- Two damaged bits are noticed unless the register comes back to one between them. -/
theorem remainder_pair {poly : BitVec w} (full : Full poly) (before apart after : Nat)
    (returns : shifts poly (apart + 1) (lowest true) ≠ lowest true) :
    remainder poly 0 (List.replicate before false ++ (([true] ++ (List.replicate apart false ++
      [true])) ++ List.replicate after false)) ≠ 0 := by
  intro zero
  rw [remainder_split, remainder_append, remainder_append, remainder_replicate] at zero
  have first : remainder poly 0 [true] = shift poly (lowest true) :=
    congrArg (shift poly) BitVec.zero_xor
  have last := eq_zero_of_shifts full zero
  rw [first] at last
  have sum : shifts poly (apart + 1) (lowest true) ^^^ lowest true = 0 :=
    eq_zero_of_shift full last
  exact returns (BitVec.xor_eq_zero_iff.mp sum)

/-- The register does not come back to one in `n` shifts. -/
def awayFrom (poly x : BitVec w) : Nat → BitVec w → Bool
  | 0, _ => true
  | n + 1, y => decide (shift poly y ≠ x) && awayFrom poly x n (shift poly y)

theorem shifts_ne_of_awayFrom {poly x y : BitVec w} {n : Nat} (away : awayFrom poly x n y = true)
    {k : Nat} (inside : k < n) : shifts poly (k + 1) y ≠ x := by
  induction n generalizing y k with
  | zero => exact absurd inside (Nat.not_lt_zero k)
  | succ n ih =>
    rw [awayFrom, Bool.and_eq_true, decide_eq_true_eq] at away
    cases k with
    | zero => exact away.1
    | succ k => exact ih away.2 (Nat.lt_of_succ_lt_succ inside)

/-! ### Parity -/

/-- Whether an odd number of bits is set. -/
def parity : List Bool → Bool
  | [] => false
  | b :: rest => b ^^ parity rest

def bitsOf (x : BitVec w) : List Bool := (List.range w).map x.getLsbD

theorem parity_append (a b : List Bool) : parity (a ++ b) = (parity a ^^ parity b) := by
  induction a with
  | nil => exact (Bool.false_xor _).symm
  | cons c a ih => rw [List.cons_append, parity, ih, parity, Bool.xor_assoc]

theorem parity_map_xor {ι : Type} (f g : ι → Bool) (places : List ι) :
    parity (places.map fun i => f i ^^ g i) = (parity (places.map f) ^^ parity (places.map g)) := by
  induction places with
  | nil => rfl
  | cons i places ih =>
    rw [List.map_cons, List.map_cons, List.map_cons, parity, parity, parity, ih]
    cases f i <;> cases g i <;> simp

theorem parity_xor (x y : BitVec w) :
    parity (bitsOf (x ^^^ y)) = (parity (bitsOf x) ^^ parity (bitsOf y)) := by
  have bits : bitsOf (x ^^^ y) = (List.range w).map fun i => x.getLsbD i ^^ y.getLsbD i :=
    List.map_congr_left fun i _ => BitVec.getLsbD_xor
  rw [bits, parity_map_xor]
  rfl

/-- The bit that leaves is the only one missing. -/
theorem parity_ushiftRight (x : BitVec w) :
    parity (bitsOf (x >>> 1)) = (parity (bitsOf x) ^^ x.getLsbD 0) := by
  cases w with
  | zero => rw [BitVec.getLsbD_of_ge x 0 (Nat.le_refl 0)]; rfl
  | succ n =>
    have down : ∀ i, (x >>> 1).getLsbD i = x.getLsbD (i + 1) := by
      intro i
      rw [BitVec.getLsbD_ushiftRight, Nat.add_comm 1 i]
    have last : x.getLsbD (n + 1) = false := BitVec.getLsbD_of_ge x _ (Nat.le_refl _)
    have shifted : bitsOf (x >>> 1) = (List.range n).map (fun i => x.getLsbD (i + 1)) ++ [false] := by
      rw [bitsOf, List.range_succ, List.map_append, List.map_singleton, down, last]
      exact congrArg (· ++ [false]) (List.map_congr_left fun i _ => down i)
    have whole : bitsOf x = x.getLsbD 0 :: (List.range n).map fun i => x.getLsbD (i + 1) := by
      rw [bitsOf, List.range_succ_eq_map, List.map_cons, List.map_map]
      rfl
    rw [shifted, whole, parity_append, parity, parity, parity]
    cases x.getLsbD 0 <;> simp

theorem parity_shift {poly : BitVec w} (odd : parity (bitsOf poly) = true) (x : BitVec w) :
    parity (bitsOf (shift poly x)) = parity (bitsOf x) := by
  unfold shift
  split
  · case isTrue low => rw [parity_xor, parity_ushiftRight, odd, low, Bool.xor_assoc]; simp
  · case isFalse low => rw [parity_ushiftRight, Bool.eq_false_of_not_eq_true low, Bool.xor_false]

theorem parity_lowest (b : Bool) (positive : 0 < w) : parity (bitsOf (lowest b : BitVec w)) = b := by
  obtain ⟨n, rfl⟩ := Nat.exists_eq_succ_of_ne_zero (Nat.ne_of_gt positive)
  have above : (List.range n).map (fun i => (lowest b : BitVec (n + 1)).getLsbD (i + 1)) =
      List.replicate n false := by
    rw [List.map_eq_replicate_iff.mpr, List.length_range]
    intro i _
    simp [getLsbD_lowest]
  have zeros : ∀ m, parity (List.replicate m false) = false := by
    intro m
    induction m with
    | zero => rfl
    | succ m ih => rw [List.replicate_succ, parity, ih]; rfl
  have first : (lowest b : BitVec (n + 1)).getLsbD 0 = b := by
    rw [getLsbD_lowest, decide_eq_true positive, Bool.true_and, decide_eq_true rfl, Bool.true_and]
  have whole : bitsOf (lowest b : BitVec (n + 1)) = b :: List.replicate n false := by
    rw [← above, bitsOf, List.range_succ_eq_map, List.map_cons, List.map_map, first]
    rfl
  rw [whole, parity, zeros, Bool.xor_false]

/-- The remainder by a polynomial of odd weight has the parity of the message. -/
theorem parity_remainder {poly : BitVec w} (positive : 0 < w) (odd : parity (bitsOf poly) = true)
    (x : BitVec w) (message : List Bool) :
    parity (bitsOf (remainder poly x message)) = (parity (bitsOf x) ^^ parity message) := by
  induction message generalizing x with
  | nil => exact (Bool.xor_false _).symm
  | cons b rest ih =>
    have head : parity (bitsOf (feed poly x b)) = (parity (bitsOf x) ^^ b) := by
      rw [feed, parity_shift odd, parity_xor, parity_lowest b positive]
    have tail := ih (feed poly x b)
    rw [head, Bool.xor_assoc] at tail
    exact tail

/-- An odd number of damaged bits is noticed. -/
theorem remainder_odd {poly : BitVec w} (positive : 0 < w) (odd : parity (bitsOf poly) = true)
    {damage : List Bool} (odds : parity damage = true) : remainder poly 0 damage ≠ 0 := by
  intro zero
  have kept := parity_remainder positive odd 0 damage
  have none : parity (bitsOf (0 : BitVec w)) = false := by
    have same := parity_xor (0 : BitVec w) 0
    rw [Bool.xor_self, BitVec.xor_self] at same
    exact same
  rw [zero, none, odds] at kept
  cases kept

end GasSub.Library.CyclicCode
