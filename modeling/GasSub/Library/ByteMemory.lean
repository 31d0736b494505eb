import GasSub.Library.ByteWord

/-!
# Byte memory

Memory as a function from addresses to bytes, with runs of bytes and
little-endian words stored at any address, aligned or not. A store is read back
inside its run and leaves everything outside it alone; words that overlap a run
partly are compared byte by byte.
-/
namespace GasSub.Library.ByteMemory
open GasSub.Library.ByteWord

abbrev Memory := Nat → BitVec 8

/-- `bytes` at `dest`, `dest + 1`, … -/
def store (m : Memory) (dest : Nat) (bytes : List (BitVec 8)) : Memory := fun a =>
  if dest ≤ a then (bytes[a - dest]?).getD (m a) else m a

def wordBytes (v : BitVec 32) : List (BitVec 8) := [byteOf v 0, byteOf v 1, byteOf v 2, byteOf v 3]

def store32 (m : Memory) (dest : Nat) (v : BitVec 32) : Memory := store m dest (wordBytes v)

def load32 (m : Memory) (a : Nat) : BitVec 32 := join32 (m (a + 3)) (m (a + 2)) (m (a + 1)) (m a)

def load16 (m : Memory) (a : Nat) : BitVec 16 := join16 (m (a + 1)) (m a)

theorem store_outside (m : Memory) (dest a : Nat) (bytes : List (BitVec 8))
    (outside : a < dest ∨ dest + bytes.length ≤ a) : store m dest bytes a = m a := by
  unfold store
  split
  · rw [List.getElem?_eq_none (by omega)]
    rfl
  · rfl

theorem store_inside (m : Memory) (dest i : Nat) (bytes : List (BitVec 8))
    (inside : i < bytes.length) : store m dest bytes (dest + i) = bytes[i] := by
  unfold store
  rw [if_pos (Nat.le_add_right dest i), Nat.add_sub_cancel_left, List.getElem?_eq_getElem inside]
  rfl

@[simp] theorem store_nil (m : Memory) (dest : Nat) : store m dest [] = m := by
  funext a
  exact store_outside m dest a [] (by simp only [List.length_nil]; omega)

/-! A single byte. -/

theorem store_byte_self (m : Memory) (a : Nat) (b : BitVec 8) : store m a [b] a = b :=
  store_inside m a 0 [b] Nat.one_pos

theorem store_byte_twice (m : Memory) (a : Nat) (b c : BitVec 8) :
    store (store m a [b]) a [c] = store m a [c] := by
  funext x
  by_cases here : x = a
  · rw [here, store_byte_self, store_byte_self]
  · have outside : x < a ∨ a + 1 ≤ x := by omega
    rw [store_outside _ _ _ [c] outside, store_outside _ _ _ [b] outside,
      store_outside _ _ _ [c] outside]

/-- A run is stored piece by piece. -/
theorem store_append (m : Memory) (dest : Nat) (left right : List (BitVec 8)) :
    store m dest (left ++ right) = store (store m dest left) (dest + left.length) right := by
  funext a
  rcases Nat.lt_or_ge a dest with before | from_dest
  · rw [store_outside _ _ _ _ (Or.inl before), store_outside _ _ _ _ (by omega),
      store_outside _ _ _ _ (Or.inl before)]
  · obtain ⟨i, rfl⟩ := Nat.exists_eq_add_of_le from_dest
    rcases Nat.lt_or_ge i left.length with first | later
    · rw [store_inside _ _ _ _ (by rw [List.length_append]; omega), store_outside _ _ _ _ (by omega),
        store_inside _ _ _ _ first, List.getElem_append_left first]
    · obtain ⟨k, rfl⟩ := Nat.exists_eq_add_of_le later
      rcases Nat.lt_or_ge k right.length with second | beyond
      · rw [store_inside _ _ _ _ (by rw [List.length_append]; omega), ← Nat.add_assoc,
          store_inside _ _ _ _ second, List.getElem_append_right (by omega)]
        simp only [Nat.add_sub_cancel_left]
      · rw [store_outside _ _ _ _ (by rw [List.length_append]; omega),
          store_outside _ _ _ _ (by omega), store_outside _ _ _ _ (by omega)]

/-- A field of a stored run, with bytes before and behind it. -/
theorem store_field (m : Memory) (base : Nat) {k : Nat} (bytes before after : List (BitVec 8))
    (field : Vector (BitVec 8) k) (split : bytes = before ++ (field.toList ++ after)) (i : Nat)
    (inside : i < k) : store m base bytes (base + (before.length + i)) = field[i] := by
  subst split
  have stored : before.length + i < (before ++ (field.toList ++ after)).length := by
    simp only [List.length_append, Vector.length_toList]
    omega
  rw [store_inside _ _ _ _ stored, List.getElem_append_right (by omega)]
  simp only [Nat.add_sub_cancel_left]
  rw [List.getElem_append_left (by rw [Vector.length_toList]; exact inside), Vector.getElem_toList]

/-! Records of `n` bytes each, laid out one after the other. -/

theorem length_flatMap_records {α : Type} (bytes : α → List (BitVec 8)) {n : Nat}
    (records : List α) (uniform : ∀ x ∈ records, (bytes x).length = n) :
    (records.flatMap bytes).length = n * records.length := by
  induction records with
  | nil => rfl
  | cons x rest ih =>
    have tail := ih fun y member => uniform y (List.mem_cons_of_mem x member)
    rw [List.flatMap_cons, List.length_append, uniform x List.mem_cons_self, tail,
      List.length_cons, Nat.mul_succ, Nat.add_comm]

theorem getElem?_flatMap_records {α : Type} (bytes : α → List (BitVec 8)) {n : Nat}
    (records : List α) (uniform : ∀ x ∈ records, (bytes x).length = n) (i k : Nat)
    (inside : k < n) :
    (records.flatMap bytes)[n * i + k]? = records[i]?.bind fun x => (bytes x)[k]? := by
  induction records generalizing i with
  | nil => simp
  | cons x rest ih =>
    have head := uniform x List.mem_cons_self
    rw [List.flatMap_cons]
    cases i with
    | zero =>
      rw [Nat.mul_zero, Nat.zero_add, List.getElem?_append_left (by rw [head]; exact inside)]
      rfl
    | succ i =>
      have skip : n * (i + 1) + k - (bytes x).length = n * i + k := by
        rw [head, Nat.mul_succ]
        omega
      rw [List.getElem?_append_right (by rw [head, Nat.mul_succ]; omega), skip,
        ih fun y member => uniform y (List.mem_cons_of_mem x member)]
      rfl

theorem store32_outside (m : Memory) (dest a : Nat) (v : BitVec 32)
    (outside : a < dest ∨ dest + 4 ≤ a) : store32 m dest v a = m a :=
  store_outside m dest a (wordBytes v) outside

/-- The bytes of a stored word. -/
theorem store32_inside (m : Memory) (dest k : Nat) (v : BitVec 32) (inside : k < 4) :
    store32 m dest v (dest + k) = byteOf v k := by
  unfold store32
  rw [store_inside m dest k (wordBytes v) inside]
  rcases (by omega : k = 0 ∨ k = 1 ∨ k = 2 ∨ k = 3) with rfl | rfl | rfl | rfl <;> rfl

theorem load32_store32 (m : Memory) (dest : Nat) (v : BitVec 32) :
    load32 (store32 m dest v) dest = v := by
  have low := store32_inside m dest 0 v (by decide)
  rw [Nat.add_zero] at low
  unfold load32
  rw [store32_inside m dest 3 v (by decide), store32_inside m dest 2 v (by decide),
    store32_inside m dest 1 v (by decide), low, join32_bytes]

theorem load32_store_outside (m : Memory) (dest a : Nat) (bytes : List (BitVec 8))
    (outside : a + 4 ≤ dest ∨ dest + bytes.length ≤ a) :
    load32 (store m dest bytes) a = load32 m a := by
  unfold load32
  rw [store_outside m dest _ bytes (by omega), store_outside m dest _ bytes (by omega),
    store_outside m dest _ bytes (by omega), store_outside m dest _ bytes (by omega)]

theorem load32_store32_outside (m : Memory) (dest a : Nat) (v : BitVec 32)
    (outside : a + 4 ≤ dest ∨ dest + 4 ≤ a) : load32 (store32 m dest v) a = load32 m a :=
  load32_store_outside m dest a (wordBytes v) outside

/-- The number in the low half of a stored word is the one stored, as far as it fits. -/
theorem load16_store32_ofInt (m : Memory) (dest : Nat) (value : Int) :
    load16 (store32 m dest (BitVec.ofInt 32 value)) dest = BitVec.ofInt 16 value := by
  have low := store32_inside m dest 0 (BitVec.ofInt 32 value) (by decide)
  rw [Nat.add_zero] at low
  unfold load16
  rw [low, store32_inside m dest 1 _ (by decide)]
  apply BitVec.eq_of_toNat_eq
  rw [toNat_join16]
  simp only [byteOf, BitVec.toNat_setWidth, BitVec.toNat_ushiftRight, BitVec.toNat_ofInt,
    Nat.shiftRight_eq_div_pow]
  omega

theorem load16_store_outside (m : Memory) (dest a : Nat) (bytes : List (BitVec 8))
    (outside : a + 2 ≤ dest ∨ dest + bytes.length ≤ a) :
    load16 (store m dest bytes) a = load16 m a := by
  unfold load16
  rw [store_outside m dest _ bytes (by omega), store_outside m dest _ bytes (by omega)]

/-- `later` holds what `m` holds in front of `bound`. -/
def AgreeBelow (bound : Nat) (later m : Memory) : Prop := ∀ a < bound, later a = m a

theorem AgreeBelow.refl (bound : Nat) (m : Memory) : AgreeBelow bound m m := fun _ _ => rfl

theorem AgreeBelow.store32 {bound dest : Nat} {later m : Memory} {v : BitVec 32}
    (agree : AgreeBelow bound later m) (behind : bound ≤ dest) :
    AgreeBelow bound (ByteMemory.store32 later dest v) m := by
  intro a inside
  rw [store32_outside later dest a v (Or.inl (Nat.lt_of_lt_of_le inside behind))]
  exact agree a inside

theorem load16_store32_outside (m : Memory) (dest a : Nat) (v : BitVec 32)
    (outside : a + 2 ≤ dest ∨ dest + 4 ≤ a) : load16 (store32 m dest v) a = load16 m a :=
  load16_store_outside m dest a (wordBytes v) outside

/-- The high bytes of a word in memory. -/
theorem byteOf_load32 (m : Memory) (a : Nat) :
    byteOf (load32 m a) 3 = m (a + 3) ∧ byteOf (load32 m a) 2 = m (a + 2) := by
  have bytes := (join32_inj _ _ _ _ _ _ _ _).mp (join32_bytes (load32 m a))
  exact ⟨bytes.1, bytes.2.1⟩

/-- A word stored two bytes below another replaces the low half of it. -/
theorem load32_store32_half (m : Memory) (dest : Nat) (v : BitVec 32) :
    load32 (store32 m dest v) (dest + 2) =
      join32 (byteOf (load32 m (dest + 2)) 3) (byteOf (load32 m (dest + 2)) 2)
        (byteOf v 3) (byteOf v 2) := by
  obtain ⟨high, low⟩ := byteOf_load32 m (dest + 2)
  have third := store32_inside m dest 3 v (by decide)
  rw [high, low]
  unfold load32
  rw [store32_outside m dest (dest + 2 + 3) v (by omega),
    store32_outside m dest (dest + 2 + 2) v (by omega), store32_inside m dest 2 v (by decide)]
  exact congrArg (fun b => join32 _ _ b _) third

end GasSub.Library.ByteMemory
