import GasSub.Library.ByteMemory
import GasSub.Library.CharArray

/-!
# Texts in memory

An array lies in memory as the bytes from an address on. `strlen` looks for the first
NUL behind an address, wherever it is. A text grows by a store that begins on its NUL
and ends with a new one; the array then is the old one overwritten.
-/
namespace GasSub.Library.ByteMemory
open GasSub.Library.CharArray

/-- The `n` bytes from `a` on. -/
def bytesFrom (m : Memory) (a n : Nat) : List (BitVec 8) := (List.range n).map fun k => m (a + k)

/-- As far as the fuel goes. -/
def strlen (m : Memory) : (fuel : Nat) → (a : Nat) → Option Nat
  | 0, _ => none
  | fuel + 1, a => if m a = 0 then some 0 else (strlen m fuel (a + 1)).map Nat.succ

@[simp] theorem length_bytesFrom (m : Memory) (a n : Nat) : (bytesFrom m a n).length = n := by
  rw [bytesFrom, List.length_map, List.length_range]

theorem bytesFrom_congr {m after : Memory} {a n : Nat}
    (same : ∀ k, k < n → after (a + k) = m (a + k)) : bytesFrom after a n = bytesFrom m a n :=
  List.map_congr_left fun k member => same k (List.mem_range.mp member)

theorem bytesFrom_append (m : Memory) (a n k : Nat) :
    bytesFrom m a (n + k) = bytesFrom m a n ++ bytesFrom m (a + n) k := by
  rw [bytesFrom, List.range_add, List.map_append, List.map_map]
  refine congrArg (List.append _) (List.map_congr_left fun j _ => ?_)
  exact congrArg m (Nat.add_assoc a n j).symm

theorem bytesFrom_succ (m : Memory) (a n : Nat) :
    bytesFrom m a (n + 1) = m a :: bytesFrom m (a + 1) n := by
  rw [Nat.add_comm n 1, bytesFrom_append]
  rfl

theorem drop_bytesFrom (m : Memory) (a n k : Nat) :
    (bytesFrom m a (n + k)).drop n = bytesFrom m (a + n) k := by
  rw [bytesFrom_append, List.drop_left' (length_bytesFrom m a n)]

theorem bytesFrom_store_outside (m : Memory) (dest a n : Nat) (bytes : List (BitVec 8))
    (outside : a + n ≤ dest ∨ dest + bytes.length ≤ a) :
    bytesFrom (store m dest bytes) a n = bytesFrom m a n :=
  bytesFrom_congr fun k inside => store_outside m dest (a + k) bytes (by omega)

variable {m : Memory} {a n : Nat} {text more : List (BitVec 8)}

/-- Bytes that lie at the address, read back from the start. -/
theorem bytesFrom_eq_take {bytes : List (BitVec 8)}
    (placed : ∀ k (inside : k < bytes.length), m (a + k) = bytes[k]) (within : n ≤ bytes.length) :
    bytesFrom m a n = bytes.take n := by
  apply List.ext_getElem
  · rw [length_bytesFrom, List.length_take, Nat.min_eq_left within]
  · intro k inside _
    rw [length_bytesFrom] at inside
    simp only [bytesFrom, List.getElem_map, List.getElem_range, List.getElem_take]
    exact placed k (Nat.lt_of_lt_of_le inside within)

/-- A run is read back byte by byte. -/
theorem bytesFrom_store (m : Memory) (dest : Nat) (bytes : List (BitVec 8)) :
    bytesFrom (store m dest bytes) dest bytes.length = bytes := by
  have stored := fun k => store_inside m dest k bytes
  rw [bytesFrom_eq_take stored (Nat.le_refl _), List.take_length]

/-- A text that lies there with its NUL. -/
theorem holds_bytesFrom (free : 0 ∉ text)
    (placed : ∀ k (inside : k < (text ++ [0]).length), m (a + k) = (text ++ [0])[k])
    (room : text.length < n) : Holds 0 (bytesFrom m a n) text := by
  have size : (text ++ [0]).length = text.length + 1 := List.length_append
  obtain ⟨k, rfl⟩ := Nat.exists_eq_add_of_lt room
  have whole := bytesFrom_eq_take placed (Nat.le_refl _)
  rw [List.take_length, size] at whole
  refine ⟨free, bytesFrom m (a + (text.length + 1)) k, ?_⟩
  rw [Nat.add_right_comm, bytesFrom_append, whole, List.append_assoc, List.singleton_append]

/-- The text is what lies at the address. -/
theorem bytesFrom_of_holds (holds : Holds 0 (bytesFrom m a n) text) :
    bytesFrom m a text.length = text := by
  have inside := holds.length_lt
  rw [length_bytesFrom] at inside
  obtain ⟨k, rfl⟩ := Nat.exists_eq_add_of_lt inside
  obtain ⟨rest, placed⟩ := holds.placed
  rw [Nat.add_assoc, bytesFrom_append] at placed
  exact (List.append_inj placed (length_bytesFrom _ _ _)).1

/-- Enough fuel finds the NUL. -/
theorem strlen_holds {fuel : Nat} (holds : Holds 0 (bytesFrom m a n) text)
    (enough : text.length < fuel) : strlen m fuel a = some text.length := by
  induction text generalizing a n fuel with
  | nil =>
    obtain ⟨rest, placed⟩ := holds.placed
    cases n with
    | zero => cases placed
    | succ n =>
      rw [bytesFrom_succ] at placed
      obtain ⟨fuel, rfl⟩ := Nat.exists_eq_add_of_lt enough
      exact if_pos (List.cons.inj placed).1
  | cons c text ih =>
    obtain ⟨rest, placed⟩ := holds.placed
    have free := holds.free
    rw [List.mem_cons, not_or] at free
    cases n with
    | zero => cases placed
    | succ n =>
      rw [bytesFrom_succ] at placed
      obtain ⟨first, behind⟩ := List.cons.inj placed
      cases fuel with
      | zero => cases enough
      | succ fuel =>
        rw [strlen, first, if_neg (Ne.symm free.1),
          ih ⟨free.2, rest, behind⟩ (Nat.lt_of_succ_lt_succ enough), Option.map_some]
        rfl

/-- A store from the NUL of a text on that ends with another one. -/
theorem bytesFrom_store_text (holds : Holds 0 (bytesFrom m a n) text)
    (room : text.length + more.length < n) :
    bytesFrom (store m (a + text.length) (more ++ [0])) a n =
      overwrite 0 (bytesFrom m a n) (text ++ more) := by
  have kept : bytesFrom (store m (a + text.length) (more ++ [0])) a text.length = text :=
    (bytesFrom_store_outside m _ a _ _ (Or.inl (Nat.le_refl _))).trans (bytesFrom_of_holds holds)
  have size : (more ++ [0]).length = more.length + 1 := List.length_append
  have stored := bytesFrom_store m (a + text.length) (more ++ [0])
  rw [size] at stored
  obtain ⟨k, rfl⟩ := Nat.exists_eq_add_of_lt room
  have split : text.length + more.length + k + 1 = text.length + (more.length + 1 + k) := by omega
  have behind : bytesFrom (store m (a + text.length) (more ++ [0]))
      (a + text.length + (more.length + 1)) k = bytesFrom m (a + text.length + (more.length + 1)) k :=
    bytesFrom_store_outside m _ _ k _ (Or.inr (by rw [size]))
  have tail : (bytesFrom m a (text.length + (more.length + 1 + k))).drop
      ((text ++ more).length + 1) = bytesFrom m (a + text.length + (more.length + 1)) k := by
    rw [List.length_append, ← Nat.add_assoc, Nat.add_assoc text.length, drop_bytesFrom, Nat.add_assoc]
  rw [split, bytesFrom_append, kept, bytesFrom_append, stored, behind, overwrite, tail]
  simp only [List.append_assoc, List.singleton_append]

end GasSub.Library.ByteMemory
