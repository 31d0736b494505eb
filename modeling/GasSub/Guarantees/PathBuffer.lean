import GasSub.Source.FtpPath

/-!
# The buffer of `make_path`

`make_path` on a buffer of `size + 1` bytes, with the root in it or copied into it.
`strncpy` puts no NUL behind a root of `size` characters, `strncat` bounds what it
appends and not what it reaches, and of an empty text the byte in front is read.
-/
namespace GasSub.Guarantees.PathBuffer
open GasSub.Source GasSub.Source.Hvsftpd GasSub.Library.CharArray

/-- A call of `make_path`: both texts end with a NUL, and so does the root that the
buffer holds itself. -/
structure PathCall where
  root : Option Path
  path : Path
  buf : List INT8U
  size : Nat
  bound : 2 ≤ size
  length : buf.length = size + 1
  rootFree : ∀ text, root = some text → 0 ∉ text
  pathFree : 0 ∉ path
  terminated : root = none → 0 ∈ buf

/-- It stays inside the buffer, leaves a text there and returns its length. -/
def PathCall.Stays (call : PathCall) : Prop :=
  ∃ out text, makePath call.root call.path call.buf call.size = some (out, text.length) ∧
    out.length = call.size + 1 ∧ Holds 0 out text

/-- The text that the buffer holds once the root is in it. A root of `size` characters
or more needs the NUL that lies behind them already. -/
def PathCall.rootText (call : PathCall) : Option Path :=
  match call.root with
  | none => some (call.buf.takeWhile (· ≠ 0))
  | some text =>
    if text.length < call.size then some text
    else if call.buf[call.size]? = some 0 then some (text.take call.size) else none

/-- The condition: the root is a text with a first character, and with the path and the
slash between them it has at most `size` characters. -/
def PathCall.Fits (call : PathCall) : Prop :=
  ∃ text, call.rootText = some text ∧ text ≠ [] ∧ (appendPath text call.path).length ≤ call.size

/-! ### In place -/

/-- With a text in the buffer. -/
theorem makePath_stays_iff {size : Nat} {buf : List INT8U} {root path : Path} (bound : 2 ≤ size)
    (length : buf.length = size + 1) (holds : Holds 0 buf root) (free : 0 ∉ path) :
    (∃ out text, makePath none path buf size = some (out, text.length) ∧
      out.length = size + 1 ∧ Holds 0 out text) ↔
      root ≠ [] ∧ (appendPath root path).length ≤ size := by
  have sum := length_appendPath root path
  constructor
  · rintro ⟨out, text, made, -⟩
    by_contra outside
    have full : makePath none path buf size = none := by
      refine makePath_inPlace_full holds (by omega) ?_
      rw [not_and_or, not_ne_iff, Nat.not_le] at outside
      refine outside.imp_right fun exceeds => ?_
      rw [List.length_take]
      omega
    rw [full] at made
    cases made
  · rintro ⟨filled, room⟩
    have whole : (trimStart path).length ≤ size := by omega
    obtain ⟨out, made, rewritten⟩ := makePath_inPlace holds filled free
      (Nat.le_of_succ_le bound) whole (Nat.le_of_eq length.symm) (Nat.lt_succ_of_le room)
    exact ⟨out, _, made, rewritten.length.trans length, rewritten.holds⟩

/-! ### From another array -/

/-- A root that is copied stands in the buffer as `strncpy` leaves it. -/
theorem makePath_copied {size : Nat} {buf : List INT8U} {root : Path} (path : Path)
    (length : buf.length = size + 1) :
    makePath (some root) path buf size =
      makePath none path
        (root.take size ++ List.replicate (size - root.length) 0 ++ buf.drop size) size := by
  have inside : size ≤ buf.length := by omega
  simp only [makePath, copyN, if_pos inside, Option.bind_eq_bind, Option.bind_some]

/-- Without a NUL nothing is found. -/
theorem makePath_unterminated {size : Nat} {buf : List INT8U} {path : Path} (unterminated : 0 ∉ buf) :
    makePath none path buf size = none := by
  simp only [makePath, cutSeparator, text?, if_neg unterminated, Option.bind_eq_bind,
    Option.bind_some, Option.bind_none]

/-- A root shorter than `size` arrives with its NUL. -/
theorem copied_short {size : Nat} {buf : List INT8U} {root : Path} (free : 0 ∉ root)
    (short : root.length < size) :
    Holds 0 (root.take size ++ List.replicate (size - root.length) 0 ++ buf.drop size) root := by
  obtain ⟨n, more⟩ : ∃ n, size - root.length = n + 1 := ⟨size - root.length - 1, by omega⟩
  refine ⟨free, List.replicate n 0 ++ buf.drop size, ?_⟩
  rw [List.take_of_length_le (Nat.le_of_lt short), more, List.replicate_succ]
  simp only [List.append_assoc, List.cons_append]

/-- Of a longer one the first `size` characters arrive, in front of the last byte. -/
theorem copied_long {size : Nat} {buf : List INT8U} {root : Path} (length : buf.length = size + 1)
    (long : size ≤ root.length) :
    root.take size ++ List.replicate (size - root.length) 0 ++ buf.drop size =
      root.take size ++ [buf[size]] := by
  rw [Nat.sub_eq_zero_of_le long, List.replicate_zero, List.append_nil,
    List.drop_eq_getElem_cons (by omega), List.drop_eq_nil_of_le (Nat.le_of_eq length)]

/-- Of every call, `make_path` stays inside its buffer exactly under the condition. -/
theorem pathCall_stays_iff (call : PathCall) : call.Stays ↔ call.Fits := by
  obtain ⟨root, path, buf, size, bound, length, rootFree, pathFree, terminated⟩ := call
  unfold PathCall.Stays PathCall.Fits PathCall.rootText
  cases root with
  | none =>
    have holds := holds_takeWhile (terminated rfl)
    simp only [Option.some.injEq, exists_eq_left']
    exact makePath_stays_iff bound length holds pathFree
  | some root =>
    have free := rootFree root rfl
    have last : buf[size]? = some buf[size] := List.getElem?_eq_getElem (by omega)
    simp only [makePath_copied path length]
    by_cases short : root.length < size
    · have copied : (root.take size ++ List.replicate (size - root.length) 0 ++
          buf.drop size).length = size + 1 := by
        simp only [List.length_append, List.length_take, List.length_replicate, List.length_drop]
        omega
      simp only [if_pos short, Option.some.injEq, exists_eq_left']
      exact makePath_stays_iff bound copied (copied_short free short) pathFree
    · have long := Nat.le_of_not_lt short
      have copied : (root.take size ++ [buf[size]]).length = size + 1 := by
        rw [List.length_append, List.length_take, Nat.min_eq_left long, List.length_singleton]
      have front : 0 ∉ root.take size := fun member => free (List.mem_of_mem_take member)
      rw [copied_long length long]
      by_cases closed : buf[size] = 0
      · rw [closed] at copied last ⊢
        simp only [if_neg short, if_pos last, Option.some.injEq, exists_eq_left']
        exact makePath_stays_iff bound copied ⟨front, [], rfl⟩ pathFree
      · have open_end : ¬ buf[size]? = some 0 := fun same =>
          closed (Option.some.inj (last.symm.trans same))
        have unterminated : 0 ∉ root.take size ++ [buf[size]] := by
          rw [List.mem_append, List.mem_singleton]
          exact fun member => member.elim front fun same => closed same.symm
        simp only [makePath_unterminated unterminated, if_neg short, if_neg open_end]
        constructor
        · rintro ⟨out, text, made, -⟩
          cases made
        · rintro ⟨text, found, -⟩
          cases found

/-- In a buffer of nine bytes with `/abcdef` in it there is no room for `gh`. -/
theorem pathCall_notStays : ¬ ∀ call : PathCall, call.Stays := by
  intro always
  obtain ⟨out, text, made, -⟩ := always
    { root := none
      path := asciiBytes "gh"
      buf := asciiBytes "/abcdef" ++ [0, 0]
      size := 8
      bound := by decide
      length := by decide
      rootFree := fun text absent => by cases absent
      pathFree := by decide
      terminated := fun _ => by decide }
  have failed : makePath none (asciiBytes "gh") (asciiBytes "/abcdef" ++ [0, 0]) 8 = none := by
    decide
  rw [failed] at made
  cases made

end GasSub.Guarantees.PathBuffer
