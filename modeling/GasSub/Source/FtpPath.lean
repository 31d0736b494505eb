import GasSub.Library.CharArray
import GasSub.Source.FtpCommand

/-!
# Joining paths

`make_path` of `hfio.c` on the array it writes to. A text is read up to its NUL;
a read in front of the array or a write behind it has no result. `joinPath` is
the text `make_path` leaves when it has a result.
-/
namespace GasSub.Source.Hvsftpd
open GasSub.Library.CharArray

abbrev Path := List INT8U

def maxPathLen : Nat := 128

def slash : INT8U := 0x2F
def backslash : INT8U := 0x5C

def isSeparator (c : INT8U) : Bool := c = backslash ∨ c = slash

/-- `l = strlen(buf)`, and a separator in front of it gives way to the NUL. -/
def cutSeparator (buf : List INT8U) : Option (List INT8U × Nat) :=
  (text? 0 buf).bind fun text =>
    match text.getLast? with
    -- `buf[-1]`
    | none => none
    | some c =>
      if isSeparator c then some (buf.set (text.length - 1) 0, text.length - 1)
      else some (buf, text.length)

/-- A path without the separator it starts with. -/
def trimStart (path : Path) : Path := if path.head?.any isSeparator then path.tail else path

/-- `root` is missing where the caller passes the buffer itself. -/
def makePath (root : Option Path) (path : Path) (buf : List INT8U) (size : Nat) :
    Option (List INT8U × Nat) := do
  let buf ← match root with
    | none => some buf
    | some root => copyN 0 buf root size
  let (buf, _) ← cutSeparator buf
  let buf ← catN 0 buf [slash] size
  let buf ← catN 0 buf (trimStart path) size
  cutSeparator buf

/-! ### The joined path -/

/-- A path without the separator it ends with. -/
def trimEnd (path : Path) : Path := if path.getLast?.any isSeparator then path.dropLast else path

/-- Before the separator at its end is cut. -/
def appendPath (root path : Path) : Path := trimEnd root ++ slash :: trimStart path

def joinPath (root path : Path) : Path := trimEnd (appendPath root path)

theorem trimEnd_append_singleton (init : Path) (c : INT8U) :
    trimEnd (init ++ [c]) = if isSeparator c then init else init ++ [c] := by
  unfold trimEnd
  rw [List.getLast?_concat, List.dropLast_concat]
  rfl

theorem length_trimEnd_le (path : Path) : (trimEnd path).length ≤ path.length := by
  unfold trimEnd
  split
  · rw [List.length_dropLast]
    omega
  · exact Nat.le_refl _

theorem length_le_trimEnd (path : Path) : path.length ≤ (trimEnd path).length + 1 := by
  unfold trimEnd
  split
  · rw [List.length_dropLast]
    omega
  · exact Nat.le_succ _

theorem mem_of_mem_trimEnd {c : INT8U} {path : Path} (member : c ∈ trimEnd path) : c ∈ path := by
  unfold trimEnd at member
  split at member
  · exact List.dropLast_subset path member
  · exact member

theorem mem_of_mem_trimStart {c : INT8U} {path : Path} (member : c ∈ trimStart path) :
    c ∈ path := by
  unfold trimStart at member
  split at member
  · exact List.mem_of_mem_tail member
  · exact member

theorem length_trimStart_le (path : Path) : (trimStart path).length ≤ path.length := by
  unfold trimStart
  split
  · rw [List.length_tail]
    omega
  · exact Nat.le_refl _

theorem length_le_trimStart (path : Path) : path.length ≤ (trimStart path).length + 1 := by
  unfold trimStart
  split
  · rw [List.length_tail]
    omega
  · exact Nat.le_succ _

theorem length_appendPath (root path : Path) :
    (appendPath root path).length = (trimEnd root).length + ((trimStart path).length + 1) := by
  rw [appendPath, List.length_append, List.length_cons]

theorem ne_nil_of_head {c : INT8U} {path : Path} (first : path.head? = some c) : path ≠ [] := by
  rintro rfl
  cases first

theorem mem_joinPath {c : INT8U} {root path : Path} (member : c ∈ joinPath root path) :
    c ∈ root ∨ c = slash ∨ c ∈ path := by
  have member := mem_of_mem_trimEnd member
  unfold appendPath at member
  rw [List.mem_append, List.mem_cons] at member
  exact member.imp mem_of_mem_trimEnd (Or.imp_right mem_of_mem_trimStart)

/-- Joining adds a slash and nothing else. -/
theorem notMem_joinPath {c : INT8U} {root path : Path} (differs : c ≠ slash) (inRoot : c ∉ root)
    (inPath : c ∉ path) : c ∉ joinPath root path := by
  intro member
  rcases mem_joinPath member with old | same | new
  · exact inRoot old
  · exact differs same
  · exact inPath new

theorem trimEnd_append_of_ne_nil (front : Path) {rest : Path} (filled : rest ≠ []) :
    trimEnd (front ++ rest) = front ++ trimEnd rest := by
  obtain ⟨init, c, rfl⟩ : ∃ init c, rest = init ++ [c] :=
    ⟨_, _, (List.dropLast_concat_getLast filled).symm⟩
  rw [← List.append_assoc, trimEnd_append_singleton, trimEnd_append_singleton]
  split
  · rfl
  · rw [List.append_assoc]

theorem trimEnd_append {front : Path} (trimmed : trimEnd front = front) (rest : Path) :
    trimEnd (front ++ rest) = front ++ trimEnd rest := by
  by_cases empty : rest = []
  · subst empty
    rw [List.append_nil, trimmed]
    exact (List.append_nil front).symm
  · exact trimEnd_append_of_ne_nil front empty

/-- Only the end of the root takes part in joining. -/
theorem joinPath_append {front : Path} (trimmed : trimEnd front = front) (root path : Path) :
    joinPath (front ++ root) path = front ++ joinPath root path := by
  unfold joinPath appendPath
  rw [trimEnd_append trimmed, List.append_assoc, trimEnd_append trimmed]

theorem joinPath_of_trimmed {root : Path} (trimmed : trimEnd root = root) (path : Path) :
    joinPath root path = root ++ joinPath [] path := by
  have joined := joinPath_append trimmed [] path
  rwa [List.append_nil] at joined

theorem trimEnd_head (path : Path) : trimEnd path = [] ∨ (trimEnd path).head? = path.head? := by
  cases path with
  | nil => exact Or.inl rfl
  | cons c rest =>
    by_cases empty : rest = []
    · subst empty
      have cut := trimEnd_append_singleton [] c
      rw [List.nil_append] at cut
      rw [cut]
      split
      · exact Or.inl rfl
      · exact Or.inr rfl
    · have kept := trimEnd_append_of_ne_nil [c] empty
      rw [List.singleton_append] at kept
      rw [kept]
      exact Or.inr rfl

/-- Joined to a root without a separator at its end, a path adds nothing or begins
with a slash. -/
theorem joinPath_head {root : Path} (begins : root = [] ∨ root.head? = some slash) (path : Path) :
    joinPath root path = [] ∨ (joinPath root path).head? = some slash := by
  have slashed : (appendPath root path).head? = some slash := by
    unfold appendPath
    cases cut : trimEnd root with
    | nil => rfl
    | cons c rest =>
      have same := (trimEnd_head root).resolve_left (by rw [cut]; exact List.cons_ne_nil _ _)
      have filled : root ≠ [] := by
        intro empty
        rw [empty] at cut
        cases cut
      rw [cut, begins.resolve_left filled] at same
      exact same
  exact (trimEnd_head (appendPath root path)).imp_right fun same => same.trans slashed

/-! ### `make_path` in its array -/

/-- The array `out` is `buf` with another text; what lies behind the first `k` bytes stays. -/
structure Rewritten (k : Nat) (buf out : List INT8U) (text : Path) : Prop where
  holds : Holds 0 out text
  length : out.length = buf.length
  behind : out.drop k = buf.drop k

theorem Rewritten.trans {k : Nat} {buf mid out : List INT8U} {before after : Path}
    (first : Rewritten k buf mid before) (second : Rewritten k mid out after) :
    Rewritten k buf out after where
  holds := second.holds
  length := second.length.trans first.length
  behind := second.behind.trans first.behind

theorem cutSeparator_eq {k : Nat} {buf : List INT8U} {text : Path} (holds : Holds 0 buf text)
    (filled : text ≠ []) (within : text.length ≤ k) :
    ∃ out, cutSeparator buf = some (out, (trimEnd text).length) ∧
      Rewritten k buf out (trimEnd text) := by
  obtain ⟨init, c, rfl⟩ : ∃ init c, text = init ++ [c] :=
    ⟨_, _, (List.dropLast_concat_getLast filled).symm⟩
  unfold cutSeparator
  simp only [text?_of_holds holds, Option.bind_some, List.getLast?_concat,
    trimEnd_append_singleton]
  rw [List.length_append, List.length_singleton] at within
  by_cases separator : isSeparator c = true
  · simp only [separator, if_true, List.length_append, List.length_singleton,
      Nat.add_sub_cancel]
    exact ⟨_, rfl, holds_set_last holds, List.length_set,
      List.drop_set_of_lt (Nat.lt_of_succ_le within)⟩
  · simp only [separator]
    exact ⟨buf, rfl, holds, rfl, rfl⟩

theorem cutSeparator_nil {buf : List INT8U} (holds : Holds 0 buf []) : cutSeparator buf = none := by
  rw [cutSeparator, text?_of_holds holds]
  rfl

theorem catN_rewritten {k : Nat} {buf source : List INT8U} {text : Path} {n : Nat}
    (holds : Holds 0 buf text) (free : 0 ∉ source) (inside : k ≤ buf.length)
    (room : (text ++ source.take n).length < k) :
    ∃ out, catN 0 buf source n = some out ∧ Rewritten k buf out (text ++ source.take n) := by
  have enough : (text ++ source.take n).length < buf.length := Nat.lt_of_lt_of_le room inside
  refine ⟨_, by rw [catN_eq holds, if_pos enough], ?_, length_overwrite enough,
    drop_overwrite room⟩
  apply holds_overwrite
  rw [List.mem_append, not_or]
  exact ⟨holds.free, fun member => free (List.mem_of_mem_take member)⟩

/-- In place: the array has room for both parts and a slash between them. -/
theorem makePath_inPlace {k : Nat} {buf : List INT8U} {root path : Path} {size : Nat}
    (holds : Holds 0 buf root) (filled : root ≠ []) (free : 0 ∉ path) (bound : 1 ≤ size)
    (whole : (trimStart path).length ≤ size) (inside : k ≤ buf.length)
    (room : (appendPath root path).length < k) :
    ∃ out, makePath none path buf size = some (out, (joinPath root path).length) ∧
      Rewritten k buf out (joinPath root path) := by
  have one : [slash].take size = [slash] := List.take_of_length_le bound
  have all : (trimStart path).take size = trimStart path := List.take_of_length_le whole
  have sum := length_appendPath root path
  have rootWithin : root.length ≤ k := by
    have cut := length_le_trimEnd root
    omega
  obtain ⟨cut, cutEq, first⟩ := cutSeparator_eq holds filled rootWithin
  have slashRoom : (trimEnd root ++ [slash].take size).length < k := by
    rw [one, List.length_append, List.length_singleton]
    omega
  obtain ⟨slashed, slashedEq, second⟩ :=
    catN_rewritten first.holds (by decide) (first.length ▸ inside) slashRoom
  rw [one] at second
  have pathRoom : (trimEnd root ++ [slash] ++ (trimStart path).take size).length < k := by
    rw [all, List.length_append, List.length_append, List.length_singleton]
    omega
  obtain ⟨joined, joinedEq, third⟩ := catN_rewritten second.holds
    (fun member => free (mem_of_mem_trimStart member))
    (by rw [second.length, first.length]; exact inside) pathRoom
  rw [all, List.append_assoc, List.singleton_append] at third
  have some' : trimEnd root ++ slash :: trimStart path ≠ [] :=
    List.append_ne_nil_of_right_ne_nil _ (List.cons_ne_nil _ _)
  obtain ⟨out, outEq, fourth⟩ := cutSeparator_eq third.holds some' (Nat.le_of_lt room)
  refine ⟨out, ?_, ((first.trans second).trans third).trans fourth⟩
  simp only [makePath, Option.bind_eq_bind, Option.bind_some, cutEq, slashedEq, joinedEq, outEq]
  rfl

/-- In place, without room for what `strncat` takes of the path. -/
theorem makePath_inPlace_full {buf : List INT8U} {root path : Path} {size : Nat}
    (holds : Holds 0 buf root) (bound : 1 ≤ size)
    (outside : root = [] ∨
      buf.length ≤ (trimEnd root).length + 1 + ((trimStart path).take size).length) :
    makePath none path buf size = none := by
  by_cases empty : root = []
  · subst empty
    simp only [makePath, Option.bind_eq_bind, Option.bind_some, cutSeparator_nil holds,
      Option.bind_none]
  have exceeds := outside.resolve_left empty
  have one : [slash].take size = [slash] := List.take_of_length_le bound
  obtain ⟨cut, cutEq, first⟩ := cutSeparator_eq holds empty (Nat.le_refl _)
  simp only [makePath, Option.bind_eq_bind, Option.bind_some, cutEq]
  by_cases room : (trimEnd root ++ [slash].take size).length < cut.length
  · obtain ⟨slashed, slashedEq, second⟩ :=
      catN_rewritten first.holds (by decide) (Nat.le_refl _) room
    rw [one] at second
    have full : ¬ (trimEnd root ++ [slash] ++ (trimStart path).take size).length <
        slashed.length := by
      rw [List.length_append, List.length_append, second.length, first.length]
      exact Nat.not_lt_of_le exceeds
    rw [slashedEq, Option.bind_some, catN_eq second.holds, if_neg full, Option.bind_none]
  · rw [catN_eq first.holds, if_neg room, Option.bind_none]

/-- In place, without room for the path. -/
theorem makePath_inPlace_none {buf : List INT8U} {root path : Path} {size : Nat}
    (holds : Holds 0 buf root) (bound : 1 ≤ size) (whole : (trimStart path).length ≤ size)
    (outside : root = [] ∨ buf.length ≤ (appendPath root path).length) :
    makePath none path buf size = none := by
  refine makePath_inPlace_full holds bound (outside.imp_right fun exceeds => ?_)
  rw [appendPath, List.length_append, List.length_cons] at exceeds
  rw [List.take_of_length_le whole]
  omega

theorem cutSeparator_closed {buf out : List INT8U} {n l : Nat} (length : buf.length = n + 1)
    (closed : buf[n]? = some 0) (cut : cutSeparator buf = some (out, l)) :
    out.length = n + 1 ∧ out[n]? = some 0 := by
  unfold cutSeparator at cut
  obtain ⟨text, -, cut⟩ := Option.bind_eq_some_iff.mp cut
  split at cut
  · cases cut
  · case h_2 c _ =>
    split at cut
    · cases cut
      exact ⟨List.length_set.trans length, closed_set closed _⟩
    · cases cut
      exact ⟨length, closed⟩

theorem catN_closed {buf out source : List INT8U} {n k : Nat} (length : buf.length = n + 1)
    (closed : buf[n]? = some 0) (appended : catN 0 buf source k = some out) :
    out.length = n + 1 ∧ out[n]? = some 0 := by
  obtain ⟨text, -, appended⟩ := Option.bind_eq_some_iff.mp appended
  simp only at appended
  split at appended
  · case isTrue room =>
    cases appended
    exact ⟨(length_overwrite room).trans length, closed_overwrite closed (by omega)⟩
  · cases appended

/-- In place: the NUL behind the joined text before its separator is cut stays. -/
theorem makePath_inPlace_nul {buf out : List INT8U} {root path : Path} {size l : Nat}
    (holds : Holds 0 buf root) (filled : root ≠ []) (bound : 1 ≤ size)
    (whole : (trimStart path).length ≤ size) (made : makePath none path buf size = some (out, l)) :
    out[(appendPath root path).length]? = some 0 := by
  have one : [slash].take size = [slash] := List.take_of_length_le bound
  have all : (trimStart path).take size = trimStart path := List.take_of_length_le whole
  obtain ⟨cut, cutEq, first⟩ := cutSeparator_eq holds filled (Nat.le_refl _)
  simp only [makePath, Option.bind_eq_bind, Option.bind_some, cutEq] at made
  obtain ⟨slashed, slashedEq, made⟩ := Option.bind_eq_some_iff.mp made
  obtain ⟨joined, joinedEq, made⟩ := Option.bind_eq_some_iff.mp made
  have slashedHolds : Holds 0 slashed (trimEnd root ++ [slash]) := by
    rw [catN_eq first.holds, one] at slashedEq
    split at slashedEq
    · cases slashedEq
      refine holds_overwrite fun member => ?_
      exact (List.mem_append.mp member).elim first.holds.free (by decide)
    · cases slashedEq
  have nul : joined[(appendPath root path).length]? = some 0 := by
    rw [catN_eq slashedHolds, all, List.append_assoc, List.singleton_append] at joinedEq
    split at joinedEq
    · cases joinedEq
      exact getElem?_overwrite_self
    · cases joinedEq
  unfold cutSeparator at made
  obtain ⟨text, -, made⟩ := Option.bind_eq_some_iff.mp made
  split at made
  · cases made
  · split at made
    · cases made
      exact closed_set nul _
    · cases made
      exact nul

/-- Whatever `make_path` does in its array, a NUL at the end stays. -/
theorem makePath_closed {path : Path} {buf out : List INT8U} {size n l : Nat}
    (length : buf.length = n + 1) (closed : buf[n]? = some 0)
    (made : makePath none path buf size = some (out, l)) :
    out.length = n + 1 ∧ out[n]? = some 0 := by
  simp only [makePath, Option.bind_eq_bind, Option.bind_some] at made
  obtain ⟨cut, cutEq, made⟩ := Option.bind_eq_some_iff.mp made
  obtain ⟨slashed, slashedEq, made⟩ := Option.bind_eq_some_iff.mp made
  obtain ⟨joined, joinedEq, made⟩ := Option.bind_eq_some_iff.mp made
  obtain ⟨length, closed⟩ := cutSeparator_closed length closed cutEq
  obtain ⟨length, closed⟩ := catN_closed length closed slashedEq
  obtain ⟨length, closed⟩ := catN_closed length closed joinedEq
  exact cutSeparator_closed length closed made

/-- A path appended to an array in place. -/
def makePathIn {n : Nat} (array : Terminated (0 : INT8U) n) (path : Path) (size : Nat) :
    Option (Terminated (0 : INT8U) n) :=
  match made : makePath none path array.symbols size with
  | none => none
  | some (out, _) =>
    have stays := makePath_closed array.size array.closed made
    some ⟨out, stays.1, stays.2⟩

theorem makePathIn_fits {n : Nat} {array : Terminated (0 : INT8U) n} {path : Path} {size : Nat}
    (filled : array.text ≠ []) (free : 0 ∉ path) (bound : 1 ≤ size)
    (whole : (trimStart path).length ≤ size) (room : (appendPath array.text path).length ≤ n) :
    ∃ out, makePathIn array path size = some out ∧ out.text = joinPath array.text path := by
  obtain ⟨symbols, made, rewritten⟩ := makePath_inPlace array.holds filled free bound whole
    (Nat.le_of_eq array.size.symm) (Nat.lt_succ_of_le room)
  unfold makePathIn
  split
  · case h_1 failed =>
    rw [made] at failed
    cases failed
  · case h_2 out l succeeded =>
    obtain rfl : symbols = out := by
      rw [made] at succeeded
      exact congrArg Prod.fst (Option.some.inj succeeded)
    exact ⟨_, rfl, Terminated.text_eq rewritten.holds⟩

theorem makePathIn_none {n : Nat} {array : Terminated (0 : INT8U) n} {path : Path} {size : Nat}
    (bound : 1 ≤ size) (whole : (trimStart path).length ≤ size)
    (outside : array.text = [] ∨ n < (appendPath array.text path).length) :
    makePathIn array path size = none := by
  have failed := makePath_inPlace_none array.holds bound whole
    (outside.imp_right fun exceeds => array.size ▸ exceeds)
  unfold makePathIn
  split
  · rfl
  · case h_2 succeeded =>
    rw [failed] at succeeded
    cases succeeded

/-- From a root with a NUL inside the copied part. -/
theorem makePath_root {k : Nat} {buf : List INT8U} {root : Path} (path : Path) {size : Nat}
    (rootFree : 0 ∉ root) (short : root.length < size) (inside : size ≤ buf.length)
    (within : size ≤ k) :
    ∃ copied, makePath (some root) path buf size = makePath none path copied size ∧
      Rewritten k buf copied root ∧ copied[size - 1]? = some 0 := by
  obtain ⟨copied, copiedEq, holds⟩ := holds_copyN rootFree short inside
  refine ⟨copied, ?_, ⟨holds, length_copyN inside copiedEq, drop_copyN within copiedEq⟩,
    getElem?_copyN_last short inside copiedEq⟩
  simp only [makePath, copiedEq, Option.bind_eq_bind, Option.bind_some]

/-! ### The path of a command -/

/-- The two calls with which a command finds the file `param` names. -/
def commandPath (rootDir currentDir param : Path) (path : List INT8U) : Option (List INT8U) := do
  let (path, _) ← makePath (some rootDir) currentDir path maxPathLen
  let (path, _) ← makePath none param path maxPathLen
  return path

def commandTarget (rootDir currentDir param : Path) : Path :=
  joinPath (joinPath rootDir currentDir) param

theorem commandTarget_of_trimmed {rootDir : Path} (trimmed : trimEnd rootDir = rootDir)
    (currentDir param : Path) :
    commandTarget rootDir currentDir param = rootDir ++ commandTarget [] currentDir param := by
  unfold commandTarget
  rw [joinPath_of_trimmed trimmed, joinPath_append trimmed]

/-- Both calls stay inside an array of `capacity` bytes. -/
def PathsFit (capacity : Nat) (rootDir currentDir param : Path) : Prop :=
  (appendPath rootDir currentDir).length < capacity ∧
    (appendPath (joinPath rootDir currentDir) param).length < capacity

instance (capacity : Nat) (rootDir currentDir param : Path) :
    Decidable (PathsFit capacity rootDir currentDir param) := inferInstanceAs (Decidable (_ ∧ _))

theorem PathsFit.mono {k l : Nat} {rootDir currentDir param : Path}
    (fits : PathsFit k rootDir currentDir param) (more : k ≤ l) :
    PathsFit l rootDir currentDir param :=
  ⟨Nat.lt_of_lt_of_le fits.1 more, Nat.lt_of_lt_of_le fits.2 more⟩

theorem joinPath_ne_nil {root : Path} (filled : trimEnd root ≠ []) (path : Path) :
    joinPath root path ≠ [] := by
  intro empty
  have cut : (appendPath root path).length ≤ (joinPath root path).length + 1 :=
    length_le_trimEnd _
  have some' := List.length_pos_iff.mpr filled
  rw [empty, appendPath, List.length_append, List.length_cons, List.length_nil] at cut
  omega

variable {rootDir currentDir param : Path} {path : List INT8U}

section
variable (rootFree : 0 ∉ rootDir) (filled : trimEnd rootDir ≠ [])
  (rootShort : rootDir.length < maxPathLen) (currentFree : 0 ∉ currentDir)
  (currentShort : currentDir.length ≤ maxPathLen) (paramShort : param.length ≤ maxPathLen)
include rootFree filled rootShort currentShort paramShort

include currentFree in
theorem commandPath_fits {k : Nat} (paramFree : 0 ∉ param) (enough : maxPathLen ≤ k)
    (inside : k ≤ path.length) (fits : PathsFit k rootDir currentDir param) :
    ∃ out, commandPath rootDir currentDir param path = some out ∧
      Rewritten k path out (commandTarget rootDir currentDir param) := by
  have some' : rootDir ≠ [] := fun empty => filled (by rw [empty]; rfl)
  obtain ⟨copied, copiedEq, first, -⟩ := makePath_root currentDir rootFree rootShort
    (Nat.le_trans enough inside) enough
  obtain ⟨mid, midEq, second⟩ := makePath_inPlace first.holds some' currentFree (by decide)
    (Nat.le_trans (length_trimStart_le _) currentShort) (first.length ▸ inside) fits.1
  obtain ⟨out, outEq, third⟩ := makePath_inPlace second.holds (joinPath_ne_nil filled _) paramFree
    (by decide) (Nat.le_trans (length_trimStart_le _) paramShort)
    (by rw [second.length, first.length]; exact inside) fits.2
  refine ⟨out, ?_, (first.trans second).trans third⟩
  simp only [commandPath, copiedEq, midEq, outEq, Option.bind_eq_bind, Option.bind_some]
  rfl

omit filled currentShort paramShort in
/-- A NUL behind the copied part stays. -/
theorem commandPath_closed {n : Nat} {out : List INT8U} (length : path.length = n + 1)
    (behind : maxPathLen ≤ n) (closed : path[n]? = some 0)
    (made : commandPath rootDir currentDir param path = some out) : out[n]? = some 0 := by
  obtain ⟨copied, copiedEq, first, -⟩ := makePath_root (k := maxPathLen) currentDir rootFree rootShort
    (show maxPathLen ≤ path.length by omega) (Nat.le_refl _)
  have kept : copied[n]? = some 0 := by
    have offset : n = maxPathLen + (n - maxPathLen) := by omega
    rw [offset, ← List.getElem?_drop, first.behind, List.getElem?_drop, ← offset, closed]
  simp only [commandPath, copiedEq, Option.bind_eq_bind] at made
  obtain ⟨mid, midEq, made⟩ := Option.bind_eq_some_iff.mp made
  obtain ⟨last, lastEq, made⟩ := Option.bind_eq_some_iff.mp made
  cases made
  obtain ⟨midLength, midClosed⟩ :=
    makePath_closed (first.length.trans length) kept midEq
  exact (makePath_closed midLength midClosed lastEq).2

include currentFree in
/-- Calls that run past the first `n` bytes leave the end of the joined path behind them. -/
theorem commandPath_overrun {k n : Nat} {out : List INT8U} (paramFree : 0 ∉ param)
    (enough : maxPathLen ≤ n) (inside : k ≤ path.length) (fits : PathsFit k rootDir currentDir param)
    (outside : ¬ PathsFit n rootDir currentDir param)
    (made : commandPath rootDir currentDir param path = some out) :
    Holds 0 (out.drop n) ((commandTarget rootDir currentDir param).drop n) := by
  have some' : rootDir ≠ [] := fun empty => filled (by rw [empty]; rfl)
  have more : n < k := Nat.lt_of_not_le fun less => outside (fits.mono less)
  have currentWhole := Nat.le_trans (length_trimStart_le currentDir) currentShort
  have paramWhole := Nat.le_trans (length_trimStart_le param) paramShort
  obtain ⟨copied, copiedEq, start, -⟩ := makePath_root currentDir rootFree rootShort
    (show maxPathLen ≤ path.length by omega) (show maxPathLen ≤ k by omega)
  obtain ⟨mid, midEq, first⟩ := makePath_inPlace start.holds some' currentFree (by decide)
    currentWhole (start.length ▸ inside) fits.1
  have joined := joinPath_ne_nil filled currentDir
  have length : mid.length = path.length := first.length.trans start.length
  obtain ⟨out', outEq, second⟩ := makePath_inPlace first.holds joined paramFree (by decide)
    paramWhole (length.symm ▸ inside) fits.2
  obtain rfl : out' = out := by
    simp only [commandPath, copiedEq, midEq, outEq, Option.bind_eq_bind, Option.bind_some] at made
    exact Option.some.inj made
  rcases Nat.lt_or_ge (commandTarget rootDir currentDir param).length n with short | long
  · -- one of the two texts was one byte longer before its separator was cut
    have ends : out'[n]? = some 0 := by
      have cut1 := length_le_trimEnd (appendPath rootDir currentDir)
      have cut2 := length_le_trimEnd (appendPath (joinPath rootDir currentDir) param)
      have cut := length_le_trimEnd (joinPath rootDir currentDir)
      have target : (commandTarget rootDir currentDir param).length =
        (trimEnd (appendPath (joinPath rootDir currentDir) param)).length := rfl
      have middle : (joinPath rootDir currentDir).length =
        (trimEnd (appendPath rootDir currentDir)).length := rfl
      have sum := length_appendPath (joinPath rootDir currentDir) param
      by_cases last : (appendPath (joinPath rootDir currentDir) param).length < n
      · have exact : (appendPath rootDir currentDir).length = n := by
          have before : ¬ (appendPath rootDir currentDir).length < n := fun less =>
            outside ⟨less, last⟩
          omega
        obtain ⟨again, againEq, kept⟩ := makePath_inPlace first.holds joined paramFree (by decide)
          paramWhole (show n ≤ mid.length by omega) last
        obtain rfl : out' = again := congrArg Prod.fst (Option.some.inj (outEq.symm.trans againEq))
        have nul := makePath_inPlace_nul start.holds some' (by decide) currentWhole midEq
        rw [exact] at nul
        rw [← Nat.add_zero n, ← List.getElem?_drop, kept.behind, List.getElem?_drop, Nat.add_zero]
        exact nul
      · have exact : (appendPath (joinPath rootDir currentDir) param).length = n := by omega
        have nul := makePath_inPlace_nul first.holds joined (by decide) paramWhole outEq
        rwa [exact] at nul
    rw [List.drop_eq_nil_of_le (Nat.le_of_lt short)]
    obtain ⟨within, symbol⟩ := List.getElem?_eq_some_iff.mp ends
    refine ⟨List.not_mem_nil, out'.drop (n + 1), ?_⟩
    rw [List.drop_eq_getElem_cons within, symbol]
    rfl
  · have front : ((commandTarget rootDir currentDir param).take n).length = n :=
      List.length_take_of_le long
    have holds := second.holds
    change Holds 0 out' (commandTarget rootDir currentDir param) at holds
    rw [← List.take_append_drop n (commandTarget rootDir currentDir param)] at holds
    have behind := holds.drop
    rwa [front] at behind

include currentFree in
theorem commandPath_none (enough : maxPathLen ≤ path.length)
    (outside : ¬ PathsFit path.length rootDir currentDir param) :
    commandPath rootDir currentDir param path = none := by
  have some' : rootDir ≠ [] := fun empty => filled (by rw [empty]; rfl)
  obtain ⟨copied, copiedEq, start, -⟩ :=
    makePath_root currentDir rootFree rootShort enough enough
  have currentWhole := Nat.le_trans (length_trimStart_le _) currentShort
  simp only [commandPath, copiedEq, Option.bind_eq_bind]
  by_cases one : (appendPath rootDir currentDir).length < path.length
  · have two : path.length ≤ (appendPath (joinPath rootDir currentDir) param).length :=
      Nat.le_of_not_lt fun two => outside ⟨one, two⟩
    obtain ⟨mid, midEq, first⟩ := makePath_inPlace start.holds some' currentFree (by decide)
      currentWhole (Nat.le_refl _) (start.length ▸ one)
    have failed := makePath_inPlace_none first.holds (by decide)
      (Nat.le_trans (length_trimStart_le _) paramShort)
      (Or.inr (by rw [first.length, start.length]; exact two))
    simp only [midEq, Option.bind_some, failed, Option.bind_none]
  · have failed := makePath_inPlace_none start.holds (by decide) currentWhole
      (Or.inr (start.length ▸ Nat.le_of_not_lt one))
    simp only [failed, Option.bind_none]

end

end GasSub.Source.Hvsftpd
