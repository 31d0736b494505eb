import Mathlib.Algebra.Order.Ring.Int
import Mathlib.Data.List.Basic

/-!
# Splitting a stream at a two-symbol terminator

Lines of a stream end with the symbols `a`, `b` in succession. A stream that
arrives in pieces has the lines of its concatenation; a terminator may then lie
across two pieces. `lines_flatten` computes the lines piece by piece when none
does and each piece has at most one.
-/
namespace GasSub.Library.Terminator

variable {α : Type} [DecidableEq α] (a b : α)

/-- The part before the first terminator and the part after it. -/
def splitFirst : List α → Option (List α × List α)
  | [] => none
  | c :: rest =>
    if c = a ∧ rest.head? = some b then some ([], rest.tail)
    else (splitFirst rest).map fun parts => (c :: parts.1, parts.2)

/-- The terminated lines, the first one continuing `acc`. -/
def linesFrom (acc : List α) : List α → List (List α)
  | [] => []
  | [_] => []
  | c :: d :: rest =>
    if c = a ∧ d = b then acc :: linesFrom [] rest else linesFrom (acc ++ [c]) (d :: rest)

/-- The terminated lines of a stream; what follows the last terminator is not one. -/
def lines (stream : List α) : List (List α) := linesFrom a b [] stream

variable {a b}

theorem linesFrom_eq (acc stream : List α) :
    linesFrom a b acc stream =
      match splitFirst a b stream with
      | none => []
      | some (line, rest) => (acc ++ line) :: lines a b rest := by
  induction stream generalizing acc with
  | nil => rfl
  | cons c rest ih =>
    cases rest with
    | nil => simp [linesFrom, splitFirst]
    | cons d rest =>
      unfold linesFrom splitFirst
      by_cases here : c = a ∧ d = b
      · simp [here, lines]
      · have there : ¬ (c = a ∧ (d :: rest).head? = some b) := by simpa using here
        rw [if_neg here, if_neg there, ih]
        cases splitFirst a b (d :: rest) with
        | none => rfl
        | some parts => simp

theorem lines_none {stream : List α} (whole : splitFirst a b stream = none) :
    lines a b stream = [] := by
  rw [lines, linesFrom_eq, whole]

theorem lines_some {stream line rest : List α}
    (split : splitFirst a b stream = some (line, rest)) :
    lines a b stream = line :: lines a b rest := by
  rw [lines, linesFrom_eq, split]
  rfl

theorem lines_eq_nil_iff (stream : List α) :
    lines a b stream = [] ↔ splitFirst a b stream = none := by
  cases split : splitFirst a b stream with
  | none => simp [lines_none split]
  | some parts =>
    have first : lines a b stream = parts.1 :: lines a b parts.2 := lines_some split
    simp [first]

/-- The parts and the terminator make up the stream. -/
theorem splitFirst_append {stream line rest : List α}
    (split : splitFirst a b stream = some (line, rest)) : stream = line ++ a :: b :: rest := by
  induction stream generalizing line with
  | nil => cases split
  | cons c tail ih =>
    unfold splitFirst at split
    by_cases here : c = a ∧ tail.head? = some b
    · rw [if_pos here, Option.some.injEq, Prod.mk.injEq] at split
      obtain ⟨rfl, rfl⟩ := split
      cases tail with
      | nil => simp at here
      | cons d tail =>
        obtain ⟨rfl, next⟩ := here
        obtain rfl := Option.some.inj next
        rfl
    · rw [if_neg here, Option.map_eq_some_iff] at split
      obtain ⟨parts, found, same⟩ := split
      simp only [Prod.mk.injEq] at same
      have tailSplit : splitFirst a b tail = some (parts.1, rest) := by rw [found, ← same.2]
      rw [← same.1, ih tailSplit]
      rfl

omit [DecidableEq α] in
/-- A terminator at the head. -/
theorem pair_prefix_cons_iff {c : α} {rest : List α} :
    [a, b] <+: c :: rest ↔ c = a ∧ rest.head? = some b := by
  rw [List.cons_prefix_cons, eq_comm]
  cases rest with
  | nil => simp
  | cons d rest => simp [List.cons_prefix_cons, eq_comm]

/-- The split finds a terminator just if there is one. -/
theorem isSome_splitFirst_iff (stream : List α) :
    (splitFirst a b stream).isSome ↔ [a, b] <:+: stream := by
  induction stream with
  | nil => simp [splitFirst]
  | cons c rest ih =>
    rw [List.infix_cons_iff, pair_prefix_cons_iff, ← ih, splitFirst]
    by_cases here : c = a ∧ rest.head? = some b
    · rw [if_pos here]
      exact iff_of_true rfl (Or.inl here)
    · rw [if_neg here, Option.isSome_map, or_iff_right here]

/-- It is the first one. -/
theorem splitFirst_eq_dropInfix? (stream : List α) :
    splitFirst a b stream = stream.dropInfix? [a, b] := by
  suffices general : ∀ acc, List.dropInfix?.go [a, b] stream acc =
      (splitFirst a b stream).map fun parts => (acc.reverse ++ parts.1, parts.2) by
    have whole := general []
    simpa [List.dropInfix?] using whole.symm
  induction stream with
  | nil => intro acc; rfl
  | cons c rest ih =>
    intro acc
    unfold List.dropInfix?.go splitFirst
    by_cases here : c = a ∧ rest.head? = some b
    · obtain ⟨tail, rfl⟩ : ∃ tail, rest = b :: tail := List.head?_eq_some_iff.mp here.2
      obtain ⟨rfl, -⟩ := here
      simp [List.dropPrefix?]
    · have absent : List.dropPrefix? (c :: rest) [a, b] = none := by
        rw [Option.eq_none_iff_forall_ne_some]
        intro tail found
        obtain ⟨front, whole, same⟩ := List.dropPrefix?_eq_some_iff.mp found
        obtain rfl := eq_of_beq same
        exact here (pair_prefix_cons_iff.mp ⟨tail, whole.symm⟩)
      rw [absent, if_neg here, Option.map_map]
      refine (ih (c :: acc)).trans (congrArg (Option.map · _) (funext fun parts => ?_))
      rw [List.reverse_cons, List.append_assoc]
      rfl

/-! ### Pieces -/

/-- The terminator lies across `x` and `y`. -/
def Across (a b : α) (x y : List α) : Prop := x.getLast? = some a ∧ y.head? = some b

instance (x y : List α) : Decidable (Across a b x y) := inferInstanceAs (Decidable (_ ∧ _))

/-- A first part without terminators only delays the split. -/
theorem splitFirst_append_left (x y : List α) (whole : splitFirst a b x = none)
    (apart : ¬ Across a b x y) :
    splitFirst a b (x ++ y) = (splitFirst a b y).map fun parts => (x ++ parts.1, parts.2) := by
  induction x with
  | nil => simp
  | cons c rest ih =>
    unfold splitFirst at whole
    by_cases here : c = a ∧ rest.head? = some b
    · rw [if_pos here] at whole
      cases whole
    · rw [if_neg here, Option.map_eq_none_iff] at whole
      have apart' : ¬ Across a b rest y := by
        intro across
        apply apart
        refine ⟨?_, across.2⟩
        cases rest with
        | nil => cases across.1
        | cons d rest => exact across.1
      have still : ¬ (c = a ∧ (rest ++ y).head? = some b) := by
        intro both
        cases rest with
        | nil => exact apart ⟨by rw [both.1]; rfl, both.2⟩
        | cons d rest => exact here both
      rw [List.cons_append, splitFirst, if_neg still, ih whole apart', Option.map_map]
      rfl

/-- What follows the first terminator goes to the second part. -/
theorem splitFirst_append_right {x line rest : List α} (y : List α)
    (split : splitFirst a b x = some (line, rest)) :
    splitFirst a b (x ++ y) = some (line, rest ++ y) := by
  induction x generalizing line with
  | nil => cases split
  | cons c tail ih =>
    unfold splitFirst at split
    by_cases here : c = a ∧ tail.head? = some b
    · rw [if_pos here, Option.some.injEq, Prod.mk.injEq] at split
      obtain ⟨rfl, rfl⟩ := split
      cases tail with
      | nil => simp at here
      | cons d tail =>
        have still : c = a ∧ (d :: tail ++ y).head? = some b := here
        rw [List.cons_append, splitFirst, if_pos still]
        rfl
    · rw [if_neg here, Option.map_eq_some_iff] at split
      obtain ⟨parts, found, same⟩ := split
      simp only [Prod.mk.injEq] at same
      have still : ¬ (c = a ∧ (tail ++ y).head? = some b) := by
        intro both
        cases tail with
        | nil => cases found
        | cons d tail => exact here both
      have tailSplit : splitFirst a b tail = some (parts.1, rest) := by rw [found, ← same.2]
      rw [List.cons_append, splitFirst, if_neg still, ih tailSplit]
      rw [Option.map_some, same.1]

/-- The number of lines does not depend on what the first one continues. -/
theorem length_linesFrom (acc stream : List α) :
    (linesFrom a b acc stream).length = (lines a b stream).length := by
  rw [lines, linesFrom_eq, linesFrom_eq]
  cases splitFirst a b stream with
  | none => rfl
  | some parts => rfl

/-- A symbol that cannot start a terminator does not count. -/
theorem length_lines_skip {d : α} (other : d ≠ a) (stream : List α) :
    (lines a b (d :: stream)).length = (lines a b stream).length := by
  cases stream with
  | nil => rfl
  | cons e rest =>
    rw [lines, linesFrom, if_neg (fun both => other both.1), length_linesFrom]

/-- Terminators of a concatenation: those of the parts and one that lies across. -/
theorem length_lines_append (distinct : a ≠ b) (x y : List α) :
    (lines a b (x ++ y)).length =
      (lines a b x).length + (lines a b y).length + (if Across a b x y then 1 else 0) := by
  suffices general : ∀ acc, (linesFrom a b acc (x ++ y)).length =
      (linesFrom a b acc x).length + (lines a b y).length + (if Across a b x y then 1 else 0) from
    general []
  intro acc
  induction acc, x using linesFrom.induct (a := a) (b := b) with
  | case1 acc =>
    have apart : ¬ Across a b [] y := fun across => by cases across.1
    rw [if_neg apart, List.nil_append, length_linesFrom]
    simp [linesFrom]
  | case2 acc c =>
    cases y with
    | nil => simp [linesFrom, lines, Across]
    | cons d rest =>
      have across : Across a b [c] (d :: rest) ↔ c = a ∧ d = b := by simp [Across]
      simp only [across, List.cons_append, List.nil_append, linesFrom, List.length_nil]
      by_cases here : c = a ∧ d = b
      · have skipped := length_lines_skip (b := b) (fun same => distinct (same.symm.trans here.2))
          (d := d) rest
        rw [if_pos here, if_pos here, List.length_cons, length_linesFrom, skipped]
        omega
      · rw [if_neg here, if_neg here, length_linesFrom]
        omega
  | case3 acc c d rest here ih =>
    have across : Across a b (c :: d :: rest) y ↔ Across a b rest y := by
      cases rest with
      | nil =>
        have notLast : ¬ d = a := fun same => distinct (same.symm.trans here.2)
        simp [Across, notLast]
      | cons e rest => simp [Across]
    simp only [List.cons_append, linesFrom, if_pos here, List.length_cons, across, ih]
    omega
  | case4 acc c d rest here ih =>
    have across : Across a b (c :: d :: rest) y ↔ Across a b (d :: rest) y := by simp [Across]
    simp only [List.cons_append, linesFrom, if_neg here, across]
    exact ih

/-! ### Streams in pieces -/

variable (a b)

/-- The lines computed piece by piece; `carried` is the unfinished line so far,
and what a piece holds after its first terminator is carried on. -/
def linesByPiece (carried : List α) : List (List α) → List (List α)
  | [] => []
  | piece :: rest =>
    match splitFirst a b piece with
    | none => linesByPiece (carried ++ piece) rest
    | some (line, left) => (carried ++ line) :: linesByPiece left rest

/-- No terminator lies across two pieces. -/
def Uncut (pieces : List (List α)) : Prop := List.IsChain (fun x y => ¬ Across a b x y) pieces

variable {a b}

omit [DecidableEq α] in
theorem across_flatten (x piece : List α) (rest : List (List α)) (filled : piece ≠ []) :
    Across a b x (piece :: rest).flatten ↔ Across a b x piece := by
  cases piece with
  | nil => exact absurd rfl filled
  | cons c piece => rfl

/-- The terminators inside the pieces are terminators of the stream. -/
theorem sum_lines_le (distinct : a ≠ b) (pieces : List (List α)) :
    (pieces.map fun piece => (lines a b piece).length).sum ≤ (lines a b pieces.flatten).length := by
  induction pieces with
  | nil => exact Nat.le_refl 0
  | cons piece rest ih =>
    rw [List.map_cons, List.sum_cons, List.flatten_cons, length_lines_append distinct]
    omega

/-- If there are no others, none lies across two pieces. -/
theorem uncut_of_sum (distinct : a ≠ b) (pieces : List (List α))
    (filled : ∀ piece ∈ pieces, piece ≠ [])
    (all : (lines a b pieces.flatten).length ≤
      (pieces.map fun piece => (lines a b piece).length).sum) : Uncut a b pieces := by
  induction pieces with
  | nil => exact List.IsChain.nil
  | cons piece rest ih =>
    rw [List.map_cons, List.sum_cons, List.flatten_cons, length_lines_append distinct] at all
    have fewer := sum_lines_le distinct rest
    have tail := ih (fun p member => filled p (List.mem_cons_of_mem _ member)) (by omega)
    cases rest with
    | nil => exact List.IsChain.singleton piece
    | cons next rest =>
      have apart : ¬ Across a b piece next := by
        intro across
        rw [if_pos ((across_flatten _ next rest (filled next (by simp))).mpr across)] at all
        omega
      exact List.IsChain.cons_cons apart tail

/-- A stream whose pieces cut no terminator and hold at most one each has the
lines computed piece by piece. -/
theorem lines_flatten (pieces : List (List α)) (carried : List α)
    (filled : ∀ piece ∈ pieces, piece ≠ []) (uncut : Uncut a b (carried :: pieces))
    (single : ∀ piece ∈ pieces, (lines a b piece).length ≤ 1)
    (open' : splitFirst a b carried = none) :
    lines a b (carried ++ pieces.flatten) = linesByPiece a b carried pieces := by
  induction pieces generalizing carried with
  | nil => simp [linesByPiece, lines_none open']
  | cons piece rest ih =>
    have here := filled piece List.mem_cons_self
    have later : ∀ p ∈ rest, p ≠ [] := fun p member => filled p (List.mem_cons_of_mem _ member)
    have fewer : ∀ p ∈ rest, (lines a b p).length ≤ 1 :=
      fun p member => single p (List.mem_cons_of_mem _ member)
    obtain ⟨apart, tail⟩ := List.isChain_cons_cons.mp uncut
    -- what is carried on ends as the piece does
    have carriesOn : ∀ left, (left = [] ∨ left.getLast? = piece.getLast?) →
        Uncut a b (left :: rest) := by
      intro left ending
      cases rest with
      | nil => exact List.IsChain.singleton left
      | cons next rest =>
        refine List.IsChain.cons_cons ?_ (List.isChain_cons_cons.mp tail).2
        intro across
        cases ending with
        | inl empty =>
          rw [empty] at across
          cases across.1
        | inr same =>
          exact (List.isChain_cons_cons.mp tail).1 ⟨same.symm.trans across.1, across.2⟩
    have delayed := splitFirst_append_left carried piece open' apart
    unfold linesByPiece
    cases split : splitFirst a b piece with
    | none =>
      have last : (carried ++ piece).getLast? = piece.getLast? := by
        rw [List.getLast?_append]
        cases piece with
        | nil => exact absurd rfl here
        | cons c piece => simp [List.getLast?_cons]
      rw [split, Option.map_none] at delayed
      rw [List.flatten_cons, ← List.append_assoc]
      exact ih (carried ++ piece) later (carriesOn _ (Or.inr last)) fewer delayed
    | some parts =>
      obtain ⟨line, left⟩ := parts
      have whole := splitFirst_append split
      have once := single piece List.mem_cons_self
      rw [lines_some split, List.length_cons] at once
      have closed : splitFirst a b left = none :=
        (lines_eq_nil_iff left).mp (List.eq_nil_of_length_eq_zero (by omega))
      have last : left = [] ∨ left.getLast? = piece.getLast? := by
        cases left with
        | nil => exact Or.inl rfl
        | cons c left => simp [whole, List.getLast?_cons]
      rw [split, Option.map_some] at delayed
      rw [List.flatten_cons, ← List.append_assoc,
        lines_some (splitFirst_append_right _ delayed)]
      simp only
      rw [ih left later (carriesOn left last) fewer closed]

/-- Piecewise lines come from pieces that hold a terminator. -/
theorem linesByPiece_eq_nil_iff (carried : List α) (pieces : List (List α)) :
    linesByPiece a b carried pieces = [] ↔ ∀ piece ∈ pieces, splitFirst a b piece = none := by
  induction pieces generalizing carried with
  | nil => simp [linesByPiece]
  | cons piece rest ih =>
    unfold linesByPiece
    cases split : splitFirst a b piece with
    | none => simp [split, ih]
    | some parts => simp [split]

end GasSub.Library.Terminator
