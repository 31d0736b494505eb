import GasSub.Source.FtpCommand

/-!
# FTP command framing and the cutting of the stream

The commands a session dispatches against the lines of its byte stream. A chunk
completes at most one command; what it holds after the CRLF is dropped, and a
CRLF that arrives in two chunks is not seen. The two lists are equal exactly
when the chunks cut no CRLF, hold at most one each, and none goes on after its
CRLF while another is to come.
-/
namespace GasSub.Guarantees.FtpFraming
open GasSub.Source GasSub.Library.Terminator

/-- The stream split at CRLF. -/
abbrev commandLines (stream : List INT8U) : List (List INT8U) := lines 0x0D 0x0A stream

abbrev splitCrlf (bytes : List INT8U) : Option (List INT8U × List INT8U) :=
  splitFirst 0x0D 0x0A bytes

/-- What a chunk holds after its first CRLF. -/
def leftOver (chunk : List INT8U) : List INT8U :=
  match splitCrlf chunk with
  | none => []
  | some (_, rest) => rest

/-- The line is a QUIT, BYE or FMT command. -/
def Closes (line : List INT8U) : Prop :=
  cmdHandler line = some .quit ∨ cmdHandler line = some .fmt

instance (line : List INT8U) : Decidable (Closes line) := inferInstanceAs (Decidable (_ ∨ _))

/-- The chunks cut no CRLF, hold at most one each, and a chunk that goes on after
its CRLF is followed by no other CRLF. -/
structure CarriesLines (chunks : List (List INT8U)) : Prop where
  uncut : Uncut 0x0D 0x0A chunks
  single : ∀ chunk ∈ chunks, (commandLines chunk).length ≤ 1
  nothingLost : chunks.Pairwise fun x y => commandLines y ≠ [] → leftOver x = []

/-! ### What is dispatched -/

/-- The commands of a session that is never closed. -/
def linesDropping (carried : List INT8U) : List (List INT8U) → List (List INT8U)
  | [] => []
  | chunk :: rest =>
    match splitCrlf chunk with
    | none => linesDropping (carried ++ chunk) rest
    | some (line, _) => (carried ++ line).take maxRequestLen :: linesDropping [] rest

/-- The lines up to the first that closes the session. -/
def upToClosing : List (List INT8U) → List (List INT8U)
  | [] => []
  | line :: rest => if Closes line then [line] else line :: upToClosing rest

theorem cmdDisptach_ok_iff (line : List INT8U) : cmdDisptach line = .ok ↔ ¬ Closes line := by
  unfold cmdDisptach Closes
  cases cmdHandler line with
  | none => simp
  | some handler => cases handler <;> simp [FtpHandler.status]

theorem dispatched_freed (cmdBuf : List INT8U) (chunks : List (List INT8U)) :
    dispatched ⟨cmdBuf, true⟩ chunks = [] := by
  induction chunks with
  | nil => rfl
  | cons chunk rest ih =>
    have inert : sockRead ⟨cmdBuf, true⟩ chunk = (⟨cmdBuf, true⟩, none) := by simp [sockRead]
    simp only [dispatched, inert, Option.toList_none, List.nil_append, ih]

/-- The session dispatches a line for each chunk with a CRLF until one closes it. -/
theorem dispatched_eq (chunks : List (List INT8U)) (carried : List INT8U)
    (filled : ∀ chunk ∈ chunks, chunk ≠ []) (nulFree : 0 ∉ carried ++ chunks.flatten) :
    dispatched ⟨carried.take maxRequestLen, false⟩ chunks =
      upToClosing (linesDropping carried chunks) := by
  induction chunks generalizing carried with
  | nil => rfl
  | cons chunk rest ih =>
    rw [List.flatten_cons, ← List.append_assoc, List.mem_append, List.mem_append, not_or, not_or]
      at nulFree
    obtain ⟨⟨carriedFree, chunkFree⟩, restFree⟩ := nulFree
    have later : ∀ c ∈ rest, c ≠ [] := fun c member => filled c (List.mem_cons_of_mem _ member)
    have some' : ¬ chunk.length = 0 := fun zero =>
      filled chunk List.mem_cons_self (List.eq_nil_of_length_eq_zero zero)
    have stored : cString (carried.take maxRequestLen) = carried.take maxRequestLen :=
      cString_of_nulFree fun member => carriedFree (List.mem_of_mem_take member)
    have appended : cmdAppendLoop (carried.take maxRequestLen) chunk =
        match splitCrlf chunk with
        | none => (false, (carried ++ chunk).take maxRequestLen)
        | some (line, _) => (true, (carried ++ line).take maxRequestLen) :=
      cmdAppendLoop_eq carried chunk
    unfold dispatched sockRead linesDropping
    simp only [Bool.false_eq_true, some', or_self, if_false, cmdAppend, stored]
    rw [appended]
    cases split : splitCrlf chunk with
    | none =>
      simp only [Bool.false_eq_true, if_false, Option.toList_none, List.nil_append]
      refine ih (carried ++ chunk) later ?_
      rw [List.mem_append, List.mem_append, not_or, not_or]
      exact ⟨⟨carriedFree, chunkFree⟩, restFree⟩
    | some parts =>
      obtain ⟨line, left⟩ := parts
      have lineFree : 0 ∉ (carried ++ line).take maxRequestLen := by
        intro member
        have whole := splitFirst_append split
        rcases List.mem_append.mp (List.mem_of_mem_take member) with old | new
        · exact carriedFree old
        · rw [whole] at chunkFree
          exact chunkFree (List.mem_append_left _ new)
      simp only [if_true, cString_of_nulFree lineFree, Option.toList_some, List.singleton_append,
        upToClosing]
      by_cases closes : Closes ((carried ++ line).take maxRequestLen)
      · have status : cmdDisptach ((carried ++ line).take maxRequestLen) ≠ .ok :=
          fun ok => (cmdDisptach_ok_iff _).mp ok closes
        rw [if_pos closes]
        simp only [status, ne_eq, not_false_eq_true, decide_true, dispatched_freed]
      · have status : cmdDisptach ((carried ++ line).take maxRequestLen) = .ok :=
          (cmdDisptach_ok_iff _).mpr closes
        rw [if_neg closes]
        simp only [status, ne_eq, not_true_eq_false, decide_false]
        rw [← ih [] later (by simpa using restFree)]
        rfl

theorem upToClosing_subset (commands : List (List INT8U)) :
    ∀ line ∈ upToClosing commands, line ∈ commands := by
  induction commands with
  | nil => exact fun _ member => member
  | cons first rest ih =>
    intro line member
    unfold upToClosing at member
    split at member
    · rw [List.mem_singleton.mp member]
      exact List.mem_cons_self
    · rcases List.mem_cons.mp member with same | later
      · rw [same]
        exact List.mem_cons_self
      · exact List.mem_cons_of_mem _ (ih line later)

/-- If no line that is reached closes the session, all are reached. -/
theorem upToClosing_eq (commands : List (List INT8U))
    (stays : ∀ line ∈ upToClosing commands, ¬ Closes line) : upToClosing commands = commands := by
  induction commands with
  | nil => rfl
  | cons first rest ih =>
    unfold upToClosing at stays ⊢
    by_cases closes : Closes first
    · rw [if_pos closes] at stays
      exact absurd closes (stays first List.mem_cons_self)
    · rw [if_neg closes] at stays ⊢
      rw [ih fun line member => stays line (List.mem_cons_of_mem _ member)]

/-! ### Counting commands -/

/-- One command for each chunk with a CRLF: at most one for each CRLF in a chunk,
and one for each only if no chunk has two. -/
theorem length_linesDropping (chunks : List (List INT8U)) (carried : List INT8U) :
    (linesDropping carried chunks).length ≤
        (chunks.map fun chunk => (commandLines chunk).length).sum ∧
      ((chunks.map fun chunk => (commandLines chunk).length).sum ≤
          (linesDropping carried chunks).length →
        ∀ chunk ∈ chunks, (commandLines chunk).length ≤ 1) := by
  induction chunks generalizing carried with
  | nil => exact ⟨Nat.le_refl 0, fun _ chunk member => absurd member List.not_mem_nil⟩
  | cons chunk rest ih =>
    unfold linesDropping
    rw [List.map_cons, List.sum_cons]
    cases split : splitCrlf chunk with
    | none =>
      have empty : (commandLines chunk).length = 0 := by rw [commandLines, lines_none split]; rfl
      obtain ⟨fewer, single⟩ := ih (carried ++ chunk)
      simp only [empty, Nat.zero_add]
      refine ⟨fewer, fun all c member => ?_⟩
      rcases List.mem_cons.mp member with same | later
      · rw [same, empty]
        exact Nat.zero_le 1
      · exact single all c later
    | some parts =>
      obtain ⟨line, left⟩ := parts
      have some' : 1 ≤ (commandLines chunk).length := by
        rw [commandLines, lines_some split, List.length_cons]
        exact Nat.succ_le_succ (Nat.zero_le _)
      obtain ⟨fewer, single⟩ := ih []
      simp only [List.length_cons]
      refine ⟨by omega, fun all c member => ?_⟩
      rcases List.mem_cons.mp member with same | later
      · rw [same]
        omega
      · exact single (by omega) c later

theorem linesDropping_eq_nil (chunks : List (List INT8U)) (carried : List INT8U)
    (absent : ∀ chunk ∈ chunks, splitFirst 0x0D 0x0A chunk = none) :
    linesDropping carried chunks = [] := by
  induction chunks generalizing carried with
  | nil => rfl
  | cons chunk rest ih =>
    unfold linesDropping
    simp only [splitCrlf, absent chunk List.mem_cons_self]
    exact ih _ fun later member => absent later (List.mem_cons_of_mem _ member)

/-- With a command shorter than its line somewhere, the lists differ: bytes are
missing only where nothing is dispatched any more. -/
theorem nothingLost_of_eq (chunks : List (List INT8U)) (carried kept : List INT8U)
    (shorter : kept.length ≤ carried.length)
    (same : linesByPiece 0x0D 0x0A carried chunks = linesDropping kept chunks) :
    (linesByPiece 0x0D 0x0A carried chunks = [] ∨ kept.length = carried.length) ∧
      chunks.Pairwise fun x y => commandLines y ≠ [] → leftOver x = [] := by
  induction chunks generalizing carried kept with
  | nil => exact ⟨Or.inl rfl, List.Pairwise.nil⟩
  | cons chunk rest ih =>
    unfold linesByPiece linesDropping at same
    unfold linesByPiece
    cases split : splitCrlf chunk with
    | none =>
      simp only [split] at same ⊢
      have tail := ih (carried ++ chunk) (kept ++ chunk) (by simp; exact shorter) same
      refine ⟨?_, List.Pairwise.cons (fun later _ _ => by simp [leftOver, split]) tail.2⟩
      simpa using tail.1
    | some parts =>
      obtain ⟨line, left⟩ := parts
      simp only [split, List.cons.injEq] at same ⊢
      obtain ⟨first, others⟩ := same
      have lengths := congrArg List.length first
      simp only [List.length_append, List.length_take] at lengths
      have tail := ih left [] (Nat.zero_le _) others
      refine ⟨Or.inr (by omega), List.Pairwise.cons (fun later member occurs => ?_) tail.2⟩
      cases tail.1 with
      | inl none' =>
        have absent := (linesByPiece_eq_nil_iff left rest).mp none' later member
        exact absurd (lines_none absent) occurs
      | inr empty =>
        simp only [leftOver, split]
        exact List.eq_nil_of_length_eq_zero empty.symm

/-- With nothing lost, every command is its line, if the lines fit the buffer. -/
theorem linesByPiece_eq_linesDropping (chunks : List (List INT8U)) (carried : List INT8U)
    (kept : chunks.Pairwise fun x y => commandLines y ≠ [] → leftOver x = [])
    (fits : ∀ line ∈ linesByPiece 0x0D 0x0A carried chunks, line.length ≤ maxRequestLen) :
    linesByPiece 0x0D 0x0A carried chunks = linesDropping carried chunks := by
  induction chunks generalizing carried with
  | nil => rfl
  | cons chunk rest ih =>
    obtain ⟨here, tail⟩ := List.pairwise_cons.mp kept
    unfold linesByPiece at fits ⊢
    unfold linesDropping
    cases split : splitCrlf chunk with
    | none =>
      simp only [split] at fits ⊢
      exact ih (carried ++ chunk) tail fits
    | some parts =>
      obtain ⟨line, left⟩ := parts
      simp only [split] at fits ⊢
      rw [List.take_of_length_le (fits _ List.mem_cons_self)]
      congr 1
      by_cases empty : left = []
      · subst empty
        exact ih [] tail fun l member => fits l (List.mem_cons_of_mem _ member)
      · have absent : ∀ later ∈ rest, splitFirst 0x0D 0x0A later = none := by
          intro later member
          by_contra occurs
          have lost := here later member fun none' => occurs ((lines_eq_nil_iff later).mp none')
          simp only [leftOver, split] at lost
          exact empty lost
        have silent := (linesByPiece_eq_nil_iff left rest).mpr absent
        rw [silent, linesDropping_eq_nil rest [] absent]

/-! ### Framing -/

/-- The conditions under which the code and the stream agree, for sessions that
are never closed. -/
theorem linesDropping_eq_lines_iff (chunks : List (List INT8U))
    (filled : ∀ chunk ∈ chunks, chunk ≠ [])
    (fits : ∀ line ∈ commandLines chunks.flatten, line.length ≤ maxRequestLen) :
    linesDropping [] chunks = commandLines chunks.flatten ↔ CarriesLines chunks := by
  have distinct : (0x0D : INT8U) ≠ 0x0A := by decide
  have piecewise : Uncut 0x0D 0x0A chunks → (∀ chunk ∈ chunks, (commandLines chunk).length ≤ 1) →
      commandLines chunks.flatten = linesByPiece 0x0D 0x0A [] chunks := by
    intro uncut single
    have start : Uncut 0x0D 0x0A ([] :: chunks) := by
      cases chunks with
      | nil => exact List.IsChain.singleton _
      | cons chunk rest => exact List.IsChain.cons_cons (fun across => by cases across.1) uncut
    exact lines_flatten chunks [] filled start single rfl
  constructor
  · intro same
    obtain ⟨fewer, single'⟩ := length_linesDropping chunks []
    rw [same] at fewer single'
    have uncut := uncut_of_sum distinct chunks filled fewer
    have single := single' (sum_lines_le distinct chunks)
    have parts := piecewise uncut single
    exact ⟨uncut, single, (nothingLost_of_eq chunks [] [] (Nat.le_refl 0) (parts ▸ same.symm)).2⟩
  · intro carries
    have parts := piecewise carries.uncut carries.single
    rw [parts] at fits ⊢
    exact (linesByPiece_eq_linesDropping chunks [] carries.nothingLost fits).symm

/-- A session dispatches the lines of its stream exactly when the chunks carry
them whole. -/
theorem dispatched_eq_lines_iff (chunks : List (List INT8U))
    (sizes : ∀ chunk ∈ chunks, 1 ≤ chunk.length ∧ chunk.length ≤ netBufSize)
    (nulFree : 0 ∉ chunks.flatten)
    (fits : ∀ line ∈ commandLines chunks.flatten, line.length ≤ maxRequestLen)
    (stays : ∀ line ∈ commandLines chunks.flatten, ¬ Closes line) :
    dispatched FtpSession.accepted chunks = commandLines chunks.flatten ↔ CarriesLines chunks := by
  have filled : ∀ chunk ∈ chunks, chunk ≠ [] := by
    intro chunk member empty
    have size := (sizes chunk member).1
    rw [empty] at size
    exact absurd size (by decide)
  have runs : dispatched FtpSession.accepted chunks = upToClosing (linesDropping [] chunks) :=
    dispatched_eq chunks [] filled nulFree
  rw [runs, ← linesDropping_eq_lines_iff chunks filled fits]
  constructor
  · intro same
    rw [← same] at stays
    rw [← same, upToClosing_eq _ stays]
  · intro same
    rw [← same] at stays ⊢
    exact upToClosing_eq _ fun line member => stays line (upToClosing_subset _ line member)

/-- A client that waits for each reply: every chunk is one command. -/
theorem dispatched_eq_lines_iff_oneByOne :
    dispatched FtpSession.accepted [asciiBytes "PWD\r\n", asciiBytes "SYST\r\n"] =
        commandLines [asciiBytes "PWD\r\n", asciiBytes "SYST\r\n"].flatten ↔
      CarriesLines [asciiBytes "PWD\r\n", asciiBytes "SYST\r\n"] :=
  dispatched_eq_lines_iff [asciiBytes "PWD\r\n", asciiBytes "SYST\r\n"] (by decide) (by decide)
    (by decide) (by decide)

/-- Two commands in one chunk: the second is dropped. -/
theorem dispatched_pipelined :
    let chunk := asciiBytes "PWD\r\nSYST\r\n"
    (1 ≤ chunk.length ∧ chunk.length ≤ netBufSize ∧ 0 ∉ chunk) ∧
      (∀ line ∈ commandLines chunk, line.length ≤ maxRequestLen ∧ ¬ Closes line) ∧
      commandLines chunk = [asciiBytes "PWD", asciiBytes "SYST"] ∧
      dispatched FtpSession.accepted [chunk] = [asciiBytes "PWD"] := by
  decide

end GasSub.Guarantees.FtpFraming
