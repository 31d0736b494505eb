import GasSub.Source.FtpSession

/-!
# What is written for a reply

`session_response` and `session_format_response` down to the calls of `send`. The
formatter gets an array of 128 bytes, and what it returns is the length that is
sent; for a text that does not fit there are two conventions.
-/
namespace GasSub.Source.Hvsftpd
open GasSub.Library.CharArray

def maxResponseLen : Nat := 128

/-- What `_vsnprintf` returns for a text longer than its array: -1, and the array then
is full to its end; or the length of the text, and the last byte is a NUL. -/
inductive Truncation where
  | minusOne | untruncated
  deriving DecidableEq, Repr

/-- `_vsnprintf` for the text that the format and its arguments give: the array after
it, and what it returns. -/
def vsnprintf (truncation : Truncation) (buf text : List INT8U) : List INT8U × Int :=
  match truncation with
  | .minusOne =>
    ((text ++ [0]).take buf.length ++ buf.drop (text.length + 1),
      if text.length ≤ buf.length then text.length else -1)
  | .untruncated =>
    (text.take (buf.length - 1) ++ 0 :: buf.drop (text.length + 1), text.length)

/-- The text of a format whose only conversions are one `%s` for each argument. -/
def formatText (fmt : List INT8U) : List (List INT8U) → List INT8U
  | [] => fmt
  | arg :: args =>
    fmt.takeWhile (· ≠ 0x25) ++ arg ++ formatText ((fmt.dropWhile (· ≠ 0x25)).drop 2) args

/-- A call of `send` on the command socket: the array it reads from and the length. -/
structure SendCall where
  buf : List INT8U
  len : Int
  deriving DecidableEq, Repr

/-- The length is not negative and ends inside the array. -/
def SendCall.Inside (call : SendCall) : Prop := 0 ≤ call.len ∧ call.len ≤ call.buf.length

instance (call : SendCall) : Decidable call.Inside := inferInstanceAs (Decidable (_ ∧ _))

def SendCall.bytes (call : SendCall) : List INT8U := call.buf.take call.len.toNat

def crlf : List INT8U := [0x0D, 0x0A]

/-- The calls of `send` for a reply, where `buf` is on the stack as it is found. -/
def Reply.sends (truncation : Truncation) (buf : Vector INT8U maxResponseLen) :
    Reply → List SendCall
  | .response str => [⟨asciiBytes str ++ [0], (asciiBytes str).length⟩, ⟨crlf ++ [0], 2⟩]
  | .format fmt args =>
    let printed := vsnprintf truncation buf.toList (formatText (asciiBytes fmt) args)
    [⟨printed.1, printed.2⟩, ⟨crlf ++ [0], 2⟩]

/-! ### The length of a formatted text -/

/-- The characters of a format besides its `arity` arguments. -/
def fixedLength (fmt : List INT8U) (arity : Nat) : Nat :=
  (formatText fmt (List.replicate arity [])).length

theorem length_formatText (fmt : List INT8U) (args : List (List INT8U)) :
    (formatText fmt args).length = fixedLength fmt args.length + (args.map List.length).sum := by
  unfold fixedLength
  induction args generalizing fmt with
  | nil => rfl
  | cons arg args ih =>
    simp only [formatText, List.length_cons, List.replicate_succ, List.length_append, ih,
      List.map_cons, List.sum_cons, List.length_nil]
    omega

theorem formatText_free {fmt : List INT8U} {args : List (List INT8U)} (free : 0 ∉ fmt)
    (each : ∀ arg ∈ args, 0 ∉ arg) : 0 ∉ formatText fmt args := by
  induction args generalizing fmt with
  | nil => exact free
  | cons arg args ih =>
    have front : 0 ∉ fmt.takeWhile (· ≠ 0x25) := fun member =>
      free ((List.takeWhile_sublist _).subset member)
    have behind : 0 ∉ (fmt.dropWhile (· ≠ 0x25)).drop 2 := fun member =>
      free ((List.dropWhile_sublist _).subset (List.mem_of_mem_drop member))
    have later := ih behind fun arg member => each arg (List.mem_cons_of_mem _ member)
    simp only [formatText, List.mem_append, not_or]
    exact ⟨⟨front, each arg List.mem_cons_self⟩, later⟩

/-! ### What the array holds -/

/-- The longest text that a formatter with this convention leaves whole. -/
def Truncation.room : Truncation → Nat
  | .minusOne => maxResponseLen
  | .untruncated => maxResponseLen - 1

theorem length_vsnprintf (truncation : Truncation) {buf : List INT8U} (some_room : buf ≠ [])
    (text : List INT8U) : (vsnprintf truncation buf text).1.length = buf.length := by
  have positive := List.length_pos_of_ne_nil some_room
  cases truncation with
  | minusOne =>
    simp only [vsnprintf, List.length_append, List.length_take, List.length_drop,
      List.length_singleton]
    omega
  | untruncated =>
    simp only [vsnprintf, List.length_append, List.length_take, List.length_cons, List.length_drop]
    omega

end GasSub.Source.Hvsftpd
