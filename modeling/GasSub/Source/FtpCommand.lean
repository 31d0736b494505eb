import GasSub.Library.Terminator
import GasSub.Source.Sensor

/-!
# Receiving FTP commands

`sockRead` of `hvsftpd.c` with `cmd_append` of `session.c` and the table lookup
of `cmd_disptach` in `cmd.c`. The command buffer is represented by the bytes
written to it, and `strlen` stops at the first NUL among them. Of a handler only
the status is represented: it decides whether the session is closed.
-/
namespace GasSub.Source
open GasSub.Library.Terminator

def netBufSize : Nat := 64
def maxRequestLen : Nat := 128

inductive HfStatus where
  | ok | err
  deriving DecidableEq, Repr

/-! ### `cmd_append` -/

/-- The loop; `cmdBuf` holds the `l` bytes of the command so far. -/
def cmdAppendLoop (cmdBuf : List INT8U) : List INT8U → Bool × List INT8U
  | [] => (false, cmdBuf)
  | c :: rest =>
    if c = 0x0D ∧ rest.head? = some 0x0A then (true, cmdBuf)
    else cmdAppendLoop (if cmdBuf.length < maxRequestLen then cmdBuf ++ [c] else cmdBuf) rest

def cmdAppend (cmdBuf buf : List INT8U) : Bool × List INT8U := cmdAppendLoop (cString cmdBuf) buf

/-- The first CRLF of the chunk completes the command; without one the chunk is
appended. Nothing grows past the request length. -/
theorem cmdAppendLoop_eq (cmdBuf buf : List INT8U) :
    cmdAppendLoop (cmdBuf.take maxRequestLen) buf =
      match splitFirst 0x0D 0x0A buf with
      | none => (false, (cmdBuf ++ buf).take maxRequestLen)
      | some (line, _) => (true, (cmdBuf ++ line).take maxRequestLen) := by
  induction buf generalizing cmdBuf with
  | nil => simp [cmdAppendLoop, splitFirst]
  | cons c rest ih =>
    have grown : (if (cmdBuf.take maxRequestLen).length < maxRequestLen then
        cmdBuf.take maxRequestLen ++ [c] else cmdBuf.take maxRequestLen) =
        (cmdBuf ++ [c]).take maxRequestLen := by
      by_cases short : cmdBuf.length < maxRequestLen
      · have whole : (cmdBuf ++ [c]).length ≤ maxRequestLen := by
          rw [List.length_append, List.length_singleton]
          omega
        rw [List.take_of_length_le (Nat.le_of_lt short), if_pos short, List.take_of_length_le whole]
      · have full : ¬ (cmdBuf.take maxRequestLen).length < maxRequestLen := by
          rw [List.length_take]
          omega
        rw [if_neg full, List.take_append_of_le_length (by omega)]
    unfold cmdAppendLoop splitFirst
    by_cases here : c = 0x0D ∧ rest.head? = some 0x0A
    · rw [if_pos here, if_pos here]
      simp
    · rw [if_neg here, if_neg here, grown, ih]
      cases splitFirst 0x0D 0x0A rest with
      | none => simp
      | some parts => simp

/-! ### `cmd_disptach` -/

inductive FtpHandler where
  | noop | syst | user | pass | pwd | type | port | cwd | list | retr | dele | stor
  | rmd | rnfr | rnto | mkd | quit | fmt
  deriving DecidableEq, Repr

/-- What the handler returns, on every one of its paths. -/
def FtpHandler.status : FtpHandler → HfStatus
  | .quit => .err
  | .fmt => .err
  | _ => .ok

def asciiBytes (text : String) : List INT8U := text.toList.map fun c => BitVec.ofNat 8 c.toNat

/-- The table `commands`. -/
def commands : List (List INT8U × FtpHandler) :=
  [(asciiBytes "noop", .noop), (asciiBytes "syst", .syst), (asciiBytes "user", .user),
    (asciiBytes "pass", .pass), (asciiBytes "pwd", .pwd), (asciiBytes "xpwd", .pwd),
    (asciiBytes "type", .type), (asciiBytes "port", .port), (asciiBytes "cwd", .cwd),
    (asciiBytes "nlst", .list), (asciiBytes "list", .list), (asciiBytes "retr", .retr),
    (asciiBytes "dele", .dele), (asciiBytes "stor", .stor), (asciiBytes "rmd", .rmd),
    (asciiBytes "xrmd", .rmd), (asciiBytes "rnfr", .rnfr), (asciiBytes "rnto", .rnto),
    (asciiBytes "mkd", .mkd), (asciiBytes "xmkd", .mkd), (asciiBytes "quit", .quit),
    (asciiBytes "bye", .quit), (asciiBytes "fmt", .fmt)]

def lowerCase (c : INT8U) : INT8U := if 0x41 ≤ c ∧ c ≤ 0x5A then c + 0x20 else c

/-- `!strcasecmp(x, y)`. -/
def sameCommand (x y : List INT8U) : Bool := x.map lowerCase = y.map lowerCase

/-- The handler of the word before the first blank. -/
def cmdHandler (cmd : List INT8U) : Option FtpHandler :=
  (commands.find? fun entry => sameCommand entry.1 (cmd.takeWhile (· ≠ 0x20))).map Prod.snd

/-- The status of `cmd_disptach`; an unknown command is answered and stays open. -/
def cmdDisptach (cmd : List INT8U) : HfStatus :=
  match cmdHandler cmd with
  | some handler => handler.status
  | none => .ok

/-! ### `sockRead` -/

/-- The command side of a session; a freed session has no callbacks. -/
structure FtpSession where
  cmdBuf : List INT8U
  freed : Bool
  deriving DecidableEq, Repr

/-- A session as `sockAccept` sets it up. -/
def FtpSession.accepted : FtpSession := ⟨[], false⟩

/-- One readable callback that reads `received`, and the command it dispatches. -/
def sockRead (s : FtpSession) (received : List INT8U) : FtpSession × Option (List INT8U) :=
  if s.freed ∨ received.length = 0 then (s, none)
  else
    let appended := cmdAppend s.cmdBuf received
    if appended.1 then
      let cmd := cString appended.2
      ({ cmdBuf := [], freed := cmdDisptach cmd ≠ .ok }, some cmd)
    else ({ s with cmdBuf := appended.2 }, none)

/-- The commands dispatched while the chunks are received one after another. -/
def dispatched : FtpSession → List (List INT8U) → List (List INT8U)
  | _, [] => []
  | s, received :: rest =>
    let next := sockRead s received
    next.2.toList ++ dispatched next.1 rest

end GasSub.Source
