import GasSub.Source.FtpEffects
import GasSub.Source.FtpResponse

/-!
# Formatted replies

Every format call of the handlers against the bytes that go out. The result of the
formatter is the length that is sent, so that a reply goes out as it is meant as
long as its fixed text and its arguments together fit the array; directories and
parameters of 128 characters do not.
-/
namespace GasSub.Guarantees.FormattedReplies
open GasSub.Source GasSub.Source.Hvsftpd GasSub.Library.CharArray

/-! ### One call -/

/-- `text`, cut after 128 bytes, goes out with a CRLF behind it, and no `send` has a
negative length or one that ends behind its array. -/
structure Sent (truncation : Truncation) (buf : Vector INT8U maxResponseLen) (reply : Reply)
    (text : List INT8U) : Prop where
  inside : ∀ call ∈ reply.sends truncation buf, call.Inside
  bytes : (reply.sends truncation buf).flatMap SendCall.bytes = text.take maxResponseLen ++ crlf

/-- Only the call with the text is in question. -/
theorem sent_format_iff (truncation : Truncation) (buf : Vector INT8U maxResponseLen) (fmt : String)
    (args : List (List INT8U)) (text : List INT8U) {printed : List INT8U × Int}
    (made : vsnprintf truncation buf.toList (formatText (asciiBytes fmt) args) = printed) :
    Sent truncation buf (.format fmt args) text ↔
      (0 ≤ printed.2 ∧ printed.2 ≤ maxResponseLen) ∧
        printed.1.take printed.2.toNat = text.take maxResponseLen := by
  have size : buf.toList.length = maxResponseLen := buf.length_toList
  have filled : buf.toList ≠ [] := by
    intro empty
    rw [empty] at size
    exact absurd size (by decide)
  have length : printed.1.length = maxResponseLen := by
    rw [← made, length_vsnprintf truncation filled, size]
  have ends : (⟨crlf ++ [0], 2⟩ : SendCall).Inside := by decide
  have behind : (⟨crlf ++ [0], 2⟩ : SendCall).bytes = crlf := rfl
  have sends : (Reply.format fmt args).sends truncation buf =
      [⟨printed.1, printed.2⟩, ⟨crlf ++ [0], 2⟩] := by rw [Reply.sends, made]
  constructor
  · intro sent
    obtain ⟨inside, bytes⟩ := sent
    rw [sends] at inside bytes
    rw [List.flatMap_cons, List.flatMap_singleton, behind] at bytes
    have first := inside _ List.mem_cons_self
    exact ⟨⟨first.1, length ▸ first.2⟩, List.append_cancel_right bytes⟩
  · rintro ⟨inside, bytes⟩
    constructor
    · intro call member
      rw [sends] at member
      rcases List.mem_cons.mp member with rfl | last
      · exact ⟨inside.1, length.symm ▸ inside.2⟩
      · exact List.mem_singleton.mp last ▸ ends
    · rw [sends, List.flatMap_cons, List.flatMap_singleton, behind]
      exact congrArg (· ++ crlf) bytes

/-- A format call goes out as it is meant exactly when its text leaves the formatter
whole. -/
theorem sent_iff_room (truncation : Truncation) (buf : Vector INT8U maxResponseLen) (fmt : String)
    (args : List (List INT8U)) (free : 0 ∉ formatText (asciiBytes fmt) args) :
    Sent truncation buf (.format fmt args) (formatText (asciiBytes fmt) args) ↔
      (formatText (asciiBytes fmt) args).length ≤ truncation.room := by
  rw [sent_format_iff truncation buf fmt args _ rfl]
  generalize formatText (asciiBytes fmt) args = text at free ⊢
  have size : buf.toList.length = maxResponseLen := buf.length_toList
  have limit : maxResponseLen = 128 := rfl
  cases truncation with
  | minusOne =>
    simp only [vsnprintf, size, Truncation.room]
    by_cases short : text.length ≤ maxResponseLen
    · have front : text.length ≤ ((text ++ [0]).take maxResponseLen).length := by
        simp only [List.length_take, List.length_append]
        omega
      have whole : ((text ++ [0]).take maxResponseLen ++ buf.toList.drop (text.length + 1)).take
          text.length = text := by
        rw [List.take_append_of_le_length front, List.take_take, Nat.min_eq_left short,
          List.take_left]
      rw [if_pos short, Int.toNat_natCast, whole, List.take_of_length_le short]
      exact ⟨fun _ => short, fun _ => ⟨⟨Int.natCast_nonneg _, by omega⟩, rfl⟩⟩
    · rw [if_neg short]
      exact ⟨fun sent => absurd sent.1.1 (by decide), fun fits => absurd fits short⟩
  | untruncated =>
    simp only [vsnprintf, size, Truncation.room, Int.toNat_natCast]
    by_cases short : text.length ≤ maxResponseLen - 1
    · rw [List.take_of_length_le short, List.take_left, List.take_of_length_le (by omega)]
      exact ⟨fun _ => short, fun _ => ⟨⟨Int.natCast_nonneg _, by omega⟩, rfl⟩⟩
    · refine ⟨fun sent => ?_, fun fits => absurd fits short⟩
      -- at 128 characters the NUL is sent in place of the last one
      obtain ⟨⟨-, inside⟩, bytes⟩ := sent
      have full : text.length = maxResponseLen := by omega
      have last : text.length = (text.take (maxResponseLen - 1)).length + 1 := by
        rw [List.length_take]
        omega
      rw [last, List.take_length_add_append, List.take_succ_cons, List.take_zero,
        List.take_of_length_le (Nat.le_of_eq full)] at bytes
      refine absurd ?_ free
      rw [← bytes]
      exact List.mem_append_right _ List.mem_cons_self

/-! ### The format calls of the handlers -/

/-- The calls of `session_format_response` in `cmd.c`. -/
inductive FormatCall where
  | pwd | cwd | retrMissing
  | deleDone | deleFailed | deleMissing
  | rmdDone | rmdFailed | rmdMissing
  | rnfrMissing
  | rntoDone | rntoFailed | rntoMissing
  | mkdDone | mkdFailed | mkdExists
  deriving DecidableEq, Repr

def FormatCall.fmt : FormatCall → String
  | pwd => "257 \"%s\" is current directory."
  | cwd => "250 CWD command successful, \"%s\" is current directory."
  | retrMissing | deleMissing | rnfrMissing | rntoMissing =>
    "550 File '%s': no such file or directory."
  | deleDone => "250 File '%s' deleted."
  | deleFailed => "450 File '%s' can't be deleted."
  | rmdDone => "250 '%s': directory removed."
  | rmdFailed => "550 '%s': can't remove directory."
  | rmdMissing => "550 File '%s': no such directory."
  | rntoDone => "250 File '%s' renamed to '%s'."
  | rntoFailed => "450 File '%s' can't be renamed."
  | mkdDone => "250 '%s': directory created."
  | mkdFailed => "550 '%s': can't create directory."
  | mkdExists => "550 '%s': file or directory already exists."

/-- The texts between the session and the parameter that a call names. -/
def FormatCall.args (s : Session) (param : Path) : FormatCall → List Path
  | pwd | cwd => [s.currentDir.text]
  | rntoDone => [s.renamingPath.text, param]
  | rntoFailed | rntoMissing => [s.renamingPath.text]
  | _ => [param]

theorem FormatCall.fmt_free (call : FormatCall) : 0 ∉ asciiBytes call.fmt := by
  cases call <;> decide +kernel

theorem FormatCall.mem_args {call : FormatCall} {s : Session} {param arg : Path}
    (member : arg ∈ call.args s param) :
    arg = s.currentDir.text ∨ arg = s.renamingPath.text ∨ arg = param := by
  cases call with
  | pwd | cwd => exact Or.inl (List.mem_singleton.mp member)
  | rntoFailed | rntoMissing => exact Or.inr (Or.inl (List.mem_singleton.mp member))
  | rntoDone =>
    rcases List.mem_cons.mp member with old | new
    · exact Or.inr (Or.inl old)
    · exact Or.inr (Or.inr (List.mem_singleton.mp new))
  | _ => exact Or.inr (Or.inr (List.mem_singleton.mp member))

theorem FormatCall.text_free (call : FormatCall) (s : Session) {param : Path} (free : 0 ∉ param) :
    0 ∉ formatText (asciiBytes call.fmt) (call.args s param) := by
  refine formatText_free call.fmt_free fun arg member => ?_
  rcases FormatCall.mem_args member with rfl | rfl | rfl
  · exact s.currentDir.holds.free
  · exact s.renamingPath.holds.free
  · exact free

variable {φ : Type} {fs : FileSystem φ} {env : Surroundings} {m m' : Machine φ} {param : Path}

/-- The format calls behind the replies that have been added are among these. -/
def OnlyCalls (param : Path) (m m' : Machine φ) : Prop :=
  ∃ new, m'.replies = m.replies ++ new ∧ ∀ fmt args, Reply.format fmt args ∈ new →
    ∃ call : FormatCall, call.fmt = fmt ∧ call.args m'.session param = args

theorem onlyCalls_response {str : String} (replied : m'.replies = m.replies ++ [.response str]) :
    OnlyCalls param m m' := by
  refine ⟨_, replied, fun fmt args member => ?_⟩
  cases List.mem_singleton.mp member

theorem onlyCalls_silent (silent : m'.replies = m.replies) : OnlyCalls param m m' :=
  ⟨[], by rw [silent, List.append_nil], fun _ _ member => by cases member⟩

theorem onlyCalls_format (call : FormatCall)
    (replied : m'.replies = m.replies ++ [.format call.fmt (call.args m'.session param)]) :
    OnlyCalls param m m' := by
  refine ⟨_, replied, fun fmt args member => ?_⟩
  cases List.mem_singleton.mp member
  exact ⟨call, rfl, rfl⟩

/-- A reply about the file that the parameter names. -/
theorem onlyCalls_param (call : FormatCall) {fmt : String} {m₁ : Machine φ}
    (named : ∀ s, call.args s param = [param]) (format : call.fmt = fmt)
    (before : m₁.replies = m.replies) : OnlyCalls param m (sessionFormatResponse m₁ fmt [param]) := by
  refine onlyCalls_format call ?_
  rw [named, format, ← before]
  rfl

theorem onlyCalls_removeAt {wanted : Stat → Bool} {call : Path → FileCall}
    {remove : φ → Path → φ × Bool} {path : Path} (done failed missing : FormatCall)
    (named : ∀ s, done.args s param = [param] ∧ failed.args s param = [param] ∧
      missing.args s param = [param]) :
    OnlyCalls param m
      (removeAt fs m param wanted call remove done.fmt failed.fmt missing.fmt path) := by
  unfold removeAt Machine.perform
  dsimp only
  split
  · split
    · exact onlyCalls_param done (fun s => (named s).1) rfl rfl
    · exact onlyCalls_param failed (fun s => (named s).2.1) rfl rfl
  · exact onlyCalls_param missing (fun s => (named s).2.2) rfl rfl

theorem onlyCalls_createAt {path : Path} : OnlyCalls param m (createAt fs m param path) := by
  unfold createAt Machine.perform
  dsimp only
  split
  · exact onlyCalls_param .mkdExists (fun s => rfl) rfl rfl
  · split
    · exact onlyCalls_param .mkdDone (fun s => rfl) rfl rfl
    · exact onlyCalls_param .mkdFailed (fun s => rfl) rfl rfl

theorem onlyCalls_renameAt {oldPath path : Path} :
    OnlyCalls param m (renameAt fs m m.session.renamingPath.text param oldPath path) := by
  unfold renameAt Machine.perform
  dsimp only
  split
  · split
    · exact onlyCalls_format .rntoDone rfl
    · exact onlyCalls_format .rntoFailed rfl
  · exact onlyCalls_format .rntoMissing rfl

theorem onlyCalls_atPath {size : Nat} {failed : String}
    {act : List INT8U → Path → Option (Machine φ)}
    (acts : ∀ block path, act block path = some m' → OnlyCalls param m m')
    (taken : atPath env m size param failed act = some m') : OnlyCalls param m m' := by
  unfold atPath at taken
  split at taken
  · cases taken
    exact onlyCalls_response rfl
  · simp only [Option.bind_eq_bind] at taken
    obtain ⟨block, -, taken⟩ := Option.bind_eq_some_iff.mp taken
    obtain ⟨path, -, taken⟩ := Option.bind_eq_some_iff.mp taken
    exact acts block path taken

theorem onlyCalls_rnfr {status : HfStatus} (taken : rnfrHandler fs env m param = some (m', status)) :
    OnlyCalls param m m' := by
  obtain ⟨out, made, same⟩ := Option.map_eq_some_iff.mp taken
  cases same
  refine onlyCalls_atPath (fun block path acts => ?_) made
  dsimp only at acts
  split at acts
  · simp only [Option.bind_eq_bind] at acts
    obtain ⟨name, -, same⟩ := Option.bind_eq_some_iff.mp acts
    cases same
    exact onlyCalls_response rfl
  · cases acts
    exact onlyCalls_param .rnfrMissing (fun s => rfl) rfl rfl

theorem onlyCalls_rnto {status : HfStatus} (taken : rntoHandler fs env m param = some (m', status)) :
    OnlyCalls param m m' := by
  unfold rntoHandler at taken
  split at taken
  · cases taken
    exact onlyCalls_response rfl
  · simp only [Option.bind_eq_bind] at taken
    obtain ⟨oldBlock, -, taken⟩ := Option.bind_eq_some_iff.mp taken
    obtain ⟨block, -, taken⟩ := Option.bind_eq_some_iff.mp taken
    obtain ⟨oldPath, -, taken⟩ := Option.bind_eq_some_iff.mp taken
    obtain ⟨path, -, taken⟩ := Option.bind_eq_some_iff.mp taken
    cases taken
    exact onlyCalls_renameAt

theorem onlyCalls_mkd {status : HfStatus} (taken : mkdHandler fs env m param = some (m', status)) :
    OnlyCalls param m m' := by
  unfold mkdHandler at taken
  split at taken
  · cases taken
    exact onlyCalls_response rfl
  · simp only [Option.bind_eq_bind] at taken
    obtain ⟨block, -, taken⟩ := Option.bind_eq_some_iff.mp taken
    obtain ⟨path, -, taken⟩ := Option.bind_eq_some_iff.mp taken
    cases taken
    exact onlyCalls_createAt

theorem onlyCalls_opendata {type : Char} {callback : SessionCallback} :
    OnlyCalls param m (sessionOpendata env m type callback param).1 := by
  unfold sessionOpendata
  split
  · exact onlyCalls_silent rfl
  · dsimp only
    split
    · exact onlyCalls_silent rfl
    · exact onlyCalls_response rfl

theorem onlyCalls_type (m : Machine φ) (param : Path) :
    OnlyCalls param m (typeHandler m param).1 := by
  unfold typeHandler
  split
  · exact onlyCalls_response rfl
  · split
    · exact onlyCalls_response rfl
    · exact onlyCalls_response rfl

theorem onlyCalls_port (m : Machine φ) (param : Path) :
    OnlyCalls param m (portHandler m param).1 := by
  unfold portHandler
  dsimp only
  split
  · exact onlyCalls_response rfl
  · exact onlyCalls_response rfl

/-- The format calls of every handler. -/
theorem onlyCalls_handle {handler : FtpHandler} {status : HfStatus}
    (taken : handle fs env m param handler = some (m', status)) : OnlyCalls param m m' := by
  cases handler with
  | noop | syst | user | pass | quit | fmt =>
    cases taken
    exact onlyCalls_response rfl
  | pwd =>
    cases taken
    exact onlyCalls_format .pwd rfl
  | cwd =>
    obtain ⟨currentDir, -, same⟩ := Option.map_eq_some_iff.mp taken
    cases same
    exact onlyCalls_format .cwd rfl
  | type =>
    have made := onlyCalls_type m param
    rw [Option.some.inj taken] at made
    exact made
  | port =>
    have made := onlyCalls_port m param
    rw [Option.some.inj taken] at made
    exact made
  | list | retr | stor =>
    cases taken
    exact onlyCalls_opendata
  | dele =>
    obtain ⟨out, made, same⟩ := Option.map_eq_some_iff.mp taken
    cases same
    refine onlyCalls_atPath (fun block path acts => ?_) made
    cases acts
    exact onlyCalls_removeAt .deleDone .deleFailed .deleMissing fun s => ⟨rfl, rfl, rfl⟩
  | rmd =>
    obtain ⟨out, made, same⟩ := Option.map_eq_some_iff.mp taken
    cases same
    refine onlyCalls_atPath (fun block path acts => ?_) made
    cases acts
    exact onlyCalls_removeAt .rmdDone .rmdFailed .rmdMissing fun s => ⟨rfl, rfl, rfl⟩
  | rnfr => exact onlyCalls_rnfr taken
  | rnto => exact onlyCalls_rnto taken
  | mkd => exact onlyCalls_mkd taken

/-! ### The format calls of the callbacks -/

/-- Closing the data connection replies nothing. -/
theorem OnlyCalls.closedata {closed : Machine φ} (made : OnlyCalls param m m')
    (taken : sessionClosedata m' = some closed) : OnlyCalls param m closed := by
  obtain ⟨i, -, rfl⟩ := Option.map_eq_some_iff.mp taken
  obtain ⟨new, replied, calls⟩ := made
  refine ⟨new, replied, fun fmt args member => ?_⟩
  obtain ⟨call, format, named⟩ := calls fmt args member
  refine ⟨call, format, ?_⟩
  rw [← named]
  cases call <;> rfl

theorem listEntries_replies {path : Path} {names : List Path} {buf : List INT8U}
    (taken : listEntries fs path names buf m = some m') : m'.replies = m.replies := by
  induction names generalizing buf m with
  | nil =>
    cases taken
    rfl
  | cons name rest ih =>
    simp only [listEntries, Option.bind_eq_bind] at taken
    obtain ⟨made, -, taken⟩ := Option.bind_eq_some_iff.mp taken
    obtain ⟨entry, -, taken⟩ := Option.bind_eq_some_iff.mp taken
    have kept := ih taken
    exact kept

theorem listDir_replies (taken : listDir fs env m = some m') : m'.replies = m.replies := by
  unfold listDir at taken
  split at taken
  · cases taken
    rfl
  · simp only [Option.bind_eq_bind] at taken
    obtain ⟨made, -, taken⟩ := Option.bind_eq_some_iff.mp taken
    obtain ⟨path, -, taken⟩ := Option.bind_eq_some_iff.mp taken
    split at taken
    · cases taken
      rfl
    · split at taken
      · cases taken
      · have kept := listEntries_replies taken
        exact kept

theorem onlyCalls_list (taken : listWrite fs env m = some m') : OnlyCalls param m m' := by
  simp only [listWrite, Option.bind_eq_bind] at taken
  obtain ⟨listed, made, taken⟩ := Option.bind_eq_some_iff.mp taken
  obtain ⟨closed, shut, taken⟩ := Option.bind_eq_some_iff.mp taken
  cases taken
  obtain ⟨i, -, rfl⟩ := Option.map_eq_some_iff.mp shut
  have kept := listDir_replies made
  have replied : listed.replies ++ [.response "226 File sent ok"] =
      m.replies ++ [.response "226 File sent ok"] := by rw [kept]
  exact onlyCalls_response replied

theorem onlyCalls_retrAt {path : Path} : OnlyCalls param m (retrAt fs m param path) := by
  unfold retrAt
  dsimp only
  split
  · split
    · exact onlyCalls_response rfl
    · exact onlyCalls_response rfl
  · exact onlyCalls_param .retrMissing (fun s => rfl) rfl rfl

theorem onlyCalls_storAt {path : Path} (taken : storAt fs env m path = some m') :
    OnlyCalls param m m' := by
  unfold storAt at taken
  dsimp only at taken
  split at taken
  · simp only [Option.bind_eq_bind] at taken
    obtain ⟨i, -, taken⟩ := Option.bind_eq_some_iff.mp taken
    obtain ⟨blocks, -, taken⟩ := Option.bind_eq_some_iff.mp taken
    cases taken
    exact onlyCalls_response rfl
  · cases taken
    exact onlyCalls_response rfl

/-- The callbacks work on the parameter that the session has kept. -/
theorem onlyCalls_callback {callback : SessionCallback}
    (taken : runCallback fs env m callback = some m') :
    OnlyCalls m.session.param.text m m' := by
  cases callback with
  | listWrite => exact onlyCalls_list taken
  | retrWrite =>
    simp only [runCallback, retrWrite, Option.bind_eq_bind] at taken
    obtain ⟨out, made, shut⟩ := Option.bind_eq_some_iff.mp taken
    refine OnlyCalls.closedata (onlyCalls_atPath (fun block path acts => ?_) made) shut
    cases acts
    exact onlyCalls_retrAt
  | storRead =>
    simp only [runCallback, storRead, Option.bind_eq_bind] at taken
    obtain ⟨out, made, shut⟩ := Option.bind_eq_some_iff.mp taken
    exact OnlyCalls.closedata
      (onlyCalls_atPath (fun block path acts => onlyCalls_storAt acts) made) shut

/-! ### What goes out -/

/-- A command line or a callback of a session has been worked on, with its parameter. -/
inductive Handled (fs : FileSystem φ) (env : Surroundings) (m m' : Machine φ) : Path → Prop
  | command (line : CommandLine) (status : HfStatus)
      (taken : Hvsftpd.cmdDisptach fs env line.line m = some (m', status)) :
      Handled fs env m m' line.param
  | callback (callback : SessionCallback) (taken : runCallback fs env m callback = some m') :
      Handled fs env m m' m.session.param.text

theorem Handled.onlyCalls (handled : Handled fs env m m' param) : OnlyCalls param m m' := by
  cases handled with
  | command line status taken =>
    unfold Hvsftpd.cmdDisptach at taken
    split at taken
    · exact onlyCalls_handle taken
    · cases taken
      exact onlyCalls_response rfl
  | callback callback taken => exact onlyCalls_callback taken

theorem Handled.param_free (handled : Handled fs env m m' param) : 0 ∉ param := by
  cases handled with
  | command line => exact line.nulFree_param
  | callback => exact m.session.param.holds.free

/-- Every format call that a handler or a callback makes, of any session and with any
parameter, is one of the table, and with either convention its text goes out as it is
meant exactly when the fixed characters of the format and its arguments together are no
more than the formatter leaves whole. -/
theorem formatted_sent_iff (truncation : Truncation) (buf : Vector INT8U maxResponseLen)
    (handled : Handled fs env m m' param) (fmt : String) (args : List Path)
    (made : Reply.format fmt args ∈ m'.replies.drop m.replies.length) :
    ∃ call : FormatCall, call.fmt = fmt ∧ call.args m'.session param = args ∧
      (Sent truncation buf (.format fmt args) (formatText (asciiBytes fmt) args) ↔
        fixedLength (asciiBytes fmt) args.length + (args.map List.length).sum ≤
          truncation.room) := by
  obtain ⟨new, replied, calls⟩ := handled.onlyCalls
  rw [replied, List.drop_left] at made
  obtain ⟨call, rfl, rfl⟩ := calls fmt args made
  refine ⟨call, rfl, rfl, ?_⟩
  rw [sent_iff_room truncation buf _ _ (call.text_free m'.session handled.param_free),
    length_formatText]

/-- `PWD` has room for a directory of 100 characters, `CWD` for one of 76. -/
example : fixedLength (asciiBytes FormatCall.pwd.fmt) 1 = 28 ∧
    fixedLength (asciiBytes FormatCall.cwd.fmt) 1 = 52 := by decide

/-- `PWD` in the root directory. -/
theorem formatted_sent_iff_root :
    let m' := (pwdHandler (Machine.accepted ([] : List Path)) []).1
    ∃ call : FormatCall, call.fmt = FormatCall.pwd.fmt ∧ call.args m'.session [] = [[slash]] ∧
      (Sent .untruncated (Vector.replicate 128 0) (.format FormatCall.pwd.fmt [[slash]])
          (formatText (asciiBytes FormatCall.pwd.fmt) [[slash]]) ↔
        fixedLength (asciiBytes FormatCall.pwd.fmt) 1 + 1 ≤ 127) := by
  intro m'
  have handled : Handled FileSystem.names Surroundings.plain (Machine.accepted []) m' [] :=
    .command ⟨asciiBytes "PWD", by decide, by decide⟩ .ok rfl
  exact formatted_sent_iff .untruncated (Vector.replicate 128 0) handled _ _ List.mem_cons_self

/-- `CWD` to a directory of 81 characters, as the first command of a session. -/
def longCwd : CommandLine where
  line := asciiBytes "CWD /" ++ List.replicate 80 0x61
  nulFree := by decide +kernel
  length := by decide

theorem longCwd_replies :
    (Hvsftpd.cmdDisptach FileSystem.names Surroundings.plain longCwd.line
      (Machine.accepted [])).map (fun out => out.1.replies) =
      some [.format FormatCall.cwd.fmt [slash :: List.replicate 80 0x61]] := by
  decide +kernel

/-- The reply to it is 133 characters long and goes out with neither convention. -/
theorem formatted_notSent :
    ¬ ∃ truncation, ∀ (buf : Vector INT8U maxResponseLen) (m m' : Machine (List Path)) (param : Path),
      Handled FileSystem.names Surroundings.plain m m' param →
      ∀ fmt args, Reply.format fmt args ∈ m'.replies.drop m.replies.length →
        Sent truncation buf (.format fmt args) (formatText (asciiBytes fmt) args) := by
  rintro ⟨truncation, always⟩
  obtain ⟨⟨m', status⟩, taken, replies⟩ := Option.map_eq_some_iff.mp longCwd_replies
  have sent := always (Vector.replicate 128 0) _ m' _ (.command longCwd status taken)
    FormatCall.cwd.fmt [slash :: List.replicate 80 0x61]
    (by rw [replies]; exact List.mem_cons_self)
  have fits := (sent_iff_room _ _ _ _ (by decide +kernel)).mp sent
  cases truncation <;> exact absurd fits (by decide +kernel)

end GasSub.Guarantees.FormattedReplies
