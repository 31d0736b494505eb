import GasSub.Library.Decimal
import GasSub.Source.FtpSession

/-!
# FTP command handlers

The handlers of `cmd.c` and the callbacks of its data connections, with the
dispatch through the command table. The file system is given by its calls. A
handler has no result where it leaves the memory it was given.
-/
namespace GasSub.Source.Hvsftpd
open GasSub.Library.CharArray GasSub.Library.Decimal

def fileBufSize : Nat := 1024

structure Stat where
  directory : Bool
  size : Nat
  deriving DecidableEq, Repr

/-- The calls of `yaffsfs`; a call that fails may still change the files. -/
structure FileSystem (φ : Type) where
  stat : φ → Path → Option Stat
  entries : φ → Path → Option (List Path)
  openFile : φ → Path → Bool → φ × Option Nat
  /-- The results of `read`, one call after another, up to the first that gives no bytes. -/
  blocks : φ → Nat → List (List INT8U)
  write : φ → Nat → List INT8U → φ
  close : φ → Nat → φ
  unlink : φ → Path → φ × Bool
  rmdir : φ → Path → φ × Bool
  mkdir : φ → Path → φ × Bool
  rename : φ → Path → Path → φ × Bool
  remount : φ → φ

variable {φ : Type}

def Machine.call (m : Machine φ) (call : FileCall) : Machine φ :=
  { m with calls := m.calls ++ [call] }

/-- `stat` returns 0 and the file is as wanted. -/
def Machine.finds (fs : FileSystem φ) (m : Machine φ) (path : Path) (wanted : Stat → Bool) :
    Bool :=
  (fs.stat m.files path).any wanted

/-- A call that changes files, and the reply to each outcome. -/
def Machine.perform (m : Machine φ) (call : FileCall) (outcome : φ × Bool)
    (done failed : Machine φ → Machine φ) : Machine φ :=
  let m := { m.call call with files := outcome.1 }
  if outcome.2 then done m else failed m

/-! ### Handlers without files -/

def noopHandler (m : Machine φ) (_param : List INT8U) : Machine φ × HfStatus :=
  (sessionResponse m "200 Ok.", .ok)

def systHandler (m : Machine φ) (_param : List INT8U) : Machine φ × HfStatus :=
  (sessionResponse m "215 UNIX Type: L8 Internet Component Suite.", .ok)

def userHandler (m : Machine φ) (_param : List INT8U) : Machine φ × HfStatus :=
  (sessionResponse m "331 Password required.", .ok)

def passHandler (m : Machine φ) (_param : List INT8U) : Machine φ × HfStatus :=
  (sessionResponse m "230 User logged in.", .ok)

def pwdHandler (m : Machine φ) (_param : List INT8U) : Machine φ × HfStatus :=
  (sessionFormatResponse m "257 \"%s\" is current directory." [m.session.currentDir.text], .ok)

def typeHandler (m : Machine φ) (param : List INT8U) : Machine φ × HfStatus :=
  if sameCommand param (asciiBytes "A") then (sessionResponse m "200 Type set to A.", .ok)
  else if sameCommand param (asciiBytes "I") then (sessionResponse m "200 Type set to I.", .ok)
  else (sessionResponse m "500 command not understood.", .ok)

/-- The commas of a PORT parameter, `k` of them before it: the first three become
dots, the fourth a NUL, the others blanks. -/
def formatPort (k : Nat) : List INT8U → List INT8U × Nat
  | [] => ([], k)
  | c :: rest =>
    if c = 0x2C then
      let formatted := formatPort (k + 1) rest
      ((if k + 1 = 4 then 0 else if k + 1 < 4 then 0x2E else 0x20) :: formatted.1, formatted.2)
    else
      let formatted := formatPort k rest
      (c :: formatted.1, formatted.2)

/-- `sscanf` with `"%hhu%hhu"`. -/
def scanPort (text : List INT8U) : Option (INT8U × INT8U) :=
  (scanInt text).bind fun p1 =>
    (scanInt p1.2).map fun p2 => (BitVec.ofInt 8 p1.1, BitVec.ofInt 8 p2.1)

def portHandler (m : Machine φ) (param : List INT8U) : Machine φ × HfStatus :=
  let formatted := formatPort 0 param
  let scanned :=
    if formatted.2 = 5 then scanPort ((formatted.1.dropWhile (· ≠ 0)).drop 1) else none
  match scanned with
  | some (p1, p2) =>
    let addr := cString formatted.1
    (sessionResponse
      { m with session := { m.session with
          addr := addr.take 16 ++ List.replicate (16 - addr.length) 0
          port := p1.setWidth 16 <<< 8 ||| p2.setWidth 16 } }
      "200 Port command successful.", .ok)
  | none => (sessionResponse m "501 Invalid PORT command.", .ok)

/-- The parameter of CWD with its backslashes turned. -/
def turnBackslashes (param : List INT8U) : List INT8U :=
  param.map fun c => if c = backslash then slash else c

/-- `current_dir` after CWD: an absolute path replaces it, a relative one is appended. -/
def cwdDir (currentDir : CharArray) (param : List INT8U) : Option CharArray :=
  if param.head? = some slash then some (currentDir.copy param)
  else makePathIn currentDir param maxPathLen

def cwdHandler (m : Machine φ) (param : List INT8U) : Option (Machine φ × HfStatus) :=
  (cwdDir m.session.currentDir (turnBackslashes param)).map fun currentDir =>
    (sessionFormatResponse { m with session := { m.session with currentDir } }
      "250 CWD command successful, \"%s\" is current directory." [currentDir.text], .ok)

/-! ### Handlers on files -/

/-- In a block of `size` bytes, the path of the file `param` names; `failed` is the
reply when there is no block. -/
def atPath (env : Surroundings) (m : Machine φ) (size : Nat) (param : List INT8U)
    (failed : String) (act : List INT8U → Path → Option (Machine φ)) : Option (Machine φ) :=
  match env.malloc size with
  | none => some (sessionResponse m failed)
  | some block => do
    let block ← commandPath m.session.rootDir.text m.session.currentDir.text param block
    let path ← text? 0 block
    act block path

/-- DELE and RMD: the file goes if it is of the wanted kind. -/
def removeAt (fs : FileSystem φ) (m : Machine φ) (param : List INT8U) (wanted : Stat → Bool)
    (call : Path → FileCall) (remove : φ → Path → φ × Bool) (done failed missing : String)
    (path : Path) : Machine φ :=
  let found := m.finds fs path wanted
  let m := m.call (.stat path)
  if found then
    m.perform (call path) (remove m.files path)
      (sessionFormatResponse · done [param]) (sessionFormatResponse · failed [param])
  else sessionFormatResponse m missing [param]

def deleHandler (fs : FileSystem φ) (env : Surroundings) (m : Machine φ) (param : List INT8U) :
    Option (Machine φ × HfStatus) :=
  (atPath env m maxPathLen param "550 Cannot DELE" fun _ path =>
    some (removeAt fs m param (fun st => !st.directory) .unlink fs.unlink
      "250 File '%s' deleted." "450 File '%s' can't be deleted."
      "550 File '%s': no such file or directory." path)).map (·, .ok)

def rmdHandler (fs : FileSystem φ) (env : Surroundings) (m : Machine φ) (param : List INT8U) :
    Option (Machine φ × HfStatus) :=
  (atPath env m maxPathLen param "550 Cannot RMD" fun _ path =>
    some (removeAt fs m param (fun st => st.directory) .rmdir fs.rmdir
      "250 '%s': directory removed." "550 '%s': can't remove directory."
      "550 File '%s': no such directory." path)).map (·, .ok)

def rnfrHandler (fs : FileSystem φ) (env : Surroundings) (m : Machine φ) (param : List INT8U) :
    Option (Machine φ × HfStatus) :=
  (atPath env m maxPathLen param "550 Cannot RNFR" fun block path =>
    let found := m.finds fs path fun _ => true
    let m := m.call (.stat path)
    if found then do
      -- `path + strlen(s->root_dir)`
      let name ← text? 0 (block.drop m.session.rootDir.text.length)
      return sessionResponse
        { m with session := { m.session with renamingPath := m.session.renamingPath.copy name } }
        "350 File exists, ready for destination name."
    else
      some (sessionFormatResponse m "550 File '%s': no such file or directory." [param])).map
    (·, .ok)

/-- RNTO, once both paths are joined. -/
def renameAt (fs : FileSystem φ) (m : Machine φ) (oldName param : List INT8U)
    (oldPath path : Path) : Machine φ :=
  let found := m.finds fs oldPath fun _ => true
  let m := m.call (.stat oldPath)
  if found then
    m.perform (.rename oldPath path) (fs.rename m.files oldPath path)
      (sessionFormatResponse · "250 File '%s' renamed to '%s'." [oldName, param])
      (sessionFormatResponse · "450 File '%s' can't be renamed." [oldName])
  else sessionFormatResponse m "550 File '%s': no such file or directory." [oldName]

/-- `old_path` lies behind `path` in the same block. -/
def rntoHandler (fs : FileSystem φ) (env : Surroundings) (m : Machine φ) (param : List INT8U) :
    Option (Machine φ × HfStatus) :=
  match env.malloc (maxPathLen + maxPathLen) with
  | none => some (sessionResponse m "550 Cannot RNTO", .ok)
  | some block => do
    let rootDir := m.session.rootDir.text
    let oldName := m.session.renamingPath.text
    let (oldPath, _) ← makePath (some rootDir) oldName (block.drop maxPathLen) maxPathLen
    let block ← commandPath rootDir m.session.currentDir.text param
      (block.take maxPathLen ++ oldPath)
    let oldPath ← text? 0 (block.drop maxPathLen)
    let path ← text? 0 block
    return (renameAt fs m oldName param oldPath path, .ok)

/-- The path of MKD: an absolute name is joined to the root directory alone. -/
def mkdPath (s : Session) (param : List INT8U) (path : List INT8U) : Option (List INT8U) :=
  if param.head? = some slash then
    (makePath (some s.rootDir.text) param path maxPathLen).map Prod.fst
  else commandPath s.rootDir.text s.currentDir.text param path

def createAt (fs : FileSystem φ) (m : Machine φ) (param : List INT8U) (path : Path) : Machine φ :=
  let found := m.finds fs path fun _ => true
  let m := m.call (.stat path)
  if found then sessionFormatResponse m "550 '%s': file or directory already exists." [param]
  else
    m.perform (.mkdir path) (fs.mkdir m.files path)
      (sessionFormatResponse · "250 '%s': directory created." [param])
      (sessionFormatResponse · "550 '%s': can't create directory." [param])

def mkdHandler (fs : FileSystem φ) (env : Surroundings) (m : Machine φ) (param : List INT8U) :
    Option (Machine φ × HfStatus) :=
  match env.malloc maxPathLen with
  | none => some (sessionResponse m "550 Cannot MKD", .ok)
  | some block => do
    let block ← mkdPath m.session param block
    let path ← text? 0 block
    return (createAt fs m param path, .ok)

def quitHandler (m : Machine φ) (_param : List INT8U) : Machine φ × HfStatus :=
  (sessionResponse m "221 Goodbye.", .err)

def fmtHandler (fs : FileSystem φ) (m : Machine φ) (_param : List INT8U) : Machine φ × HfStatus :=
  (sessionResponse { m with files := fs.remount m.files } "200 ok.", .err)

/-! ### Data connections -/

def listHandler (env : Surroundings) (m : Machine φ) (param : List INT8U) : Machine φ × HfStatus :=
  ((sessionOpendata env m 'w' .listWrite param).1, .ok)

def retrHandler (env : Surroundings) (m : Machine φ) (param : List INT8U) : Machine φ × HfStatus :=
  ((sessionOpendata env m 'w' .retrWrite param).1, .ok)

def storHandler (env : Surroundings) (m : Machine φ) (param : List INT8U) : Machine φ × HfStatus :=
  ((sessionOpendata env m 'r' .storRead param).1, .ok)

/-- `"%crwxrwxrwx   1 %8s %8s %7d Dec 07  2013 %s\r\n"`; `_snprintf` cuts it to what `buf` holds
with its NUL, so that the end of a long name and the line break are missing. -/
def listLine (st : Stat) (name : Path) : List INT8U :=
  let size := intText (BitVec.ofNat 32 st.size).toInt
  (asciiBytes (if st.directory then "d" else "-") ++
    asciiBytes "rwxrwxrwx   1      ftp      ftp " ++ List.replicate (7 - size.length) 0x20 ++ size ++
    asciiBytes " Dec 07  2013 " ++ name ++ asciiBytes "\r\n").take (maxPathLen - 1)

/-- The entries of a directory, each with its path in `buf`. -/
def listEntries (fs : FileSystem φ) (path : Path) :
    List Path → List INT8U → Machine φ → Option (Machine φ)
  | [], _, m => some m
  | name :: rest, buf, m => do
    let (buf, _) ← makePath (some path) name buf maxPathLen
    let entry ← text? 0 buf
    let found := fs.stat m.files entry
    let m := m.call (.stat entry)
    listEntries fs path rest buf
      { m with sent := m.sent ++ (found.map fun st => listLine st name).toList }

/-- The current directory sent, in a block for its path and the entries' paths. -/
def listDir (fs : FileSystem φ) (env : Surroundings) (m : Machine φ) : Option (Machine φ) :=
  match env.malloc (maxPathLen * 2) with
  | none => some m
  | some block => do
    let (block, _) ←
      makePath (some m.session.rootDir.text) m.session.currentDir.text block maxPathLen
    let path ← text? 0 block
    let m := m.call (.opendir path)
    match fs.entries m.files path with
    | none => some m
    | some names =>
      -- `buf` starts inside a longer path
      if maxPathLen ≤ path.length then none
      else listEntries fs path names (block.drop maxPathLen) m

def listWrite (fs : FileSystem φ) (env : Surroundings) (m : Machine φ) : Option (Machine φ) := do
  let m ← listDir fs env m
  let m ← sessionClosedata m
  return sessionResponse m "226 File sent ok"

def retrAt (fs : FileSystem φ) (m : Machine φ) (param : List INT8U) (path : Path) : Machine φ :=
  let found := m.finds fs path fun _ => true
  let m := m.call (.stat path)
  if found then
    let m := m.call (.openFile path false)
    match fs.openFile m.files path false with
    | (files, some fd) =>
      sessionResponse
        { m with sent := m.sent ++ fs.blocks files fd, files := fs.close files fd }
        "226 File sent ok"
    | (files, none) => sessionResponse { m with files } "501 Permission Denied"
  else sessionFormatResponse m "550 File '%s': no such file or directory." [param]

def retrWrite (fs : FileSystem φ) (env : Surroundings) (m : Machine φ) : Option (Machine φ) := do
  let param := m.session.param.text
  let m ← atPath env m (maxPathLen + fileBufSize) param "550 Cannot RETR" fun _ path =>
    some (retrAt fs m param path)
  sessionClosedata m

/-- The blocks written until the connection is closed; without that the loop goes on. -/
def storLoop : List Received → Option (List (List INT8U))
  | [] => none
  | received :: rest =>
    let buf := (socketRead received).1
    if buf ≠ [] ∨ received.wouldBlock then
      -- after `EWOULDBLOCK` the length is set to 0
      if received.wouldBlock then storLoop rest
      else (storLoop rest).map (buf :: ·)
    else some []

def storAt (fs : FileSystem φ) (env : Surroundings) (m : Machine φ) (path : Path) :
    Option (Machine φ) :=
  let m := m.call (.openFile path true)
  match fs.openFile m.files path true with
  | (files, some fd) => do
    let i ← m.session.dataSock
    let blocks ← storLoop env.recv
    -- the loop ends on a socket that is closed
    return sessionResponse
      { m with
        sockList := Function.update m.sockList i { m.sockList i with state := .closed }
        files := fs.close (blocks.foldl (fs.write · fd ·) files) fd }
      "226 File received ok"
  | (files, none) => some (sessionResponse { m with files } "501 Permission Denied")

def storRead (fs : FileSystem φ) (env : Surroundings) (m : Machine φ) : Option (Machine φ) := do
  let param := m.session.param.text
  let m ← atPath env m (maxPathLen + fileBufSize) param "550 Cannot STOR" fun _ path =>
    storAt fs env m path
  sessionClosedata m

/-- `session->callback(session, session->param)`. -/
def runCallback (fs : FileSystem φ) (env : Surroundings) (m : Machine φ) :
    SessionCallback → Option (Machine φ)
  | .listWrite => listWrite fs env m
  | .retrWrite => retrWrite fs env m
  | .storRead => storRead fs env m

/-! ### `cmd_disptach` -/

def handle (fs : FileSystem φ) (env : Surroundings) (m : Machine φ) (param : List INT8U) :
    FtpHandler → Option (Machine φ × HfStatus)
  | .noop => some (noopHandler m param)
  | .syst => some (systHandler m param)
  | .user => some (userHandler m param)
  | .pass => some (passHandler m param)
  | .pwd => some (pwdHandler m param)
  | .type => some (typeHandler m param)
  | .port => some (portHandler m param)
  | .cwd => cwdHandler m param
  | .list => some (listHandler env m param)
  | .retr => some (retrHandler env m param)
  | .dele => deleHandler fs env m param
  | .stor => some (storHandler env m param)
  | .rmd => rmdHandler fs env m param
  | .rnfr => rnfrHandler fs env m param
  | .rnto => rntoHandler fs env m param
  | .mkd => mkdHandler fs env m param
  | .quit => some (quitHandler m param)
  | .fmt => some (fmtHandler fs m param)

/-- What stands behind the first blank of the command line. -/
def cmdParam (cmd : List INT8U) : List INT8U := (cmd.dropWhile (· ≠ 0x20)).drop 1

def cmdDisptach (fs : FileSystem φ) (env : Surroundings) (cmd : List INT8U) (m : Machine φ) :
    Option (Machine φ × HfStatus) :=
  match cmdHandler cmd with
  | some handler => handle fs env m (cmdParam cmd) handler
  | none => some (sessionResponse m "500 command not understood.", .ok)

theorem cmdDisptach_handler {fs : FileSystem φ} {env : Surroundings} {cmd : List INT8U}
    {m : Machine φ} {handler : FtpHandler} (names : cmdHandler cmd = some handler) :
    cmdDisptach fs env cmd m = handle fs env m (cmdParam cmd) handler := by
  unfold cmdDisptach
  simp only [names]

/-! ### Runs on names alone -/

/-- A file system of names, to run the handlers on. -/
def FileSystem.names : FileSystem (List Path) where
  stat := fun files path => if path ∈ files then some ⟨false, 0⟩ else none
  entries := fun _ _ => none
  openFile := fun files path create =>
    if create then (path :: files, some 0) else (files, if path ∈ files then some 0 else none)
  blocks := fun _ _ => []
  write := fun files _ _ => files
  close := fun files _ => files
  unlink := fun files path => (files.erase path, true)
  rmdir := fun files path => (files.erase path, true)
  mkdir := fun files path => (path :: files, true)
  rename := fun files old new => (new :: files.erase old, true)
  remount := id

/-- Memory at hand and connections that succeed. -/
def Surroundings.plain : Surroundings where
  malloc := fun n => some (List.replicate n 0xA5)
  malloc_size := by
    intro n block given
    rw [← Option.some.inj given, List.length_replicate]
  socket := some 7
  setNonblock := true
  connect := fun _ _ => true
  recv := [⟨some [], false⟩]

/-- A session right after it was accepted, on the socket behind the server's. -/
def Machine.accepted (files : φ) : Machine φ where
  sockList := fun _ => Hfsocket.cleared
  self := 1
  session := Session.accepted 1
  files := files
  replies := []
  calls := []
  sent := []

end GasSub.Source.Hvsftpd
