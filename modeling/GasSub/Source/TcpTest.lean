import GasSub.Source.Sensor

/-!
# Receiving a configuration over TCP

The loops of `ServerTest` in `tcp_test.c` behind `listen`: a connection is accepted,
whatever `recv` delivers is put into `buf1`, and the bytes at the start of `buf1` are
taken for a `Config_Struct`. An image is the bytes of such a structure; `posted` keeps
what `rev_config` holds at each `OSQPost` to `ConfigQueueHead`.
-/
namespace GasSub.Source

/-- `sizeof(Config_Struct)`: 84, 40, 52 and 56 bytes. -/
abbrev ConfigImage := Vector INT8U 232

/-- What `recv` returns: up to 512 bytes, 0 after an orderly close, or -1. -/
inductive RecvResult where
  | data (bytes : List INT8U)
  | closed
  | error
  deriving DecidableEq, Repr

inductive ServerPlace where
  | accepting | receiving
  deriving DecidableEq, Repr

structure Server where
  place : ServerPlace
  buf1 : Vector INT8U 512
  revConfig : ConfigImage
  posted : List ConfigImage
  /-- the calls of `closesocket(client_fd)` -/
  closedClients : Nat
  deriving DecidableEq, Repr

/-- `accept`; without a connection it is called again. -/
def Server.accept (s : Server) (connected : Bool) : Server :=
  if connected then { s with place := .receiving } else s

/-- The buffer after a `recv` of these bytes: what lies behind them stays. -/
def fillBuf1 (buf1 : Vector INT8U 512) (bytes : List INT8U) : Vector INT8U 512 :=
  Vector.ofFn fun i => bytes.getD i.val (buf1.get i)

/-- `*( Config_Struct* )buf1`. -/
def configAt (buf1 : Vector INT8U 512) : ConfigImage :=
  Vector.ofFn fun i => buf1.get (i.castLE (by decide))

/-- One iteration of the receive loop; outside it there is no `recv`. -/
def Server.recv (s : Server) (result : RecvResult) : Server :=
  match s.place with
  | .accepting => s
  | .receiving =>
    match result with
    | .data bytes =>
      let buf1 := fillBuf1 s.buf1 bytes
      let received := { s with buf1 := buf1, revConfig := configAt buf1 }
      if bytes.length = 0 then received
      else { received with posted := s.posted ++ [configAt buf1] }
    | .closed => { s with revConfig := configAt s.buf1 }
    | .error => { s with place := .accepting, closedClients := s.closedClients + 1 }

/-- A connection is accepted, and `recv` returns these results one after another. -/
def Server.connection (s : Server) (results : List RecvResult) : Server :=
  results.foldl Server.recv (s.accept true)

/-- Only an error ends the loop. -/
theorem foldl_recv_receiving (results : List RecvResult) (s : Server) (inside : s.place = .receiving)
    (noError : .error ∉ results) : (results.foldl Server.recv s).place = .receiving := by
  induction results generalizing s with
  | nil => exact inside
  | cons result rest ih =>
    refine ih _ ?_ fun later => noError (List.mem_cons_of_mem result later)
    cases result with
    | data bytes =>
      simp only [Server.recv, inside]
      split <;> rfl
    | closed =>
      simp only [Server.recv, inside]
    | error => exact absurd List.mem_cons_self noError

/-- What is posted is one structure for each result that delivers something, whatever it
delivers. -/
theorem length_posted_data (chunks : List (List INT8U)) (s : Server) (inside : s.place = .receiving)
    (some : ∀ chunk ∈ chunks, chunk ≠ []) :
    ((chunks.map RecvResult.data).foldl Server.recv s).posted.length =
      s.posted.length + chunks.length := by
  induction chunks generalizing s with
  | nil => rfl
  | cons chunk rest ih =>
    have long : ¬ chunk.length = 0 := fun empty =>
      some chunk List.mem_cons_self (List.length_eq_zero_iff.mp empty)
    have posts : s.recv (.data chunk) = { s with
        buf1 := fillBuf1 s.buf1 chunk
        revConfig := configAt (fillBuf1 s.buf1 chunk)
        posted := s.posted ++ [configAt (fillBuf1 s.buf1 chunk)] } := by
      simp only [Server.recv, inside, if_neg long]
    have tail := ih (s.recv (.data chunk)) (by rw [posts]; exact inside)
      fun later member => some later (List.mem_cons_of_mem chunk member)
    rw [List.map_cons, List.foldl_cons, tail, posts]
    simp only [List.length_append, List.length_cons, List.length_nil]
    omega

/-- A result that delivers exactly one structure posts that structure. -/
theorem configAt_fillBuf1 (buf1 : Vector INT8U 512) (image : ConfigImage) :
    configAt (fillBuf1 buf1 image.toList) = image := by
  apply Vector.ext
  intro i inside
  have stored : i < image.toList.length := by
    rw [Vector.length_toList]
    exact inside
  have read : (configAt (fillBuf1 buf1 image.toList))[i] =
      (Vector.ofFn fun i => image.toList.getD i.val (buf1.get i)).get ⟨i, by omega⟩ := by
    rw [configAt, Vector.getElem_ofFn]
    rfl
  have cell : ∀ (f : Fin 512 → INT8U) (i : Fin 512), (Vector.ofFn f).get i = f i :=
    fun f i => Vector.getElem_ofFn i.isLt
  rw [read, cell, List.getD_eq_getElem?_getD, List.getElem?_eq_getElem stored, Option.getD_some,
    Vector.getElem_toList]

end GasSub.Source
