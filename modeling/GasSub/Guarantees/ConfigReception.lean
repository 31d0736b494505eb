import GasSub.Source.TcpTest

/-!
# A stream of configurations

A client sends structures and closes; TCP delivers the bytes in pieces of any length.
`ServerTest` posts once per piece, and takes the 0 that `recv` returns after the close
for a piece without bytes, so that it never leaves the connection.
-/
namespace GasSub.Guarantees.ConfigReception
open GasSub.Source

/-- `recv` after the stream was closed returns 0 as often as it is called. -/
def streamResults (chunks : List (List INT8U)) (calls : Nat) : List RecvResult :=
  chunks.map .data ++ List.replicate calls .closed

/-- The structures are posted, each once and as it was sent, and at some time after the
close the server has closed the client socket and accepts again. -/
structure Received (s : Server) (images : List ConfigImage) (chunks : List (List INT8U)) : Prop where
  posted : (s.connection (streamResults chunks 0)).posted = s.posted ++ images
  left : ∃ calls, (s.connection (streamResults chunks calls)).place = .accepting ∧
    (s.connection (streamResults chunks calls)).closedClients = s.closedClients + 1 ∧
    (s.connection (streamResults chunks calls)).posted = s.posted ++ images

/-- The chunks deliver the structures and an incomplete one. -/
structure Segments (images : List ConfigImage) (rest : List INT8U) (chunks : List (List INT8U)) :
    Prop where
  stream : chunks.flatten = (images.map Vector.toList).flatten ++ rest
  incomplete : rest.length < 232
  sizes : ∀ chunk ∈ chunks, chunk ≠ [] ∧ chunk.length ≤ 512

theorem error_notMem_streamResults (chunks : List (List INT8U)) (calls : Nat) :
    .error ∉ streamResults chunks calls := by
  intro member
  rcases List.mem_append.mp member with inside | behind
  · obtain ⟨chunk, -, no⟩ := List.mem_map.mp inside
    cases no
  · cases List.eq_of_mem_replicate behind

/-- However the stream is cut, the server stays with the connection. -/
theorem receiving_streamResults (s : Server) (chunks : List (List INT8U)) (calls : Nat) :
    (s.connection (streamResults chunks calls)).place = .receiving :=
  foldl_recv_receiving _ _ rfl (error_notMem_streamResults chunks calls)

/-- A segmentation in more or fewer pieces than structures does not post them. -/
theorem posted_of_pieces {s : Server} {images : List ConfigImage} {rest : List INT8U}
    {chunks : List (List INT8U)} (segments : Segments images rest chunks)
    (posted : (s.connection (streamResults chunks 0)).posted = s.posted ++ images) :
    chunks.length = images.length := by
  have count := length_posted_data chunks (s.accept true) rfl fun chunk member =>
    (segments.sizes chunk member).1
  have same := congrArg List.length posted
  rw [List.length_append, streamResults, List.replicate_zero, List.append_nil, Server.connection,
    count] at same
  simp only [Server.accept, if_true] at same
  omega

/-- Delivered one structure a piece, they are posted as they were sent. -/
theorem posted_of_whole (s : Server) (images : List ConfigImage) :
    (s.connection (streamResults (images.map Vector.toList) 0)).posted = s.posted ++ images := by
  have inside : (s.accept true).place = .receiving := rfl
  have before : (s.accept true).posted = s.posted := rfl
  rw [streamResults, List.replicate_zero, List.append_nil, Server.connection, ← before]
  generalize s.accept true = s at inside
  induction images generalizing s with
  | nil => exact (List.append_nil _).symm
  | cons image rest ih =>
    have long : ¬ image.toList.length = 0 := by
      rw [Vector.length_toList]
      decide
    have posts : s.recv (.data image.toList) = { s with
        buf1 := fillBuf1 s.buf1 image.toList
        revConfig := image
        posted := s.posted ++ [image] } := by
      simp only [Server.recv, inside, if_neg long, configAt_fillBuf1]
    have tail := ih (s.recv (.data image.toList)) (by rw [posts]; exact inside)
    rw [List.map_cons, List.map_cons, List.foldl_cons, tail, posts, List.append_assoc]
    rfl

/-- No stream of structures is received: whatever was posted, the server never leaves the
connection. -/
theorem never_received (s : Server) (images : List ConfigImage) (chunks : List (List INT8U)) :
    ¬ Received s images chunks := by
  intro received
  obtain ⟨calls, accepting, -⟩ := received.left
  rw [receiving_streamResults] at accepting
  cases accepting

def quietServer : Server :=
  { place := .accepting, buf1 := Vector.replicate 512 0, revConfig := Vector.replicate 232 0
    posted := [], closedClients := 0 }

/-- A structure of ones in two pieces. -/
def onesImage : ConfigImage := Vector.replicate 232 1

def twoPieces : List (List INT8U) := [List.replicate 100 1, List.replicate 132 1]

theorem segments_twoPieces : Segments [onesImage] [] twoPieces where
  stream := by simp [twoPieces, onesImage]
  incomplete := by simp
  sizes := by simp [twoPieces]

/-- The first piece is posted with zeros behind it, and so are the pieces after it. -/
theorem twoPieces_not_received :
    Segments [onesImage] [] twoPieces ∧
      (quietServer.connection (streamResults twoPieces 0)).posted.length = 2 ∧
      ¬ Received quietServer [onesImage] twoPieces := by
  have twice : (quietServer.connection (streamResults twoPieces 0)).posted.length = 2 :=
    length_posted_data twoPieces _ rfl (by simp [twoPieces])
  refine ⟨segments_twoPieces, twice, fun received => ?_⟩
  rw [received.posted] at twice
  cases twice

end GasSub.Guarantees.ConfigReception
