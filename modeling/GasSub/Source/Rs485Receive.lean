import GasSub.Library.BufferFill
import GasSub.Source.Sensor

/-!
# RS485 reception

The receive branches of `UART0/2/3/4_IRQHandler` and `RS485_Get_Struct` of
`com_uart.c`. The four handlers are one text over four sets of globals. Each
function also returns the array accesses it makes: `Rcv` has 15 bytes and
`data` has 10, an access outside them leaves no defined state, and the
accesses up to and including that one are still reported.
-/
namespace GasSub.Source
open GasSub.Library.BufferFill

inductive RS485UartNum where
  | uart0 | uart2 | uart3 | uart4
  deriving DecidableEq, Repr

structure RS485TMP where
  send : Vector INT8U 10
  rcv : Vector INT8U 15
  sendIndex : INT8U
  rcvIndex : INT8U
  sendOK : INT8U
  readyToRcv : INT8U
  sendLen : INT8U
  deriving DecidableEq, Repr

structure UserRS485Rcv where
  ctrl : INT8U
  len : INT8U
  data : Vector INT8U 10
  deriving DecidableEq, Repr

/-- `RS485UartN` with its flag `uartNRcvOK`. -/
structure Rs485Port where
  uart : RS485TMP
  rcvOK : INT8U
  deriving DecidableEq, Repr

/-- What `LPC_Uart_Init` does to a channel; the flag is a zeroed global. -/
def Rs485Port.init (p : Rs485Port) : Rs485Port :=
  { uart := { p.uart with rcvIndex := 0, sendIndex := 0, sendOK := 1, readyToRcv := 0 }
    rcvOK := 0 }

inductive Rs485Access where
  | storeRcv (index : Nat)
  | readRcv (index : Nat)
  | writeData (index : Nat)
  deriving DecidableEq, Repr

/-- The outcome of a piece of C code: its result, if its accesses are all inside
the arrays, and these accesses. -/
abbrev Traced (α : Type) := Option α × List Rs485Access

/-! ### The receive interrupt -/

/-- The end of a capture: the byte before the tail gives the verdict. -/
def rs485EndCapture (p : Rs485Port) (verdict : INT8U) : Rs485Port :=
  { p with
    uart := { p.uart with readyToRcv := 0, rcvIndex := 0 }
    rcvOK := verdict }

/-- The handler while a capture runs; the byte stored last is the one received. -/
def rs485Capture (p : Rs485Port) (byte : INT8U) (inside : p.uart.rcvIndex.toNat < 15) : Rs485Port :=
  let stored :=
    { p with
      uart := { p.uart with
        rcv := p.uart.rcv.set p.uart.rcvIndex.toNat byte
        rcvIndex := p.uart.rcvIndex + 1 } }
  if byte ≠ 0x45 then stored
  else if fifth : 5 ≤ stored.uart.rcvIndex.toNat then
    if stored.uart.rcv[p.uart.rcvIndex.toNat - 1] = 0x98 then rs485EndCapture stored 1
    else rs485EndCapture stored 0
  else stored

/-- The receive branch shared by the four handlers. -/
def rs485Receive (p : Rs485Port) (byte : INT8U) : Traced Rs485Port :=
  if p.uart.readyToRcv = 1 then
    if inside : p.uart.rcvIndex.toNat < 15 then
      (some (rs485Capture p byte inside), [.storeRcv p.uart.rcvIndex.toNat])
    else (none, [.storeRcv p.uart.rcvIndex.toNat])
  else if byte = 0x53 ∧ p.uart.readyToRcv = 0 then
    (some { p with uart := { p.uart with readyToRcv := 1 } }, [])
  else (some p, [])

/-- The four channels. -/
abbrev Rs485Ports := RS485UartNum → Rs485Port

/-- A function applied to one channel; the other three stay as they are. -/
def onPort (ports : Rs485Ports) (n : RS485UartNum) (result : Traced Rs485Port) : Traced Rs485Ports :=
  (result.1.map (Function.update ports n), result.2)

def uart0IRQHandlerReceive (ports : Rs485Ports) (byte : INT8U) : Traced Rs485Ports :=
  onPort ports .uart0 (rs485Receive (ports .uart0) byte)

def uart2IRQHandlerReceive (ports : Rs485Ports) (byte : INT8U) : Traced Rs485Ports :=
  onPort ports .uart2 (rs485Receive (ports .uart2) byte)

def uart3IRQHandlerReceive (ports : Rs485Ports) (byte : INT8U) : Traced Rs485Ports :=
  onPort ports .uart3 (rs485Receive (ports .uart3) byte)

def uart4IRQHandlerReceive (ports : Rs485Ports) (byte : INT8U) : Traced Rs485Ports :=
  onPort ports .uart4 (rs485Receive (ports .uart4) byte)

/-- The handler of channel `n`. -/
def rs485IRQHandlerReceive (ports : Rs485Ports) : RS485UartNum → INT8U → Traced Rs485Ports
  | .uart0 => uart0IRQHandlerReceive ports
  | .uart2 => uart2IRQHandlerReceive ports
  | .uart3 => uart3IRQHandlerReceive ports
  | .uart4 => uart4IRQHandlerReceive ports

theorem rs485IRQHandlerReceive_eq (ports : Rs485Ports) (n : RS485UartNum) (byte : INT8U) :
    rs485IRQHandlerReceive ports n byte = onPort ports n (rs485Receive (ports n) byte) := by
  cases n <;> rfl

/-! ### Fetching a frame -/

/-- The copy loop from index `i` on, with `remaining` passes to go. -/
def copyData (rcv : Vector INT8U 15) :
    (remaining i : Nat) → Vector INT8U 10 → Traced (Vector INT8U 10)
  | 0, _, data => (some data, [])
  | remaining + 1, i, data =>
    if inside : i + 2 < 15 ∧ i < 10 then
      let rest := copyData rcv remaining (i + 1) (data.set i rcv[i + 2] inside.2)
      (rest.1, .readRcv (i + 2) :: .writeData i :: rest.2)
    else (none, [.readRcv (i + 2), .writeData i])

/-- The length byte of the frame in `Rcv`. -/
def RS485TMP.lengthByte (uart : RS485TMP) : INT8U := uart.rcv[1]

/-- One case of `RS485_Get_Struct`. The structure returned starts out
uninitialized, here `junk`. -/
def rs485Get (p : Rs485Port) (junk : UserRS485Rcv) : Traced (UserRS485Rcv × Rs485Port) :=
  if p.rcvOK = 0 then (some (junk, p), [])
  else
    let ctrl := p.uart.rcv[0]
    let len := p.uart.lengthByte
    let copied := copyData p.uart.rcv len.toNat 0 junk.data
    (copied.1.map fun data => (⟨ctrl, len, data⟩, { p with rcvOK := 0 }),
      .readRcv 0 :: .readRcv 1 :: copied.2)

def rs485GetStruct (ports : Rs485Ports) (n : RS485UartNum) (junk : UserRS485Rcv) :
    Traced (UserRS485Rcv × Rs485Ports) :=
  let result := rs485Get (ports n) junk
  (result.1.map fun found => (found.1, Function.update ports n found.2), result.2)

/-! ### What one interrupt does -/

/-- The byte completes a capture: it is an E, and the fifth byte or a later one. -/
def Rs485Port.Ends (p : Rs485Port) (byte : INT8U) : Prop :=
  byte = 0x45 ∧ 4 ≤ p.uart.rcvIndex.toNat

instance (p : Rs485Port) (byte : INT8U) : Decidable (p.Ends byte) :=
  inferInstanceAs (Decidable (_ ∧ _))

/-- A counter of eight bits short of its last value. -/
theorem counter_succ {n : INT8U} (below : n.toNat < 255) : (n + 1).toNat = n.toNat + 1 := by
  have small : n.toNat + 1 < 2 ^ 8 := by omega
  exact BitVec.toNat_add_of_lt small

theorem rcvIndex_succ {p : Rs485Port} (inside : p.uart.rcvIndex.toNat < 15) :
    (p.uart.rcvIndex + 1).toNat = p.uart.rcvIndex.toNat + 1 := counter_succ (by omega)

/-- A byte that does not complete the capture is stored and nothing else happens. -/
theorem rs485Capture_inside (p : Rs485Port) (byte : INT8U) (inside : p.uart.rcvIndex.toNat < 15)
    (goesOn : ¬ p.Ends byte) :
    rs485Capture p byte inside =
      { p with
        uart := { p.uart with
          rcv := p.uart.rcv.set p.uart.rcvIndex.toNat byte
          rcvIndex := p.uart.rcvIndex + 1 } } := by
  have next := rcvIndex_succ inside
  unfold Rs485Port.Ends at goesOn
  unfold rs485Capture
  by_cases tail : byte = 0x45
  · have early : ¬ 4 ≤ p.uart.rcvIndex.toNat := fun late => goesOn ⟨tail, late⟩
    rw [if_neg (not_not.mpr tail), dif_neg]
    simp only [next]
    omega
  · rw [if_pos tail]

/-- The completing byte is stored, and the byte before it sets the flag. -/
theorem rs485Capture_ends (p : Rs485Port) (byte : INT8U) (inside : p.uart.rcvIndex.toNat < 15)
    (ends : p.Ends byte) :
    rs485Capture p byte inside =
      { p with
        uart := { p.uart with
          rcv := p.uart.rcv.set p.uart.rcvIndex.toNat byte
          readyToRcv := 0
          rcvIndex := 0 }
        rcvOK := if p.uart.rcv[p.uart.rcvIndex.toNat - 1] = 0x98 then 1 else 0 } := by
  obtain ⟨tail, fifth⟩ := ends
  have next := rcvIndex_succ inside
  have before : (p.uart.rcv.set p.uart.rcvIndex.toNat byte)[p.uart.rcvIndex.toNat - 1] =
      p.uart.rcv[p.uart.rcvIndex.toNat - 1] :=
    Vector.getElem_set_ne _ _ (by omega)
  unfold rs485Capture
  rw [if_neg (not_not.mpr tail), dif_pos (by simp only [next]; omega)]
  simp only [before, rs485EndCapture]
  split <;> rfl

/-- The index invariant: a channel is idle at index zero or capturing. -/
def Rs485Port.Phased (p : Rs485Port) : Prop :=
  (p.uart.readyToRcv = 0 ∧ p.uart.rcvIndex = 0) ∨
    (p.uart.readyToRcv = 1 ∧ p.uart.rcvIndex.toNat ≤ 15)

theorem phased_init (p : Rs485Port) : p.init.Phased := Or.inl ⟨rfl, rfl⟩

theorem phased_capture (p : Rs485Port) (byte : INT8U) (inside : p.uart.rcvIndex.toNat < 15)
    (capturing : p.uart.readyToRcv = 1) : (rs485Capture p byte inside).Phased := by
  by_cases ends : p.Ends byte
  · rw [rs485Capture_ends p byte inside ends]
    exact Or.inl ⟨rfl, rfl⟩
  · rw [rs485Capture_inside p byte inside ends]
    have next := rcvIndex_succ inside
    refine Or.inr ⟨capturing, ?_⟩
    simp only [next]
    omega

/-- A phased channel takes a byte in one of three ways: it is idle and stays at
index zero, it captures with room, or it captures without room. -/
theorem rs485Receive_cases (p : Rs485Port) (byte : INT8U) (phased : p.Phased) :
    (p.uart.readyToRcv = 0 ∧ p.uart.rcvIndex = 0 ∧
      rs485Receive p byte =
        (some { p with uart := { p.uart with readyToRcv := if byte = 0x53 then 1 else 0 } }, [])) ∨
    (p.uart.readyToRcv = 1 ∧ ∃ inside : p.uart.rcvIndex.toNat < 15,
      rs485Receive p byte =
        (some (rs485Capture p byte inside), [.storeRcv p.uart.rcvIndex.toNat])) ∨
    (p.uart.readyToRcv = 1 ∧ ¬ p.uart.rcvIndex.toNat < 15 ∧
      rs485Receive p byte = (none, [.storeRcv p.uart.rcvIndex.toNat])) := by
  cases phased with
  | inl idle =>
    left
    refine ⟨idle.1, idle.2, ?_⟩
    have notCapturing : ¬ p.uart.readyToRcv = 1 := by
      rw [idle.1]
      decide
    unfold rs485Receive
    rw [if_neg notCapturing]
    by_cases start : byte = 0x53
    · rw [if_pos ⟨start, idle.1⟩, if_pos start]
    · rw [if_neg (fun both => start both.1), if_neg start, ← idle.1]
  | inr capturing =>
    right
    unfold rs485Receive
    rw [if_pos capturing.1]
    by_cases inside : p.uart.rcvIndex.toNat < 15
    · left
      rw [dif_pos inside]
      exact ⟨capturing.1, inside, rfl⟩
    · right
      rw [dif_neg inside]
      exact ⟨capturing.1, inside, rfl⟩

theorem phased_receive (p q : Rs485Port) (byte : INT8U) (phased : p.Phased)
    (taken : (rs485Receive p byte).1 = some q) : q.Phased := by
  rcases rs485Receive_cases p byte phased with idle | room | full
  · rw [idle.2.2, Option.some.injEq] at taken
    subst taken
    by_cases start : byte = 0x53
    · rw [if_pos start]
      refine Or.inr ⟨rfl, ?_⟩
      simp only [idle.2.1]
      decide
    · rw [if_neg start]
      exact Or.inl ⟨rfl, idle.2.1⟩
  · obtain ⟨capturing, inside, stored⟩ := room
    rw [stored, Option.some.injEq] at taken
    subst taken
    exact phased_capture p byte inside capturing
  · rw [full.2.2] at taken
    cases taken

/-! ### Runs of bytes on one channel -/

/-- One receive interrupt per byte. -/
def rs485Deliver (p : Rs485Port) (bytes : List INT8U) : Option Rs485Port :=
  bytes.foldlM (fun p byte => (rs485Receive p byte).1) p

theorem rs485Deliver_append (p : Rs485Port) (first second : List INT8U) :
    rs485Deliver p (first ++ second) =
      (rs485Deliver p first).bind fun q => rs485Deliver q second := by
  rw [rs485Deliver, List.foldlM_append]
  rfl

/-- Bytes that do not complete the capture fill the buffer in order. -/
theorem rs485Deliver_inside (bytes : List INT8U) (p : Rs485Port)
    (capturing : p.uart.readyToRcv = 1) (room : p.uart.rcvIndex.toNat + bytes.length ≤ 15)
    (goesOn : ∀ i : Nat, bytes[i]? = some 0x45 → p.uart.rcvIndex.toNat + i < 4) :
    rs485Deliver p bytes =
      some { p with
        uart := { p.uart with
          rcv := fillFrom p.uart.rcv p.uart.rcvIndex.toNat bytes
          rcvIndex := p.uart.rcvIndex + BitVec.ofNat 8 bytes.length } } := by
  induction bytes generalizing p with
  | nil => simp [rs485Deliver, fillFrom]
  | cons byte rest ih =>
    simp only [List.length_cons] at room
    have inside : p.uart.rcvIndex.toNat < 15 := by omega
    have next := rcvIndex_succ inside
    have notEnds : ¬ p.Ends byte := by
      intro ends
      have early := goesOn 0 (by rw [List.getElem?_cons_zero, ends.1])
      have late := ends.2
      omega
    have index : p.uart.rcvIndex + 1 + BitVec.ofNat 8 rest.length =
        p.uart.rcvIndex + BitVec.ofNat 8 (rest.length + 1) := by
      rw [BitVec.ofNat_add, BitVec.add_assoc, BitVec.add_comm 1]
      rfl
    have step : (rs485Receive p byte).1 = some (rs485Capture p byte inside) := by
      rw [rs485Receive, if_pos capturing, dif_pos inside]
    have tail := ih (rs485Capture p byte inside)
    rw [rs485Capture_inside p byte inside notEnds] at step tail
    have stored : p.uart.rcv.set p.uart.rcvIndex.toNat byte =
        p.uart.rcv.setIfInBounds p.uart.rcvIndex.toNat byte := set_eq_setIfInBounds _ _ _ _
    rw [rs485Deliver, List.foldlM_cons, step, Option.bind_eq_bind, Option.bind_some]
    rw [rs485Deliver] at tail
    rw [tail capturing (by simp only [next]; omega) fun i found => by
      have early := goesOn (i + 1) (by rw [List.getElem?_cons_succ, found])
      simp only [next]
      omega]
    simp only [next, index, stored, fillFrom, List.length_cons]

/-- The opening S. -/
theorem rs485Receive_start (p : Rs485Port) (idle : p.uart.readyToRcv = 0) :
    (rs485Receive p 0x53).1 = some { p with uart := { p.uart with readyToRcv := 1 } } := by
  have notCapturing : ¬ p.uart.readyToRcv = 1 := by rw [idle]; decide
  rw [rs485Receive, if_neg notCapturing, if_pos ⟨rfl, idle⟩]

/-- An E that comes as the fifth byte or later. -/
theorem rs485Receive_tail (p : Rs485Port) (capturing : p.uart.readyToRcv = 1)
    (inside : p.uart.rcvIndex.toNat < 15) (fifth : 4 ≤ p.uart.rcvIndex.toNat) :
    (rs485Receive p 0x45).1 =
      some { p with
        uart := { p.uart with
          rcv := p.uart.rcv.setIfInBounds p.uart.rcvIndex.toNat 0x45
          readyToRcv := 0
          rcvIndex := 0 }
        rcvOK := if p.uart.rcv[p.uart.rcvIndex.toNat - 1] = 0x98 then 1 else 0 } := by
  rw [rs485Receive, if_pos capturing, dif_pos inside, rs485Capture_ends p _ inside ⟨rfl, fifth⟩,
    set_eq_setIfInBounds]

/-- A whole capture on an idle channel: an S, four bytes or more that do not end it,
and an E that does. The byte before the E gives the verdict. -/
theorem rs485Deliver_capture (p : Rs485Port) (body : List INT8U) (idle : p.uart.readyToRcv = 0)
    (start : p.uart.rcvIndex = 0) (long : 4 ≤ body.length) (room : body.length < 15)
    (goesOn : ∀ i : Nat, body[i]? = some 0x45 → i < 4) :
    rs485Deliver p (0x53 :: (body ++ [0x45])) =
      some { p with
        uart := { p.uart with
          rcv := fillFrom p.uart.rcv 0 (body ++ [0x45])
          readyToRcv := 0
          rcvIndex := 0 }
        rcvOK := if body.getLast? = some 0x98 then 1 else 0 } := by
  have zero : p.uart.rcvIndex.toNat = 0 := by rw [start]; rfl
  have index : (p.uart.rcvIndex + BitVec.ofNat 8 body.length).toNat = body.length := by
    rw [BitVec.toNat_add, zero, Nat.zero_add, BitVec.toNat_ofNat, Nat.mod_mod]
    exact Nat.mod_eq_of_lt (by omega)
  have filled := rs485Deliver_inside body { p with uart := { p.uart with readyToRcv := 1 } } rfl
    (by simp only [zero]; omega) fun i found => by simp only [zero, Nat.zero_add]; exact goesOn i found
  have ended := rs485Receive_tail
    { p with
      uart := { p.uart with
        rcv := fillFrom p.uart.rcv 0 body
        rcvIndex := p.uart.rcvIndex + BitVec.ofNat 8 body.length
        readyToRcv := 1 } } rfl
    (by simp only [index]; exact room) (by simp only [index]; exact long)
  have verdict : (fillFrom p.uart.rcv 0 body)[body.length - 1] = 0x98 ↔ body.getLast? = some 0x98 := by
    have read := getElem_fillFrom_inside body p.uart.rcv 0 (body.length - 1) (by omega) (by omega)
    simp only [Nat.zero_add] at read
    rw [read, List.getLast?_eq_getElem?, List.getElem?_eq_getElem (by omega), Option.some.injEq]
  have whole : (fillFrom p.uart.rcv 0 body).setIfInBounds body.length 0x45 =
      fillFrom p.uart.rcv 0 (body ++ [0x45]) := by
    rw [fillFrom_append, Nat.zero_add]
    rfl
  simp only [zero] at filled
  simp only [index, whole, verdict] at ended
  rw [rs485Deliver, List.foldlM_cons, rs485Receive_start p idle, Option.bind_eq_bind,
    Option.bind_some, ← rs485Deliver, rs485Deliver_append, filled, Option.bind_some, rs485Deliver,
    List.foldlM_cons, ended]
  rfl

/-- No byte is stored further on than one place per byte. -/
theorem rs485Deliver_beyond {p q : Rs485Port} {bytes : List INT8U} (phased : p.Phased)
    (taken : rs485Deliver p bytes = some q) (c : Nat) (bound : c < 15)
    (beyond : p.uart.rcvIndex.toNat + bytes.length ≤ c) : q.uart.rcv[c] = p.uart.rcv[c] := by
  induction bytes generalizing p with
  | nil =>
    obtain rfl : p = q := Option.some.inj taken
    rfl
  | cons byte rest ih =>
    rw [rs485Deliver, List.foldlM_cons, Option.bind_eq_bind, Option.bind_eq_some_iff] at taken
    obtain ⟨r, first, later⟩ := taken
    simp only [List.length_cons] at beyond
    have next := phased_receive p r byte phased first
    rcases rs485Receive_cases p byte phased with idle | room | full
    · rw [idle.2.2, Option.some.injEq] at first
      subst first
      have tail := ih next later (by simp only; omega)
      exact tail
    · obtain ⟨capturing, inside, stored⟩ := room
      rw [stored, Option.some.injEq] at first
      subst first
      have index := rcvIndex_succ inside
      by_cases ends : p.Ends byte
      · rw [rs485Capture_ends p byte inside ends] at later next
        rw [ih next later (by simp only; have zero : (0 : INT8U).toNat = 0 := rfl; omega),
          Vector.getElem_set_ne _ _ (by omega)]
      · rw [rs485Capture_inside p byte inside ends] at later next
        rw [ih next later (by simp only [index]; omega), Vector.getElem_set_ne _ _ (by omega)]
    · rw [full.2.2] at first
      cases first

/-- The same bytes on one of the four channels. -/
def rs485DeliverOn (ports : Rs485Ports) (n : RS485UartNum) (bytes : List INT8U) : Option Rs485Ports :=
  bytes.foldlM (fun ports byte => (rs485IRQHandlerReceive ports n byte).1) ports

theorem rs485DeliverOn_eq (ports : Rs485Ports) (n : RS485UartNum) (bytes : List INT8U) :
    rs485DeliverOn ports n bytes = (rs485Deliver (ports n) bytes).map (Function.update ports n) := by
  induction bytes generalizing ports with
  | nil =>
    have same : Function.update ports n (ports n) = ports := Function.update_eq_self n ports
    simp only [rs485DeliverOn, rs485Deliver, List.foldlM_nil, Option.pure_def, Option.map_some, same]
  | cons byte rest ih =>
    rw [rs485DeliverOn, List.foldlM_cons, rs485IRQHandlerReceive_eq, rs485Deliver, List.foldlM_cons]
    simp only [onPort, Option.bind_eq_bind]
    cases (rs485Receive (ports n) byte).1 with
    | none => rfl
    | some q =>
      have tail := ih (Function.update ports n q)
      have twice : Function.update (Function.update ports n q) n = Function.update ports n :=
        funext fun r => Function.update_idem q r ports
      rw [rs485DeliverOn, Function.update_self, twice] at tail
      simp only [Option.map_some, Option.bind_some, tail]
      rfl

/-! ### What a fetch does -/

/-- The loop touches index `i` onwards, up to the first index outside `data`. -/
theorem mem_copyData_iff (rcv : Vector INT8U 15) (remaining i : Nat) (data : Vector INT8U 10)
    (start : i ≤ 10) (access : Rs485Access) :
    access ∈ (copyData rcv remaining i data).2 ↔
      ∃ j, i ≤ j ∧ j < i + remaining ∧ j ≤ 10 ∧
        (access = .readRcv (j + 2) ∨ access = .writeData j) := by
  induction remaining generalizing i data with
  | zero =>
    simp only [copyData, List.not_mem_nil, false_iff]
    intro reached
    obtain ⟨j, low, high, -⟩ := reached
    omega
  | succ remaining ih =>
    unfold copyData
    by_cases inside : i + 2 < 15 ∧ i < 10
    · rw [dif_pos inside]
      simp only [List.mem_cons, ih (i + 1) _ (by omega)]
      constructor
      · intro reached
        rcases reached with read | write | ⟨j, low, high, bound, kind⟩
        · exact ⟨i, by omega, by omega, start, Or.inl read⟩
        · exact ⟨i, by omega, by omega, start, Or.inr write⟩
        · exact ⟨j, by omega, by omega, bound, kind⟩
      · intro reached
        obtain ⟨j, low, high, bound, kind⟩ := reached
        by_cases first : j = i
        · subst first
          cases kind with
          | inl read => exact Or.inl read
          | inr write => exact Or.inr (Or.inl write)
        · exact Or.inr (Or.inr ⟨j, by omega, by omega, bound, kind⟩)
    · rw [dif_neg inside]
      have last : i = 10 := by omega
      subst last
      simp only [List.mem_cons, List.not_mem_nil, or_false]
      constructor
      · intro kind
        exact ⟨10, by omega, by omega, by omega, kind⟩
      · intro reached
        obtain ⟨j, low, high, bound, kind⟩ := reached
        obtain rfl : j = 10 := by omega
        exact kind

/-- The loop returns when it stays inside `data`, with the bytes from `Rcv`
in place and the others untouched. -/
theorem copyData_some (rcv : Vector INT8U 15) (remaining i : Nat) (data : Vector INT8U 10)
    (fits : i + remaining ≤ 10) :
    ∃ copied, (copyData rcv remaining i data).1 = some copied ∧
      ∀ j (inside : j < 10),
        copied[j] = if i ≤ j ∧ j < i + remaining then rcv[j + 2] else data[j] := by
  induction remaining generalizing i data with
  | zero =>
    refine ⟨data, rfl, fun j inside => ?_⟩
    rw [if_neg (by omega)]
  | succ remaining ih =>
    have inside : i + 2 < 15 ∧ i < 10 := by omega
    obtain ⟨copied, returned, content⟩ :=
      ih (i + 1) (data.set i rcv[i + 2] inside.2) (by omega)
    refine ⟨copied, ?_, fun j bound => ?_⟩
    · unfold copyData
      rw [dif_pos inside]
      exact returned
    · rw [content j bound]
      by_cases here : j = i
      · subst here
        rw [if_neg (by omega), if_pos (by omega), Vector.getElem_set_self]
      · rw [Vector.getElem_set_ne _ _ (by omega)]
        by_cases later : i + 1 ≤ j ∧ j < i + 1 + remaining
        · rw [if_pos later, if_pos (by omega)]
        · rw [if_neg later, if_neg (by omega)]

/-- Past the end of `data` there is no result. -/
theorem copyData_none (rcv : Vector INT8U 15) (remaining i : Nat) (data : Vector INT8U 10)
    (start : i ≤ 10) (overrun : 10 < i + remaining) : (copyData rcv remaining i data).1 = none := by
  induction remaining generalizing i data with
  | zero => omega
  | succ remaining ih =>
    unfold copyData
    by_cases inside : i + 2 < 15 ∧ i < 10
    · rw [dif_pos inside]
      exact ih (i + 1) _ (by omega) (by omega)
    · rw [dif_neg inside]

/-- A fetch lowers the flag of its channel and changes nothing else. -/
theorem rs485Get_port (p : Rs485Port) (junk found : UserRS485Rcv) (q : Rs485Port)
    (returned : (rs485Get p junk).1 = some (found, q)) : q = { p with rcvOK := 0 } := by
  unfold rs485Get at returned
  by_cases down : p.rcvOK = 0
  · rw [if_pos down] at returned
    simp only [Option.some.injEq, Prod.mk.injEq] at returned
    rw [← returned.2, ← down]
  · rw [if_neg down] at returned
    simp only [Option.map_eq_some_iff, Prod.mk.injEq] at returned
    obtain ⟨data, -, -, same⟩ := returned
    exact same.symm

/-- With the flag down, nothing is fetched and nothing changes. -/
theorem rs485Get_down (p : Rs485Port) (junk : UserRS485Rcv) (down : p.rcvOK = 0) :
    rs485Get p junk = (some (junk, p), []) := if_pos down

/-- With the flag up and a length that fits, the fetch returns the bytes of `Rcv`. -/
theorem rs485Get_up (p : Rs485Port) (junk : UserRS485Rcv) (up : p.rcvOK ≠ 0)
    (room : p.uart.lengthByte.toNat ≤ 10) :
    ∃ found, (rs485Get p junk).1 = some (found, { p with rcvOK := 0 }) ∧
      found.ctrl = p.uart.rcv[0] ∧ found.len = p.uart.lengthByte ∧
      ∀ j (inside : j < 10), j < p.uart.lengthByte.toNat → found.data[j] = p.uart.rcv[j + 2] := by
  obtain ⟨copied, returned, content⟩ :=
    copyData_some p.uart.rcv p.uart.lengthByte.toNat 0 junk.data (by omega)
  refine ⟨⟨p.uart.rcv[0], p.uart.lengthByte, copied⟩, ?_, rfl, rfl, fun j inside within => ?_⟩
  · unfold rs485Get
    simp only [if_neg up, returned, Option.map_some]
  · rw [content j inside, if_pos (by omega)]

/-- A length that does not fit `data` leaves no defined result. -/
theorem rs485Get_overrun (p : Rs485Port) (junk : UserRS485Rcv) (up : p.rcvOK ≠ 0)
    (overrun : 10 < p.uart.lengthByte.toNat) : (rs485Get p junk).1 = none := by
  unfold rs485Get
  simp only [if_neg up, copyData_none p.uart.rcv p.uart.lengthByte.toNat 0 junk.data (by omega)
    (by omega), Option.map_none]

theorem rs485GetStruct_eq (ports : Rs485Ports) (n : RS485UartNum) (junk : UserRS485Rcv) :
    (rs485GetStruct ports n junk).1 =
      (rs485Get (ports n) junk).1.map fun found => (found.1, Function.update ports n found.2) := rfl

end GasSub.Source
