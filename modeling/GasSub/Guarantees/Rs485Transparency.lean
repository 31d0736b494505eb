import GasSub.Source.Rs485Receive

/-!
# Transparency of the RS485 receivers

A frame is an S, a control byte, a length byte, the data, the check byte 98 and an
E. The transmit side ends a frame by its length; the receive side looks for an E
among the bytes and does not use the length byte, so that a data byte E from the
third on ends the frame early, and a frame without data is too short to end at all.
-/
namespace GasSub.Guarantees.Rs485Transparency
open GasSub.Library.BufferFill GasSub.Source

/-- What stands between the S and the closing E. -/
def frameBody (ctrl : INT8U) (data : List INT8U) : List INT8U :=
  (ctrl :: BitVec.ofNat 8 data.length :: data) ++ [0x98]

def frame (ctrl : INT8U) (data : List INT8U) : List INT8U :=
  (0x53 :: frameBody ctrl data) ++ [0x45]

/-- The channel takes the frame: no byte but the last touches its flag, the last one
raises it, and the fetch that follows returns what was sent. -/
structure Transparent (ports : Rs485Ports) (n : RS485UartNum) (ctrl : INT8U) (data : List INT8U) :
    Prop where
  quiet : ∀ part, part <+: (frame ctrl data).dropLast →
    ∃ after, rs485DeliverOn ports n part = some after ∧ (after n).rcvOK = (ports n).rcvOK
  accepted : ∃ after, rs485DeliverOn ports n (frame ctrl data) = some after ∧ (after n).rcvOK = 1 ∧
    ∀ junk, ∃ found fetched, (rs485GetStruct after n junk).1 = some (found, fetched) ∧
      found.ctrl = ctrl ∧ found.len = BitVec.ofNat 8 data.length ∧
      found.data.toList.take data.length = data

/-- An idle channel. -/
def Idle (p : Rs485Port) : Prop := p.uart.readyToRcv = 0 ∧ p.uart.rcvIndex = 0

/-- The same of one channel by itself. -/
structure PortTransparent (p : Rs485Port) (ctrl : INT8U) (data : List INT8U) : Prop where
  quiet : ∀ part, part <+: (frame ctrl data).dropLast →
    ∃ q, rs485Deliver p part = some q ∧ q.rcvOK = p.rcvOK
  accepted : ∃ q, rs485Deliver p (frame ctrl data) = some q ∧ q.rcvOK = 1 ∧
    ∀ junk, ∃ found r, (rs485Get q junk).1 = some (found, r) ∧
      found.ctrl = ctrl ∧ found.len = BitVec.ofNat 8 data.length ∧
      found.data.toList.take data.length = data

theorem transparent_iff (ports : Rs485Ports) (n : RS485UartNum) (ctrl : INT8U)
    (data : List INT8U) :
    Transparent ports n ctrl data ↔ PortTransparent (ports n) ctrl data := by
  constructor
  · intro channel
    obtain ⟨after, delivered, flag, fetch⟩ := channel.accepted
    refine ⟨fun part early => ?_, after n, ?_, flag, fun junk => ?_⟩
    · obtain ⟨later, taken, same⟩ := channel.quiet part early
      rw [rs485DeliverOn_eq, Option.map_eq_some_iff] at taken
      obtain ⟨q, one, rfl⟩ := taken
      rw [Function.update_self] at same
      exact ⟨q, one, same⟩
    · rw [rs485DeliverOn_eq, Option.map_eq_some_iff] at delivered
      obtain ⟨q, one, rfl⟩ := delivered
      rw [Function.update_self]
      exact one
    · obtain ⟨found, fetched, returned, content⟩ := fetch junk
      rw [rs485GetStruct_eq, Option.map_eq_some_iff] at returned
      obtain ⟨⟨found', r⟩, one, both⟩ := returned
      obtain ⟨rfl, -⟩ := Prod.mk.inj both
      exact ⟨found', r, one, content⟩
  · intro port
    obtain ⟨q, delivered, flag, fetch⟩ := port.accepted
    refine ⟨fun part early => ?_, Function.update ports n q, ?_, ?_, fun junk => ?_⟩
    · obtain ⟨r, taken, same⟩ := port.quiet part early
      refine ⟨Function.update ports n r, ?_, ?_⟩
      · rw [rs485DeliverOn_eq, taken]
        rfl
      · rw [Function.update_self, same]
    · rw [rs485DeliverOn_eq, delivered]
      rfl
    · rw [Function.update_self, flag]
    · obtain ⟨found, r, returned, content⟩ := fetch junk
      refine ⟨found, Function.update (Function.update ports n q) n r, ?_, content⟩
      rw [rs485GetStruct_eq, Function.update_self, returned]
      rfl

/-! ### Frames that get through -/

theorem frameBody_length (ctrl : INT8U) (data : List INT8U) :
    (frameBody ctrl data).length = data.length + 3 := by
  simp [frameBody]

/-- Two bytes and data without an E from its third byte on do not end a capture. -/
theorem goesOn_of_clean (b0 b1 : INT8U) (data : List INT8U) (clean : 0x45 ∉ data.drop 2) (i : Nat)
    (found : (b0 :: b1 :: data)[i]? = some 0x45) : i < 4 := by
  by_contra late
  obtain ⟨k, rfl⟩ := Nat.exists_eq_add_of_le (Nat.not_lt.mp late)
  have index : 4 + k = (2 + k) + 1 + 1 := by omega
  rw [index, List.getElem?_cons_succ, List.getElem?_cons_succ, ← List.getElem?_drop] at found
  exact clean (List.mem_of_getElem? found)

theorem frameBody_goesOn (ctrl : INT8U) (data : List INT8U) (clean : 0x45 ∉ data.drop 2) (i : Nat)
    (found : (frameBody ctrl data)[i]? = some 0x45) : i < 4 := by
  refine goesOn_of_clean ctrl (BitVec.ofNat 8 data.length) (data ++ [0x98]) (fun member => ?_) i
    (by rw [← found, frameBody]; rfl)
  rw [List.drop_append, List.mem_append] at member
  cases member with
  | inl inData => exact clean inData
  | inr inCheck =>
    have check := List.mem_singleton.mp (List.mem_of_mem_drop inCheck)
    exact absurd check (by decide)

/-- Bytes that do not end the capture leave the flag alone. -/
theorem deliver_part (p : Rs485Port) (body part : List INT8U) (idle : Idle p)
    (room : body.length ≤ 15) (goesOn : ∀ i : Nat, body[i]? = some 0x45 → i < 4)
    (early : part <+: 0x53 :: body) :
    ∃ q, rs485Deliver p part = some q ∧ q.rcvOK = p.rcvOK := by
  rcases List.prefix_cons_iff.mp early with rfl | ⟨rest, rfl, short⟩
  · exact ⟨p, rfl, rfl⟩
  · have zero : p.uart.rcvIndex.toNat = 0 := by rw [idle.2]; rfl
    have fits := short.length_le
    have stays : ∀ i : Nat, rest[i]? = some 0x45 → i < 4 := by
      intro i found
      have bound := (List.getElem?_eq_some_iff.mp found).1
      obtain ⟨more, rfl⟩ := short
      exact goesOn i (by rw [List.getElem?_append_left bound, found])
    have filled := rs485Deliver_inside rest { p with uart := { p.uart with readyToRcv := 1 } } rfl
      (by simp only [zero]; omega) fun i found => by
        simp only [zero, Nat.zero_add]
        exact stays i found
    rw [rs485Deliver, List.foldlM_cons, rs485Receive_start p idle.1, Option.bind_eq_bind,
      Option.bind_some, ← rs485Deliver, filled]
    exact ⟨_, rfl, rfl⟩

/-- A fetch from a buffer filled with a frame, its length byte being true. -/
theorem fetch_filled (q : Rs485Port) (before : Vector INT8U 15) (ctrl : INT8U)
    (data tail : List INT8U) (up : q.rcvOK ≠ 0) (short : data.length ≤ 10)
    (filled : q.uart.rcv =
      fillFrom before 0 (ctrl :: BitVec.ofNat 8 data.length :: (data ++ tail)))
    (junk : UserRS485Rcv) :
    ∃ found r, (rs485Get q junk).1 = some (found, r) ∧ found.ctrl = ctrl ∧
      found.len = BitVec.ofNat 8 data.length ∧ found.data.toList.take data.length = data := by
  have cell : ∀ k (bound : k < 15) (byte : INT8U),
      (ctrl :: BitVec.ofNat 8 data.length :: (data ++ tail))[k]? = some byte → q.uart.rcv[k] = byte := by
    intro k bound byte stored
    simp only [filled, getElem_fillFrom, Nat.zero_le, if_true, Nat.sub_zero, stored, Option.getD_some]
  have length : q.uart.lengthByte = BitVec.ofNat 8 data.length := cell 1 (by decide) _ rfl
  have toNat : q.uart.lengthByte.toNat = data.length := by
    rw [length, BitVec.toNat_ofNat]
    exact Nat.mod_eq_of_lt (by omega)
  obtain ⟨found, returned, ctrl_eq, len_eq, content⟩ := rs485Get_up q junk up (by omega)
  refine ⟨found, _, returned, ?_, by rw [len_eq, length], ?_⟩
  · rw [ctrl_eq]
    exact cell 0 (by decide) _ rfl
  · apply List.ext_getElem
    · rw [List.length_take, Vector.length_toList]
      omega
    · intro j _ inside
      rw [List.getElem_take, Vector.getElem_toList, content j (by omega) (by omega)]
      apply cell
      rw [List.getElem?_cons_succ, List.getElem?_cons_succ, List.getElem?_append_left inside,
        List.getElem?_eq_getElem inside]

theorem portTransparent_of_clean (p : Rs485Port) (ctrl : INT8U) (data : List INT8U) (idle : Idle p)
    (short : data.length ≤ 10) (nonempty : data ≠ []) (clean : 0x45 ∉ data.drop 2) :
    PortTransparent p ctrl data := by
  have goesOn := frameBody_goesOn ctrl data clean
  have length := frameBody_length ctrl data
  have some_data : 0 < data.length := List.length_pos_iff.mpr nonempty
  have delivered := rs485Deliver_capture p (frameBody ctrl data) idle.1 idle.2 (by omega) (by omega)
    goesOn
  have check : (frameBody ctrl data).getLast? = some 0x98 := List.getLast?_concat
  rw [if_pos check] at delivered
  refine ⟨fun part early => ?_, _, delivered, rfl, fun junk => ?_⟩
  · have front : (frame ctrl data).dropLast = 0x53 :: frameBody ctrl data :=
      List.dropLast_concat
    rw [front] at early
    exact deliver_part p _ part idle (by omega) goesOn early
  · exact fetch_filled _ p.uart.rcv ctrl data [0x98, 0x45]
      (by decide : (1 : INT8U) ≠ 0) short
      (by simp [frameBody]) junk

/-! ### Frames that do not -/

/-- An idle channel waits for an S. -/
theorem rs485Deliver_idle (p : Rs485Port) (bytes : List INT8U) (idle : p.uart.readyToRcv = 0)
    (quiet : 0x53 ∉ bytes) : rs485Deliver p bytes = some p := by
  have notCapturing : ¬ p.uart.readyToRcv = 1 := by rw [idle]; decide
  induction bytes with
  | nil => rfl
  | cons byte rest ih =>
    simp only [List.mem_cons, not_or] at quiet
    have here : (rs485Receive p byte).1 = some p := by
      rw [rs485Receive, if_neg notCapturing, if_neg fun both => quiet.1 both.1.symm]
    rw [rs485Deliver, List.foldlM_cons, here, Option.bind_eq_bind, Option.bind_some, ← rs485Deliver]
    exact ih quiet.2

/-- What a fetch returned stands in the buffer, length byte and data. -/
theorem fetched_cell (q r : Rs485Port) (junk found : UserRS485Rcv) (up : q.rcvOK ≠ 0)
    (returned : (rs485Get q junk).1 = some (found, r)) (j : Nat) (inside : j < found.len.toNat) :
    ∃ room : j + 2 < 15, found.data.toList[j]? = some q.uart.rcv[j + 2] := by
  by_cases room : q.uart.lengthByte.toNat ≤ 10
  · obtain ⟨found', returned', -, len_eq, content⟩ := rs485Get_up q junk up room
    rw [returned] at returned'
    obtain rfl := (Prod.mk.inj (Option.some.inj returned')).1
    rw [len_eq] at inside
    refine ⟨by omega, ?_⟩
    have bound : j < found.data.toList.length := by
      rw [Vector.length_toList]
      omega
    rw [← content j (by omega) inside, List.getElem?_eq_getElem bound, Vector.getElem_toList]
  · rw [rs485Get_overrun q junk up (by omega)] at returned
    cases returned

/-- Without data the E comes as the fourth byte, too early to end the capture. -/
theorem not_portTransparent_empty (p : Rs485Port) (ctrl : INT8U) (idle : Idle p) (down : p.rcvOK = 0) :
    ¬ PortTransparent p ctrl [] := by
  intro port
  obtain ⟨q, delivered, up, -⟩ := port.accepted
  have goesOn : ∀ i : Nat, [ctrl, 0, 0x98, 0x45][i]? = some (0x45 : INT8U) → i < 4 := fun i found =>
    (List.getElem?_eq_some_iff.mp found).1
  obtain ⟨q', taken, flag⟩ :=
    deliver_part p [ctrl, 0, 0x98, 0x45] (frame ctrl []) idle
      (Nat.le_add_left 4 11) goesOn List.prefix_rfl
  obtain rfl : q' = q := Option.some.inj (taken.symm.trans delivered)
  rw [flag, down] at up
  exact absurd up (by decide)

/-- Where a data byte E from the third on stands, the capture ends there. The cell
meant for the last data byte is then either not written any more, or the rest of the
frame holds no S. -/
theorem not_portTransparent_early (p : Rs485Port) (ctrl d0 d1 : INT8U) (clean rest : List INT8U)
    (idle : Idle p) (down : p.rcvOK = 0) (short : clean.length + rest.length ≤ 7)
    (first : 0x45 ∉ clean)
    (stale : ∀ (k : Nat) (bound : k < 15), rest.getLast? ≠ some p.uart.rcv[k]) :
    ¬ PortTransparent p ctrl (d0 :: d1 :: (clean ++ 0x45 :: rest)) := by
  intro port
  let len := BitVec.ofNat 8 (d0 :: d1 :: (clean ++ 0x45 :: rest)).length
  let body := ctrl :: len :: d0 :: d1 :: clean
  have length : body.length = clean.length + 4 := rfl
  have parts : frame ctrl (d0 :: d1 :: (clean ++ 0x45 :: rest)) =
      (0x53 :: (body ++ [0x45])) ++ (rest ++ [0x98]) ++ [0x45] := by
    simp [frame, frameBody, body, len]
  -- the capture that the data byte ends
  have early := rs485Deliver_capture p body idle.1 idle.2 (by omega) (by omega)
    (goesOn_of_clean ctrl len (d0 :: d1 :: clean) first)
  obtain ⟨q, delivered, up, fetch⟩ := port.accepted
  have quiet := port.quiet (0x53 :: (body ++ [0x45]))
  rw [parts, List.dropLast_concat] at quiet
  obtain ⟨r, taken, same⟩ := quiet (List.prefix_append _ _)
  rw [parts, List.append_assoc, rs485Deliver_append, taken, Option.bind_some] at delivered
  have ended := Option.some.inj (taken.symm.trans early)
  have flag : r.rcvOK = 0 := same.trans down
  have idle_r : Idle r := by
    rw [ended]
    exact ⟨rfl, rfl⟩
  rcases List.eq_nil_or_concat rest with rfl | ⟨front, last, concat⟩
  · have silent := rs485Deliver_idle r [0x98, 0x45] idle_r.1 (by decide)
    obtain rfl : r = q := Option.some.inj (silent.symm.trans delivered)
    rw [flag] at up
    exact absurd up (by decide)
  · rw [List.concat_eq_append] at concat
    subst concat
    rw [List.length_append, List.length_singleton] at short
    have count : (d0 :: d1 :: (clean ++ 0x45 :: (front ++ [last]))).length =
        clean.length + front.length + 4 := by
      simp only [List.length_cons, List.length_append, List.length_nil]
      omega
    have far : clean.length + front.length + 5 < 15 := by omega
    -- the cell of the last data byte
    have unwritten : q.uart.rcv[clean.length + front.length + 5] =
        p.uart.rcv[clean.length + front.length + 5] := by
      have zero : r.uart.rcvIndex.toNat = 0 := by rw [idle_r.2]; rfl
      rw [rs485Deliver_beyond (Or.inl idle_r) delivered _ far
        (by simp only [List.length_append, List.length_singleton]; omega)]
      simp only [ended]
      exact getElem_fillFrom_outside _ _ _ _ far
        (Or.inr (by rw [List.length_append, List.length_singleton]; omega))
    obtain ⟨found, r', returned, -, len_eq, data_eq⟩ := fetch ⟨0, 0, Vector.replicate 10 0⟩
    have toNat : found.len.toNat = clean.length + front.length + 4 := by
      rw [len_eq, count, BitVec.toNat_ofNat]
      exact Nat.mod_eq_of_lt (by omega)
    obtain ⟨_, cell⟩ := fetched_cell q r' _ found (by rw [up]; decide) returned
      (clean.length + front.length + 3) (by omega)
    have sent : found.data.toList[clean.length + front.length + 3]? = some last := by
      have inside : clean.length + front.length + 3 < clean.length + front.length + 4 := by omega
      have whole : d0 :: d1 :: (clean ++ 0x45 :: (front ++ [last])) =
          (d0 :: d1 :: (clean ++ 0x45 :: front)) ++ [last] := by
        simp only [List.cons_append, List.append_assoc]
      have place : (d0 :: d1 :: (clean ++ 0x45 :: front)).length =
          clean.length + front.length + 3 := by
        simp only [List.length_cons, List.length_append]
        omega
      rw [← List.getElem?_take_of_lt inside, ← count, data_eq, whole, ← place,
        List.getElem?_concat_length]
    have same_cell := Option.some.inj (sent.symm.trans cell)
    apply stale (clean.length + front.length + 5) far
    rw [List.getLast?_concat, same_cell]
    exact congrArg some unwritten

/-- A channel carries a frame of at most ten data bytes, whatever it held before,
exactly when there is a data byte and no data byte from the third on is an E. -/
theorem transparent_all_iff (n : RS485UartNum) (ctrl : INT8U) (data : List INT8U)
    (short : data.length ≤ 10) :
    (∀ ports : Rs485Ports, Idle (ports n) → Transparent ports n ctrl data) ↔
      data ≠ [] ∧ 0x45 ∉ data.drop 2 := by
  constructor
  · intro always
    -- an idle channel whose buffer holds no byte equal to the last of the data
    let fresh : INT8U := (data.getLast?.getD 0) + 1
    let p : Rs485Port :=
      { uart := ⟨Vector.replicate 10 0, Vector.replicate 15 fresh, 0, 0, 1, 0, 0⟩, rcvOK := 0 }
    have port := (transparent_iff _ n ctrl data).mp (always (fun _ => p) ⟨rfl, rfl⟩)
    refine ⟨fun empty => ?_, fun tail => ?_⟩
    · subst empty
      exact not_portTransparent_empty p ctrl ⟨rfl, rfl⟩ rfl port
    · obtain ⟨clean, rest, split, first⟩ := List.eq_append_cons_of_mem tail
      rcases data with _ | ⟨d0, _ | ⟨d1, more⟩⟩
      · cases tail
      · cases tail
      · obtain rfl : more = clean ++ 0x45 :: rest := split
        simp only [List.length_cons, List.length_append] at short
        refine not_portTransparent_early p ctrl d0 d1 clean rest ⟨rfl, rfl⟩ rfl (by omega) first ?_ port
        intro k bound last
        have cell : p.uart.rcv[k] = fresh := Vector.getElem_replicate bound
        have data_last : (d0 :: d1 :: (clean ++ 0x45 :: rest)).getLast? = some fresh := by
          have whole : d0 :: d1 :: (clean ++ 0x45 :: rest) =
              (d0 :: d1 :: (clean ++ [0x45])) ++ rest := by
            simp only [List.cons_append, List.append_assoc, List.nil_append]
          rw [whole, List.getLast?_append, last, cell]
          rfl
        have next : fresh = fresh + 1 := by
          have unfolded : fresh = ((d0 :: d1 :: (clean ++ 0x45 :: rest)).getLast?.getD 0) + 1 := rfl
          rw [data_last] at unfolded
          exact unfolded
        exact absurd next (by simp)
  · intro fine ports idle
    exact (transparent_iff ports n ctrl data).mpr
      (portTransparent_of_clean (ports n) ctrl data idle short fine.1 fine.2)

/-- Data that looks like the markers: two E, an S and a check byte. -/
theorem transparent_all_iff_markers :
    Transparent (fun _ => ⟨⟨Vector.replicate 10 0, Vector.replicate 15 0, 0, 0, 1, 0, 0⟩, 0⟩) .uart3
      0x45 [0x45, 0x45, 0x53, 0x98] :=
  (transparent_all_iff .uart3 0x45 [0x45, 0x45, 0x53, 0x98] (by decide)).mpr (by decide) _ ⟨rfl, rfl⟩

/-- A third data byte E, on a channel as `LPC_Uart_Init` leaves it. -/
theorem not_transparent_thirdE :
    let p : Rs485Port := ⟨⟨Vector.replicate 10 0, Vector.replicate 15 0, 0, 0, 1, 0, 0⟩, 0⟩
    Idle p ∧ ¬ Transparent (fun _ => p) .uart0 0x01 [0x0A, 0x0B, 0x45] := by
  intro p
  refine ⟨⟨rfl, rfl⟩, fun channel => ?_⟩
  exact not_portTransparent_early p 0x01 0x0A 0x0B [] [] ⟨rfl, rfl⟩ rfl (by decide) (by decide)
    (fun _ _ last => by cases last) ((transparent_iff _ _ _ _).mp channel)

end GasSub.Guarantees.Rs485Transparency
