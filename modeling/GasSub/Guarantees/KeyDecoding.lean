import GasSub.Library.ShiftRegister
import GasSub.Source.UserKey

/-!
# Decoding a frame of the remote control

`keyvalue` is a register that is compared with the nine codes after every edge. A start
interval does not clear it, so bits received before can complete a code in mid-frame.
-/
namespace GasSub.Guarantees.KeyDecoding
open GasSub.Library GasSub.Library.ShiftRegister GasSub.Source

/-- The cases of the switch. -/
def keyCodes : List INT32U := repeatedKeys ++ debouncedKeys

/-- The states of the firmware after power-on. -/
def Reachable (s : KeySystem) : Prop :=
  ∃ events : List KeyEvent, events.foldlM KeySystem.step (KeySystem.start keyInit) = some s

/-- What happens before the first edge of a frame, and before each of its bits. -/
structure Frame where
  start : List KeyEvent
  bits : Nat → List KeyEvent

/-- The frame as far as its first `n` bits. -/
def Frame.events (frame : Frame) (n : Nat) : List KeyEvent :=
  frame.start ++ .eint0 :: (List.range n).flatMap fun i => frame.bits i ++ [.eint0]

theorem Frame.events_succ (frame : Frame) (n : Nat) :
    frame.events (n + 1) = frame.events n ++ (frame.bits n ++ [.eint0]) := by
  simp [Frame.events, List.range_succ]

/-- The ticks that the decoder takes for this bit. -/
def BitTicks (bit : Bool) (ticks : Nat) : Prop :=
  if bit then 19 ≤ ticks ∧ ticks ≤ 26 else 6 ≤ ticks ∧ ticks ≤ 15

instance (bit : Bool) (ticks : Nat) : Decidable (BitTicks bit ticks) :=
  inferInstanceAs (Decidable (if bit = true then _ else _))

/-- A start interval and the bits of `code`, most significant first. The task runs
whenever it likes. -/
structure Frame.Encodes (frame : Frame) (s : KeySystem) (code : INT32U) : Prop where
  start_quiet : KeyEvent.eint0 ∉ frame.start
  start_ticks : 125 ≤ s.decoder.times.toNat + frame.start.count .timer2 ∧
    s.decoder.times.toNat + frame.start.count .timer2 ≤ 145
  noTimeout : s.decoder.validtime.toNat + frame.start.count .timer2 < 2100
  bits_quiet : ∀ i < 32, KeyEvent.eint0 ∉ frame.bits i
  bits_ticks : ∀ i < 32, BitTicks (code.getLsbD (31 - i)) ((frame.bits i).count .timer2)

/-- The codes posted up to now, after these events. -/
def postedAfter (s : KeySystem) (events : List KeyEvent) : Option (List INT32U) :=
  (events.foldlM KeySystem.step s).map fun t => t.queue.posted

/-- The frame makes the interrupt post its code at the last bit, and nothing before. -/
def Decodes (s : KeySystem) (frame : Frame) (code : INT32U) : Prop :=
  postedAfter s (frame.events 31) = some s.queue.posted ∧
    postedAfter s (frame.events 32) = some (s.queue.posted ++ [code])

instance (s : KeySystem) (frame : Frame) (code : INT32U) : Decidable (Decodes s frame code) :=
  inferInstanceAs (Decidable (_ ∧ _))

/-! ### One edge -/

theorem keySwitch_keyvalue (d : KeyDecoder) : (keySwitch d).keyvalue = clearIn keyCodes d.keyvalue := by
  unfold keySwitch clearIn keyCodes keyPosted
  split_ifs <;> simp_all

theorem eint0_keyvalue (d : KeyDecoder) :
    (eint0IRQHandler d).1.keyvalue = clearIn keyCodes (keyInterval d).keyvalue :=
  keySwitch_keyvalue (keyInterval d)

theorem eint0_times (d : KeyDecoder) : (eint0IRQHandler d).1.times = 0 := by
  simp only [eint0IRQHandler, keySwitch, keyInterval]
  split_ifs <;> rfl

theorem eint0_validtime (d : KeyDecoder) :
    (eint0IRQHandler d).1.validtime = (keyInterval d).validtime ∨
      (eint0IRQHandler d).1.validtime = 0 := by
  simp only [eint0IRQHandler, keySwitch]
  split_ifs <;> simp

/-- A code is posted only where the register is cleared. -/
theorem keyPosted_code {d : KeyDecoder} (posted : keyPosted d = true) : d.keyvalue ∈ keyCodes := by
  simp only [keyPosted, decide_eq_true_eq] at posted
  rcases posted with again | ⟨once, -⟩
  · exact List.mem_append_left _ again
  · exact List.mem_append_right _ once

/-- An interrupt changes the decoder, and posts the register where it is a key. -/
theorem eint0_step (s : KeySystem) :
    ∃ t, s.step .eint0 = some t ∧ t.decoder = (eint0IRQHandler s.decoder).1 ∧
      t.queue.posted = s.queue.posted ++
        if keyPosted (keyInterval s.decoder) then [(keyInterval s.decoder).keyvalue] else [] := by
  have saved := eint0IRQHandler_saved s.decoder
  cases posted : keyPosted (keyInterval s.decoder) with
  | true =>
    rw [posted, if_pos rfl] at saved
    refine ⟨_, by simp only [KeySystem.step, eint0IRQHandler, posted, if_true]; rfl, rfl, ?_⟩
    rw [PostBox.post_posted, if_pos rfl, ← saved]
    rfl
  | false =>
    refine ⟨_, by simp only [KeySystem.step, eint0IRQHandler, posted]; rfl, rfl, ?_⟩
    exact (List.append_nil _).symm

/-- The interval of a bit shifts it in. -/
theorem keyInterval_bit {d : KeyDecoder} {bit : Bool} (ticks : BitTicks bit d.times.toNat) :
    (keyInterval d).keyvalue = shiftIn d.keyvalue bit ∧
      (keyInterval d).validtime = d.validtime := by
  have notLong : ¬ 300 < d.times := by
    rw [BitVec.lt_def]
    unfold BitTicks at ticks
    split at ticks <;> simp <;> omega
  cases bit with
  | false =>
    have zero : 6 ≤ d.times ∧ d.times ≤ 15 := ticks
    simp only [keyInterval, if_neg notLong, if_pos zero]
    exact ⟨rfl, trivial⟩
  | true =>
    have bounds : 19 ≤ d.times.toNat ∧ d.times.toNat ≤ 26 := ticks
    have notZero : ¬ (6 ≤ d.times ∧ d.times ≤ 15) := by
      simp [BitVec.le_def]
      omega
    have one : 18 < d.times ∧ d.times ≤ 26 := by
      simp [BitVec.le_def, BitVec.lt_def]
      omega
    simp only [keyInterval, if_neg notLong, if_neg notZero, if_pos one]
    exact ⟨rfl, trivial⟩

/-- A start interval keeps the register as it is. -/
theorem keyInterval_start {d : KeyDecoder}
    (ticks : 125 ≤ d.times.toNat ∧ d.times.toNat ≤ 145) :
    (keyInterval d).keyvalue = d.keyvalue ∧ (keyInterval d).validtime = 0 := by
  simp only [keyInterval]
  split_ifs <;> simp_all [BitVec.le_def, BitVec.lt_def] <;> omega

/-! ### Between two edges -/

/-- What a time without edges leaves. -/
structure Waited (s t : KeySystem) (ticks : Nat) : Prop where
  times : t.decoder.times.toNat = s.decoder.times.toNat + ticks
  validtime : t.decoder.validtime.toNat = s.decoder.validtime.toNat + ticks
  keyvalue : t.decoder.keyvalue = s.decoder.keyvalue
  posted : t.queue.posted = s.queue.posted

theorem Waited.trans {s t u : KeySystem} {m n : Nat} (first : Waited s t m)
    (second : Waited t u n) : Waited s u (m + n) where
  times := by rw [second.times, first.times, Nat.add_assoc]
  validtime := by rw [second.validtime, first.validtime, Nat.add_assoc]
  keyvalue := second.keyvalue.trans first.keyvalue
  posted := second.posted.trans first.posted

theorem waited_timer2 {s : KeySystem} (times : s.decoder.times.toNat ≤ 1000)
    (validtime : s.decoder.validtime.toNat + 1 < 2100) :
    Waited s { s with decoder := timer2IRQHandler s.decoder } 1 := by
  have counts : ∀ word : INT32U, word.toNat ≤ 2100 → (word + 1).toNat = word.toNat + 1 := by
    intro word small
    rw [BitVec.toNat_add]
    exact Nat.mod_eq_of_lt (by simp; omega)
  have young : ¬ 2100 ≤ s.decoder.validtime + 1 := by
    rw [BitVec.le_def, counts _ (by omega)]
    exact Nat.not_le.mpr validtime
  have running : s.decoder.times ≤ 1000 := times
  simp only [timer2IRQHandler, if_pos running, if_neg young]
  exact ⟨counts _ (by omega), counts _ (by omega), rfl, rfl⟩

theorem waited_task (s : KeySystem) : Waited s (taskKey s) 0 := by
  unfold taskKey
  split
  · exact ⟨rfl, rfl, rfl, rfl⟩
  · split
    · exact ⟨rfl, rfl, rfl, PostBox.copy_posted _ _⟩
    · exact ⟨rfl, rfl, rfl, PostBox.pend_posted _⟩

/-- The timer counts, and whatever the task does in between does not matter. -/
theorem waited_run {s : KeySystem} {events : List KeyEvent} (quiet : KeyEvent.eint0 ∉ events)
    (times : s.decoder.times.toNat + events.count .timer2 ≤ 1000)
    (validtime : s.decoder.validtime.toNat + events.count .timer2 < 2100) :
    ∃ t, events.foldlM KeySystem.step s = some t ∧ Waited s t (events.count .timer2) := by
  induction events generalizing s with
  | nil => exact ⟨s, rfl, rfl, rfl, rfl, rfl⟩
  | cons event rest ih =>
    rw [List.mem_cons, not_or] at quiet
    obtain ⟨apart, later⟩ := quiet
    cases event with
    | eint0 => exact absurd rfl apart
    | timer2 =>
      rw [List.count_cons_self] at times validtime ⊢
      have tick : Waited s { s with decoder := timer2IRQHandler s.decoder } 1 :=
        waited_timer2 (by omega) (by omega)
      obtain ⟨t, taken, waited⟩ := ih later (by rw [tick.times]; omega) (by rw [tick.validtime]; omega)
      refine ⟨t, taken, ?_⟩
      rw [Nat.add_comm]
      exact tick.trans waited
    | task =>
      rw [List.count_cons_of_ne (by decide)] at times validtime ⊢
      have turn := waited_task s
      obtain ⟨t, taken, waited⟩ := ih later (by rw [turn.times]; omega) (by rw [turn.validtime]; omega)
      refine ⟨t, taken, ?_⟩
      rw [← Nat.zero_add (rest.count _)]
      exact turn.trans waited

/-! ### A frame -/

theorem timer2_keyvalue (d : KeyDecoder) :
    (timer2IRQHandler d).keyvalue = d.keyvalue ∨ (timer2IRQHandler d).keyvalue = 0 := by
  simp only [timer2IRQHandler]
  split_ifs <;> simp

/-- After every handler, the register holds no code. -/
theorem step_notCode (s : KeySystem) (event : KeyEvent) (t : KeySystem)
    (apart : s.decoder.keyvalue ∉ keyCodes) (taken : s.step event = some t) :
    t.decoder.keyvalue ∉ keyCodes := by
  cases event with
  | eint0 =>
    obtain ⟨u, other, decoder, -⟩ := eint0_step s
    obtain rfl : t = u := Option.some.inj (taken.symm.trans other)
    rw [decoder, eint0_keyvalue]
    exact clearIn_notMem (by decide) _
  | timer2 =>
    obtain rfl := Option.some.inj taken
    rcases timer2_keyvalue s.decoder with kept | cleared
    · exact kept.symm ▸ apart
    · exact cleared.symm ▸ show (0 : INT32U) ∉ keyCodes by decide
  | task =>
    obtain rfl := Option.some.inj taken
    rw [(waited_task s).keyvalue]
    exact apart

theorem notCode_of_reachable {s : KeySystem} (reachable : Reachable s) :
    s.decoder.keyvalue ∉ keyCodes := by
  obtain ⟨events, taken⟩ := reachable
  have throughout : Run.Throughout KeySystem.step (fun t => t.decoder.keyvalue ∉ keyCodes)
      (KeySystem.start keyInit) events :=
    Run.throughout_of_invariant step_notCode (fun _ apart => apart) (by decide)
  exact Run.throughout_last (P := fun t => t.decoder.keyvalue ∉ keyCodes) throughout taken

/-- The decoder after the first `n` bits of a frame that `s` receives. -/
structure InFrame (s : KeySystem) (code : INT32U) (n : Nat) (t : KeySystem) : Prop where
  times : t.decoder.times = 0
  validtime : t.decoder.validtime.toNat ≤ 26 * n
  keyvalue : t.decoder.keyvalue = received keyCodes s.decoder.keyvalue code n
  posted : Clean keyCodes s.decoder.keyvalue code n → t.queue.posted = s.queue.posted

/-- The start interval does nothing to the register, whatever it holds. -/
theorem start_run {s : KeySystem} {frame : Frame} {code : INT32U}
    (apart : s.decoder.keyvalue ∉ keyCodes) (encodes : frame.Encodes s code) :
    ∃ t, (frame.events 0).foldlM KeySystem.step s = some t ∧ InFrame s code 0 t := by
  obtain ⟨t, waits, waited⟩ := waited_run encodes.start_quiet
    (by have := encodes.start_ticks; omega) encodes.noTimeout
  obtain ⟨u, edge, decoder, posted⟩ := eint0_step t
  have interval := keyInterval_start (d := t.decoder) (by rw [waited.times]; exact encodes.start_ticks)
  have register : (keyInterval t.decoder).keyvalue = s.decoder.keyvalue :=
    interval.1.trans waited.keyvalue
  have silent : keyPosted (keyInterval t.decoder) ≠ true := by
    intro complete
    have code := keyPosted_code complete
    rw [register] at code
    exact apart code
  refine ⟨u, ?_, ?_, ?_, ?_, fun _ => ?_⟩
  · simp only [Frame.events, List.foldlM_append, waits, Option.bind_eq_bind, Option.bind_some]
    simp [edge]
  · rw [decoder, eint0_times]
  · rw [decoder]
    rcases eint0_validtime t.decoder with same | zero
    · simp [same, interval.2]
    · simp [zero]
  · rw [decoder, eint0_keyvalue, register, clearIn_of_notMem apart]
    rfl
  · rw [posted, if_neg silent, List.append_nil, waited.posted]

/-- One bit has been received, and has made `register` of the register. -/
structure BitReceived (t u : KeySystem) (register : INT32U) : Prop where
  times : u.decoder.times = 0
  validtime : u.decoder.validtime.toNat ≤ t.decoder.validtime.toNat + 26
  keyvalue : u.decoder.keyvalue = clearIn keyCodes register
  posted : ∃ d : KeyDecoder, d.keyvalue = register ∧
    u.queue.posted = t.queue.posted ++ if keyPosted d then [register] else []

theorem bit_run {t : KeySystem} {interval : List KeyEvent} {bit : Bool}
    (quiet : KeyEvent.eint0 ∉ interval) (ticks : BitTicks bit (interval.count .timer2))
    (fresh : t.decoder.times = 0) (young : t.decoder.validtime.toNat + 26 < 2100) :
    ∃ u, (interval ++ [KeyEvent.eint0]).foldlM KeySystem.step t = some u ∧
      BitReceived t u (shiftIn t.decoder.keyvalue bit) := by
  have few : interval.count .timer2 ≤ 26 := by
    unfold BitTicks at ticks
    split at ticks <;> omega
  obtain ⟨v, waits, waited⟩ := waited_run quiet (by rw [fresh]; simp; omega)
    (show t.decoder.validtime.toNat + _ < 2100 by omega)
  obtain ⟨u, edge, decoder, posted⟩ := eint0_step v
  have measured : v.decoder.times.toNat = interval.count .timer2 := by
    rw [waited.times, fresh]
    exact Nat.zero_add _
  obtain ⟨register, aged⟩ := keyInterval_bit (show BitTicks bit v.decoder.times.toNat by
    rw [measured]
    exact ticks)
  rw [waited.keyvalue] at register
  refine ⟨u, ?_, ?_, ?_, ?_, _, register, ?_⟩
  · simp [List.foldlM_append, waits, edge]
  · rw [decoder, eint0_times]
  · rw [decoder]
    rcases eint0_validtime v.decoder with same | zero
    · rw [same, aged, waited.validtime]
      omega
    · rw [zero]
      exact Nat.zero_le _
  · rw [decoder, eint0_keyvalue, register]
  · rw [posted, waited.posted, register]

theorem BitReceived.silent {t u : KeySystem} {register : INT32U}
    (bit : BitReceived t u register) (apart : register ∉ keyCodes) :
    u.queue.posted = t.queue.posted := by
  obtain ⟨d, same, posted⟩ := bit.posted
  have silent : keyPosted d ≠ true := fun complete => apart (same ▸ keyPosted_code complete)
  rw [posted, if_neg silent, List.append_nil]

/-- The interrupt posts a repeated code wherever it completes one. -/
theorem BitReceived.posts_iff {t u : KeySystem} {register code : INT32U}
    (bit : BitReceived t u register) (key : code ∈ repeatedKeys) :
    u.queue.posted = t.queue.posted ++ [code] ↔ register = code := by
  obtain ⟨d, same, posted⟩ := bit.posted
  rw [posted, List.append_cancel_left_eq]
  constructor
  · intro posts
    split at posts
    · exact List.singleton_inj.mp posts
    · cases posts
  · rintro rfl
    have complete : keyPosted d = true := by
      simp [keyPosted, same, key]
    rw [if_pos complete]

theorem frame_run {s : KeySystem} {frame : Frame} {code : INT32U}
    (apart : s.decoder.keyvalue ∉ keyCodes) (encodes : frame.Encodes s code) {n : Nat}
    (inside : n ≤ 31) :
    ∃ t, (frame.events n).foldlM KeySystem.step s = some t ∧ InFrame s code n t := by
  induction n with
  | zero => exact start_run apart encodes
  | succ n ih =>
    obtain ⟨t, taken, before⟩ := ih (Nat.le_of_lt inside)
    have age := before.validtime
    obtain ⟨u, more, bit⟩ := bit_run (encodes.bits_quiet n (by omega))
      (encodes.bits_ticks n (by omega)) before.times (by omega)
    have register := before.keyvalue
    refine ⟨u, ?_, bit.times, ?_, ?_, fun clean => ?_⟩
    · rw [Frame.events_succ, List.foldlM_append, taken]
      exact more
    · have := bit.validtime
      omega
    · rw [bit.keyvalue, register]
      rfl
    · have earlier : Clean keyCodes s.decoder.keyvalue code n :=
        fun i first last => clean i first (by omega)
      rw [← before.posted earlier]
      apply bit.silent
      rw [register, received_of_clean (by omega) earlier]
      have next := clean (n + 1) (by omega) (by omega)
      rwa [shifted_succ _ _ (by omega)] at next

theorem topBit_of_repeated {code : INT32U} (key : code ∈ repeatedKeys) :
    code.getLsbD 31 = true := by
  have every : (repeatedKeys.all fun code => code.getLsbD 31) = true := by decide +kernel
  exact List.all_eq_true.mp every code key

/-- The frame of a code with the shortest intervals for its bits. -/
def shortFrame (code : INT32U) : Frame :=
  { start := List.replicate 125 .timer2
    bits := fun i => List.replicate (if code.getLsbD (31 - i) then 19 else 6) .timer2 }

theorem shortFrame_encodes (code : INT32U) {s : KeySystem} (times : s.decoder.times = 0)
    (young : s.decoder.validtime.toNat < 1975) : (shortFrame code).Encodes s code where
  start_quiet := fun member => nomatch List.eq_of_mem_replicate member
  start_ticks := by
    rw [times, shortFrame, List.count_replicate_self]
    decide
  noTimeout := by
    rw [shortFrame, List.count_replicate_self]
    omega
  bits_quiet := fun _ _ member => nomatch List.eq_of_mem_replicate member
  bits_ticks := by
    intro i _
    simp only [shortFrame, List.count_replicate_self, BitTicks]
    split <;> decide

/-- The last bit of a frame, in the register that the bits before have left. -/
theorem last_bit {s : KeySystem} {frame : Frame} {code : INT32U} (reachable : Reachable s)
    (encodes : frame.Encodes s code) :
    ∃ t u, (frame.events 31).foldlM KeySystem.step s = some t ∧ InFrame s code 31 t ∧
      (frame.events 32).foldlM KeySystem.step s = some u ∧
      BitReceived t u
        (shiftIn (received keyCodes s.decoder.keyvalue code 31) (code.getLsbD 0)) := by
  obtain ⟨t, taken, before⟩ := frame_run (notCode_of_reachable reachable) encodes (Nat.le_refl 31)
  have age := before.validtime
  obtain ⟨u, more, bit⟩ := bit_run (encodes.bits_quiet 31 (by omega))
    (encodes.bits_ticks 31 (by omega)) before.times (by omega)
  rw [before.keyvalue] at bit
  refine ⟨t, u, taken, before, ?_, bit⟩
  rw [Frame.events_succ, List.foldlM_append, taken]
  exact more

/-- A frame that is decoded finds a register in which it completes no code too early. -/
theorem clean_of_decodes {s : KeySystem} {frame : Frame} {code : INT32U} (reachable : Reachable s)
    (key : code ∈ repeatedKeys) (encodes : frame.Encodes s code)
    (decodes : Decodes s frame code) : Clean keyCodes s.decoder.keyvalue code 31 := by
  obtain ⟨t, u, taken, -, last, bit⟩ := last_bit reachable encodes
  simp only [Decodes, postedAfter, taken, last, Option.map_some, Option.some.injEq] at decodes
  obtain ⟨silent, posts⟩ := decodes
  rw [← silent, bit.posts_iff key] at posts
  exact (completes_iff (topBit_of_repeated key)).mp posts

/-- A frame is decoded exactly when no code is complete before its last bit. -/
theorem decodes_iff {s : KeySystem} {frame : Frame} {code : INT32U} (reachable : Reachable s)
    (key : code ∈ repeatedKeys) (encodes : frame.Encodes s code) :
    Decodes s frame code ↔
      ∀ n, 1 ≤ n → n ≤ 31 → shifted s.decoder.keyvalue code n ∉ keyCodes := by
  constructor
  · exact clean_of_decodes reachable key encodes
  · intro clean
    obtain ⟨t, u, taken, before, last, bit⟩ := last_bit reachable encodes
    have silent := before.posted clean
    simp only [Decodes, postedAfter, taken, last, Option.map_some, Option.some.injEq]
    rw [← silent, bit.posts_iff key]
    exact ⟨rfl, (completes_iff (topBit_of_repeated key)).mpr clean⟩

/-- The first key after power-on. -/
theorem decodes_iff_powerOn :
    Decodes (KeySystem.start keyInit) (shortFrame keyOk) keyOk :=
  (decodes_iff ⟨[], rfl⟩ (by decide) (shortFrame_encodes keyOk rfl (by decide))).mpr
    (by decide +kernel)

/-- The intervals of eight bits, 1110 0010, without a frame around them. -/
def noise : List KeyEvent :=
  [19, 19, 19, 6, 6, 6, 19, 6].flatMap fun ticks => List.replicate ticks .timer2 ++ [.eint0]

/-- The system after the noise. -/
def noisy : KeySystem := KeySystem.start { keyInit with validtime := 100, keyvalue := 0xE2 }

/-- With the first eight bits of a frame, the noise is the code of ADD. -/
theorem decodes_wrong :
    Reachable noisy ∧ (shortFrame keyOk).Encodes noisy keyOk ∧
      ¬ Decodes noisy (shortFrame keyOk) keyOk := by
  have reachable : Reachable noisy := ⟨noise, by decide +kernel⟩
  have encodes := shortFrame_encodes keyOk (s := noisy) rfl (by decide)
  refine ⟨reachable, encodes, fun decodes => ?_⟩
  have clean := clean_of_decodes reachable (by decide) encodes decodes
  exact absurd (clean 8 (by decide) (by decide)) (by decide)

end GasSub.Guarantees.KeyDecoding
