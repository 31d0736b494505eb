import GasSub.Source.Rs485Memory

/-!
# What `RS485Send_Struct` touches

A frame fits the ten bytes of `Send` up to a payload of four. Its tail, and then its
payload, go on into `Rcv`, the indices and the structures behind; with a length of
255 the call does not return at all.
-/
namespace GasSub.Guarantees.SendFootprint
open GasSub.Source
open GasSub.Library.ByteMemory

/-- `Send`, `sendOK` and `sendLen` of a channel. -/
def SendSide (layout : Rs485Layout) (n : RS485UartNum) (a : Nat) : Prop :=
  (layout.uart n ≤ a ∧ a < layout.uart n + 10) ∨ a = layout.uart n + offsetSendOK ∨
    a = layout.uart n + offsetSendLen

/-- Any other byte of the four structures. -/
def Other (layout : Rs485Layout) (n : RS485UartNum) (a : Nat) : Prop :=
  (∃ k, layout.uart k ≤ a ∧ a < layout.uart k + sizeofRS485TMP) ∧ ¬ SendSide layout n a

/-- The call returns and leaves the other bytes of the structures as they are. -/
def KeepsOthers (layout : Rs485Layout) (n : RS485UartNum) (packet : UserRS485Send)
    (behind : Nat → INT8U) (m : Memory) : Prop :=
  ∃ fuel after, sendStructMemory layout n packet behind fuel m = some after ∧
    ∀ a, Other layout n a → after a = m a

/-- What the frame puts on other bytes is there already. -/
def AlreadyThere (layout : Rs485Layout) (n : RS485UartNum) (packet : UserRS485Send)
    (behind : Nat → INT8U) (m : Memory) : Prop :=
  ∀ k byte, (frameBytes packet behind)[k]? = some byte → Other layout n (layout.uart n + k) →
    m (layout.uart n + k) = byte

variable (layout : Rs485Layout) (n : RS485UartNum) (packet : UserRS485Send)
  (behind : Nat → INT8U) (m : Memory)

theorem sendSide_sendOK : SendSide layout n (layout.uart n + offsetSendOK) := Or.inr (Or.inl rfl)

theorem sendSide_sendLen : SendSide layout n (layout.uart n + offsetSendLen) := Or.inr (Or.inr rfl)

/-- The first byte of `Rcv`. -/
theorem other_rcv : Other layout n (layout.uart n + 10) := by
  refine ⟨⟨n, Nat.le_add_right _ _, by simp only [sizeofRS485TMP]; omega⟩, ?_⟩
  simp only [SendSide, offsetSendOK, offsetSendLen]
  omega

/-- A frame with at most four bytes of payload puts nothing on other bytes. -/
theorem alreadyThere_short (short : packet.len.toNat ≤ 4) :
    AlreadyThere layout n packet behind m := by
  intro k byte member other
  have inside : k < (frameBytes packet behind).length := (List.getElem?_eq_some_iff.mp member).1
  rw [length_frameBytes] at inside
  exact absurd (Or.inl ⟨Nat.le_add_right _ _, by omega⟩) other.2

/-- On a free channel, for one content of memory. -/
theorem keepsOthers_free_iff (free : m (layout.uart n + offsetSendOK) ≠ 0) :
    KeepsOthers layout n packet behind m ↔
      packet.len.toNat < 255 ∧ AlreadyThere layout n packet behind m := by
  have flags : ∀ a, Other layout n a →
      storeFlags (store m (layout.uart n) (frameBytes packet behind)) (layout.uart n) packet a =
        store m (layout.uart n) (frameBytes packet behind) a := by
    intro a other
    refine storeFlags_other _ _ _ ?_ ?_
    · rintro rfl
      exact other.2 (sendSide_sendOK layout n)
    · rintro rfl
      exact other.2 (sendSide_sendLen layout n)
  constructor
  · rintro ⟨fuel, after, returned, kept⟩
    rw [sendStructMemory_eq] at returned
    obtain ⟨ends, rfl⟩ := sendStructAt_result free returned
    refine ⟨ends, fun k byte member other => ?_⟩
    obtain ⟨inside, rfl⟩ := List.getElem?_eq_some_iff.mp member
    rw [← kept _ other, flags _ other, store_inside _ _ _ _ inside]
  · rintro ⟨ends, there⟩
    refine ⟨_, _, (sendStructMemory_eq _ _ _ _ _ _).trans
      (sendStructAt_runs _ packet behind m free ends), fun a other => ?_⟩
    rw [flags a other]
    by_cases covered : layout.uart n ≤ a ∧ a < layout.uart n + (frameBytes packet behind).length
    · obtain ⟨k, rfl⟩ := Nat.exists_eq_add_of_le covered.1
      have inside : k < (frameBytes packet behind).length := by omega
      rw [store_inside _ _ _ _ inside]
      exact (there k _ (List.getElem?_eq_getElem inside) other).symm
    · exact store_outside _ _ _ _ (by omega)

/-- A busy channel is left at once. -/
theorem keepsOthers_busy (busy : m (layout.uart n + offsetSendOK) = 0) :
    KeepsOthers layout n packet behind m := by
  refine ⟨0, m, ?_, fun _ _ => rfl⟩
  rw [sendStructMemory_eq, sendStructAt_busy _ _ _ _ _ busy]

theorem keepsOthers_iff :
    KeepsOthers layout n packet behind m ↔
      m (layout.uart n + offsetSendOK) = 0 ∨
        packet.len.toNat < 255 ∧ AlreadyThere layout n packet behind m := by
  by_cases busy : m (layout.uart n + offsetSendOK) = 0
  · exact iff_of_true (keepsOthers_busy layout n packet behind m busy) (Or.inl busy)
  · rw [keepsOthers_free_iff layout n packet behind m busy, or_iff_right busy]

/-- Two memories that differ in the other bytes of the structures at most: another reception
may be in progress. -/
def SameSendSide (layout : Rs485Layout) (n : RS485UartNum) (m m' : Memory) : Prop :=
  ∀ a, ¬ Other layout n a → m' a = m a

/-- For one content of memory the call returns and keeps the other bytes just if the
channel is busy, or the loop ends and what the frame puts on them is there already. It does so
whatever reception is in progress just if the channel is busy or the payload has at most
four bytes. -/
theorem send_keepsOthers_iff :
    (KeepsOthers layout n packet behind m ↔
      m (layout.uart n + offsetSendOK) = 0 ∨
        packet.len.toNat < 255 ∧ AlreadyThere layout n packet behind m) ∧
    ((∀ m', SameSendSide layout n m m' → KeepsOthers layout n packet behind m') ↔
      m (layout.uart n + offsetSendOK) = 0 ∨ packet.len.toNat ≤ 4) := by
  refine ⟨keepsOthers_iff layout n packet behind m, fun always => ?_, fun fits m' same => ?_⟩
  · by_contra fails
    obtain ⟨free, long⟩ := not_or.mp fails
    have inside : 10 < (frameBytes packet behind).length := by
      rw [length_frameBytes]
      omega
    let disturbed : Memory :=
      Function.update m (layout.uart n + 10) ((frameBytes packet behind)[10] + 1)
    have same : SameSendSide layout n m disturbed := by
      intro a kept
      refine Function.update_of_ne ?_ _ m
      rintro rfl
      exact kept (other_rcv layout n)
    have flag : disturbed (layout.uart n + offsetSendOK) = m (layout.uart n + offsetSendOK) :=
      same _ fun other => other.2 (sendSide_sendOK layout n)
    rcases (keepsOthers_iff layout n packet behind disturbed).mp (always disturbed same) with
      busy | ⟨-, there⟩
    · exact free (flag.symm.trans busy)
    · have byte := there 10 _ (List.getElem?_eq_getElem inside) (other_rcv layout n)
      have changed : disturbed (layout.uart n + 10) = (frameBytes packet behind)[10] + 1 :=
        Function.update_self ..
      exact absurd (changed.symm.trans byte) (by simp)
  · have flag : m' (layout.uart n + offsetSendOK) = m (layout.uart n + offsetSendOK) :=
      same _ fun other => other.2 (sendSide_sendOK layout n)
    rw [keepsOthers_iff, flag]
    rcases fits with busy | short
    · exact Or.inl busy
    · exact Or.inr ⟨by omega, alreadyThere_short layout n packet behind m' short⟩

/-! ### A payload of five bytes -/

/-- The four structures one behind the other, in the order of their definitions. -/
def inOrder : Rs485Layout where
  uart
    | .uart0 => 0
    | .uart2 => 30
    | .uart3 => 60
    | .uart4 => 90
  apart n m away := by
    cases n <;> cases m <;> first | exact absurd rfl away | decide

/-- UART0 is free and has received nothing. -/
def idle : Memory := fun a => if a = offsetSendOK then 1 else 0

/-- The tail of the frame lands in `Rcv`. -/
theorem send_not_keepsOthers :
    ¬ ∀ layout n packet behind m, KeepsOthers layout n packet behind m := by
  intro claim
  have kept := claim inOrder .uart0 ⟨1, 2, 5, Vector.replicate 3 0⟩ (fun _ => 0) idle
  rcases (keepsOthers_iff _ _ _ _ _).mp kept with busy | ⟨-, there⟩
  · exact absurd busy (by decide)
  · have byte := there 10 0x45 (by decide) (other_rcv inOrder .uart0)
    exact absurd byte (by decide)

end GasSub.Guarantees.SendFootprint
