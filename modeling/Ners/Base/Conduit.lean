import Ners.Base.Framing

set_option autoImplicit false

namespace Ners.Conduit

open Framing (Delimits stream)

variable {φ ε : Type} {parse : Bytes → Except ε (Option φ) × Bytes} {wire : φ → Bytes} {Fits : φ → Prop}

variable (wire) in
-- One direction of a connection. What was said is what was heard, what is
-- between the two as bytes (read and not parsed, or on their way), and what
-- waits to be written.
def Carries (said heard outbox : List φ) (flight buf : Bytes) : Prop :=
  ∃ between, said = heard ++ between ++ outbox ∧ stream wire between = buf ++ flight

theorem stream_append (early late : List φ) : stream wire (early ++ late) = stream wire early ++ stream wire late :=
  List.flatMap_append

theorem carries_start : Carries wire [] [] [] [] [] := ⟨[], rfl, rfl⟩

theorem carries_say (said heard outbox more : List φ) (flight buf : Bytes) (carries : Carries wire said heard outbox flight buf) :
    Carries wire (said ++ more) heard (outbox ++ more) flight buf := by
  obtain ⟨between, parts, bytes⟩ := carries
  exact ⟨between, by rw [parts, List.append_assoc], bytes⟩

theorem carries_write (said heard outbox : List φ) (flight buf : Bytes) (carries : Carries wire said heard outbox flight buf) :
    Carries wire said heard [] (flight ++ stream wire outbox) buf := by
  obtain ⟨between, parts, bytes⟩ := carries
  refine ⟨between ++ outbox, by rw [parts, List.append_nil, List.append_assoc], ?_⟩
  rw [stream_append, bytes, List.append_assoc]

theorem carries_arrive (said heard outbox : List φ) (flight buf : Bytes) (n : Nat) (carries : Carries wire said heard outbox flight buf) :
    Carries wire said heard outbox (flight.drop n) (buf ++ flight.take n) := by
  obtain ⟨between, parts, bytes⟩ := carries
  exact ⟨between, parts, by rw [bytes, List.append_assoc, List.take_append_drop]⟩

-- A parse takes the next message that was said, once all of it is there.
theorem carries_parse (said heard outbox : List φ) (flight buf : Bytes) (format : Delimits parse wire Fits)
    (fits : ∀ frame ∈ said, Fits frame) (carries : Carries wire said heard outbox flight buf) :
    parse buf = (.ok none, buf) ∨
      ∃ frame left, parse buf = (.ok (some frame), left) ∧ Carries wire said (heard ++ [frame]) outbox flight left := by
  obtain ⟨between, parts, bytes⟩ := carries
  cases between with
  | nil =>
      obtain ⟨rfl, _⟩ := List.append_eq_nil_iff.mp bytes.symm
      exact .inl format.empty
  | cons frame later =>
      have fit : Fits frame := fits frame (by simp [parts])
      have shifted : said = heard ++ [frame] ++ later ++ outbox := by rw [parts]; simp
      have split : wire frame ++ stream wire later = buf ++ flight := by rw [← bytes, stream, stream, List.flatMap_cons]
      rcases List.append_eq_append_iff.mp split with ⟨suffix, whole, behind⟩ | ⟨missing, cut, behind⟩
      · exact .inr ⟨frame, suffix, by rw [whole, format.whole frame suffix fit], later, shifted, behind⟩
      · by_cases arrived : missing = []
        · rw [arrived, List.append_nil] at cut
          rw [arrived, List.nil_append] at behind
          have whole := format.whole frame [] fit
          rw [List.append_nil, cut] at whole
          exact .inr ⟨frame, [], whole, later, shifted, behind.symm⟩
        · exact .inl (format.cut frame buf missing fit cut arrived)

-- Nothing waits or is on its way, and what was read holds no message.
theorem carries_settled (said heard : List φ) (buf : Bytes) (format : Delimits parse wire Fits) (fits : ∀ frame ∈ said, Fits frame)
    (carries : Carries wire said heard [] [] buf) (none : parse buf = (.ok none, buf)) : heard = said ∧ buf = [] := by
  obtain ⟨between, parts, bytes⟩ := carries
  rw [List.append_nil] at parts bytes
  cases between with
  | nil => exact ⟨by rw [parts, List.append_nil], bytes.symm⟩
  | cons frame later =>
      have whole := format.whole frame (stream wire later) (fits frame (by simp [parts]))
      rw [← bytes, stream, List.flatMap_cons] at none
      cases none.symm.trans whole

end Ners.Conduit
