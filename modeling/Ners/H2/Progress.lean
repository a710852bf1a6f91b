import Ners.Base.Sweep
import Ners.H2.FrameStream

set_option autoImplicit false

namespace Ners.H2

open Sweep (Steps cut cut_joined cut_some cut_whole sweep sweep_iff)

def lengthField (buf : Bytes) : Nat :=
  match buf with
  | b0 :: b1 :: b2 :: _ => b0.toNat <<< 16 ||| b1.toNat <<< 8 ||| b2.toNat
  | _ => 0

-- The size of the frame in front, where all of it is there.
def wholeFrame (buf : Bytes) : Option Nat :=
  if frameHeaderSize + lengthField buf ≤ buf.length then some (frameHeaderSize + lengthField buf) else none

def wholeFrames (buf : Bytes) : List Bytes := (cut wholeFrame buf.length buf).1

def remainder (buf : Bytes) : Bytes := (cut wholeFrame buf.length buf).2

-- The type of a frame header is one of the ten of the source.
def KnownType (buf : Bytes) : Prop := buf.length < frameHeaderSize ∨ buf.getD 3 0 ≤ 0x9

instance (buf : Bytes) : Decidable (KnownType buf) := inferInstanceAs (Decidable (_ ∨ _))

-- A call removes the whole frame in front, and calls that go on behind errors
-- come to an end and answer each whole frame once.
structure Progresses (buf : Bytes) : Prop where
  removes : ∀ n, wholeFrame buf = some n → (Frame.parse buf).2 = buf.drop n
  sweeps : ∃ turns, sweep Frame.parse turns buf = some ((wholeFrames buf).map fun frame => (Frame.parse frame).1, remainder buf)

theorem try_from_known (value : UInt8) : (∃ frameType, FrameType.tryFrom value = .ok frameType) ↔ value ≤ 0x9 := by
  have all : ∀ n : Fin 256, (FrameType.tryFrom (.ofNat n.val)).toOption.isSome ↔ UInt8.ofNat n.val ≤ 0x9 := by decide +kernel
  have here := all ⟨value.toNat, value.toNat_lt⟩
  rw [UInt8.ofNat_toNat] at here
  rw [← here]
  cases FrameType.tryFrom value with
  | error e => simp [Except.toOption]
  | ok frameType => simp [Except.toOption]

theorem whole_frame_some (buf : Bytes) (n : Nat) (size : wholeFrame buf = some n) :
    n = frameHeaderSize + lengthField buf ∧ n ≤ buf.length := by
  obtain ⟨fits, same⟩ := Option.ite_none_right_eq_some.mp size
  cases same
  exact ⟨rfl, fits⟩

theorem whole_frame_none (buf : Bytes) (size : wholeFrame buf = none) : buf.length < frameHeaderSize + lengthField buf := by
  unfold wholeFrame at size
  split at size
  · cases size
  · omega

theorem length_field_take (buf : Bytes) (n : Nat) (three : 3 ≤ n) : lengthField (buf.take n) = lengthField buf := by
  obtain ⟨n, rfl⟩ : ∃ k, n = k + 3 := ⟨n - 3, by omega⟩
  match buf with
  | [] => rfl
  | [_] => rfl
  | [_, _] => rfl
  | _ :: _ :: _ :: _ => rfl

theorem whole_frame_alone (buf : Bytes) (n : Nat) (size : wholeFrame buf = some n) : wholeFrame (buf.take n) = some n := by
  obtain ⟨rfl, fits⟩ := whole_frame_some buf n size
  have same := length_field_take buf (frameHeaderSize + lengthField buf) (by simp only [frameHeaderSize]; omega)
  unfold wholeFrame
  rw [same, List.length_take, Nat.min_eq_left fits, if_pos (Nat.le_refl _)]

theorem whole_frames_joined (buf : Bytes) :
    (wholeFrames buf).flatten ++ remainder buf = buf ∧ (∀ frame ∈ wholeFrames buf, wholeFrame frame = some frame.length) ∧
      wholeFrame (remainder buf) = none := by
  refine ⟨cut_joined buf.length buf, cut_whole buf.length buf (fun buf n size => ?_) whole_frame_alone (Nat.le_refl _)⟩
  obtain ⟨same, fits⟩ := whole_frame_some buf n size
  simp only [frameHeaderSize] at same
  exact ⟨by omega, fits⟩

theorem parse_unknown (buf : Bytes) (unknown : ¬ KnownType buf) : ∃ e, Frame.parse buf = (.error e, buf) := by
  obtain ⟨long, large⟩ := not_or.mp unknown
  obtain ⟨b0, b1, b2, b3, b4, b5, b6, b7, b8, rest, rfl⟩ := long_bytes buf (Nat.not_lt.mp long)
  simp only [Frame.parse]
  cases kind : FrameType.tryFrom b3 with
  | error e => exact ⟨e, rfl⟩
  | ok frameType => exact absurd ((try_from_known b3).mp ⟨frameType, kind⟩) large

theorem parse_incomplete (buf : Bytes) (size : wholeFrame buf = none) (known : KnownType buf) :
    Frame.parse buf = (.ok none, buf) := by
  by_cases short : buf.length < frameHeaderSize
  · exact parse_short buf short
  · obtain ⟨b0, b1, b2, b3, b4, b5, b6, b7, b8, rest, rfl⟩ := long_bytes buf (Nat.not_lt.mp short)
    obtain ⟨frameType, kind⟩ := (try_from_known b3).mpr (known.resolve_left short)
    have cut := whole_frame_none _ size
    simp only [Frame.parse, kind]
    exact if_pos cut

theorem parse_whole (buf : Bytes) (n : Nat) (size : wholeFrame buf = some n) (known : KnownType buf) :
    (Frame.parse buf).2 = buf.drop n ∧ (Frame.parse buf).1 = (Frame.parse (buf.take n)).1 ∧ (Frame.parse buf).1 ≠ .ok none := by
  obtain ⟨rfl, fits⟩ := whole_frame_some buf n size
  have long : frameHeaderSize ≤ buf.length := by omega
  obtain ⟨b0, b1, b2, b3, flags, b5, b6, b7, b8, rest, rfl⟩ := long_bytes buf long
  obtain ⟨frameType, kind⟩ := (try_from_known b3).mpr (known.resolve_left (Nat.not_lt.mpr long))
  simp only [lengthField, List.length_cons, frameHeaderSize] at fits ⊢
  generalize size : b0.toNat <<< 16 ||| b1.toNat <<< 8 ||| b2.toNat = length at fits ⊢
  have whole := parse_enough b0 b1 b2 b3 flags b5 b6 b7 b8 rest frameType kind (by omega)
  have front := parse_enough b0 b1 b2 b3 flags b5 b6 b7 b8 (rest.take length) frameType kind (by
    rw [List.length_take]
    omega)
  rw [size] at whole front
  rw [List.take_take, Nat.min_self] at front
  have taken : (b0 :: b1 :: b2 :: b3 :: flags :: b5 :: b6 :: b7 :: b8 :: rest).take (9 + length) =
      b0 :: b1 :: b2 :: b3 :: flags :: b5 :: b6 :: b7 :: b8 :: rest.take length := by
    rw [Nat.add_comm]
    rfl
  rw [taken, whole, front]
  refine ⟨?_, rfl, ?_⟩
  · rw [Nat.add_comm]
    rfl
  · dsimp only
    cases parsePayload frameType flags (u32FromBe (b5 &&& 0x7f) b6 b7 b8) (rest.take length) <;> simp [Except.map]

theorem known_take (buf : Bytes) (n : Nat) (size : wholeFrame buf = some n) : KnownType (buf.take n) ↔ KnownType buf := by
  obtain ⟨rfl, fits⟩ := whole_frame_some buf n size
  obtain ⟨b0, b1, b2, b3, flags, b5, b6, b7, b8, rest, rfl⟩ := long_bytes buf (by omega)
  simp only [frameHeaderSize]
  rw [Nat.add_comm]
  simp only [KnownType, frameHeaderSize, List.take_succ_cons, List.getD_cons_succ, List.getD_cons_zero, List.length_cons]
  exact or_congr (iff_of_false (by omega) (by omega)) Iff.rfl

theorem parse_steps : Steps Frame.parse wholeFrame KnownType where
  within buf n size := by
    obtain ⟨same, fits⟩ := whole_frame_some buf n size
    simp only [frameHeaderSize] at same
    exact ⟨by omega, fits⟩
  takes := parse_whole
  waits := parse_incomplete
  stuck := parse_unknown
  clear := known_take

theorem progresses_iff (buf : Bytes) :
    Progresses buf ↔ (∀ frame ∈ wholeFrames buf, KnownType frame) ∧ KnownType (remainder buf) := by
  have swept := sweep_iff buf.length buf parse_steps (Nat.le_refl _)
  refine ⟨fun progresses => swept.mp progresses.sweeps, fun known => ⟨fun n size => ?_, swept.mpr known⟩⟩
  obtain ⟨positive, fits⟩ := parse_steps.within buf n size
  obtain ⟨turns, enough⟩ : ∃ turns, buf.length = turns + 1 := ⟨buf.length - 1, by omega⟩
  have first : buf.take n ∈ wholeFrames buf := by
    rw [wholeFrames, enough, cut_some turns n buf size]
    exact List.mem_cons_self
  exact (parse_whole buf n size ((known_take buf n size).mp (known.1 _ first))).1

-- A frame of type 0xa with an empty payload.
def extensionFrame : Bytes := [0, 0, 0, 0xa, 0, 0, 0, 0, 0]

theorem extension_frame_stays : ¬ Progresses extensionFrame := by
  intro progresses
  have left : (Frame.parse extensionFrame).2 = [] := progresses.removes 9 (by decide)
  exact absurd left (by decide)

end Ners.H2
