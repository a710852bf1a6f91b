import Ners.Base.Chunking
import Ners.H2.FrameCodec

set_option autoImplicit false

namespace Ners.H2

open Framing (Settles feed feed_agrees settles_now stable_waits)

theorem masked_id (b0 b1 b2 b3 : UInt8) : (u32FromBe (b0 &&& 0x7f) b1 b2 b3).toNat < 2 ^ 31 := by
  rw [u32_from_masked]
  exact Nat.mod_lt _ (by decide)

theorem length_field (b0 b1 b2 : UInt8) : b0.toNat <<< 16 ||| b1.toNat <<< 8 ||| b2.toNat < 2 ^ 24 := by
  have byte (b : UInt8) : b.toNat < 2 ^ 8 := b.toNat_lt
  apply Nat.or_lt_two_pow
  · apply Nat.or_lt_two_pow
    · have high := byte b0
      rw [Nat.shiftLeft_eq]
      omega
    · have middle := byte b1
      rw [Nat.shiftLeft_eq]
      omega
  · have low := byte b2
    omega

theorem settings_length (pairs : List (UInt16 × UInt32)) :
    (pairs.flatMap fun (id, value) => putU16 id ++ putU32 value).length = 6 * pairs.length := by
  induction pairs with
  | nil => rfl
  | cons pair rest ih =>
      rw [List.flatMap_cons, List.length_append, ih]
      simp only [putU16, putU32, List.length_append, List.length_cons, List.length_nil]
      omega

theorem parse_settings_length (payload : Bytes) : 6 * (parseSettings payload).length ≤ payload.length := by
  fun_induction parseSettings payload with
  | case1 p0 p1 p2 p3 p4 p5 p ih =>
      simp only [List.length_cons]
      omega
  | case2 => exact Nat.zero_le _

theorem parse_payload_fits (frameType : FrameType) (flags : UInt8) (streamId : UInt32) (payload : Bytes) (frame : Frame)
    (small : streamId.toNat < 2 ^ 31) (short : payload.length < 2 ^ 24)
    (parsed : parsePayload frameType flags streamId payload = .ok frame) : frame.Fits := by
  have zero : (0 : UInt32).toNat < 2 ^ 31 := by decide
  cases frameType with
  | data =>
      obtain rfl := Except.ok.inj parsed
      exact ⟨small, short, trivial⟩
  | headers =>
      obtain rfl := Except.ok.inj parsed
      exact ⟨small, short, trivial⟩
  | continuation =>
      obtain rfl := Except.ok.inj parsed
      exact ⟨small, short, trivial⟩
  | settings =>
      obtain rfl := Except.ok.inj parsed
      refine ⟨zero, ?_, trivial⟩
      have pairs := parse_settings_length payload
      rw [Frame.payload, Frame.parts, settings_length]
      omega
  | windowUpdate =>
      simp only [parsePayload] at parsed
      split at parsed
      · obtain rfl := Except.ok.inj parsed
        refine ⟨small, ?_, masked_id _ _ _ _⟩
        simp only [Frame.payload, Frame.parts, putU32, List.length_cons, List.length_nil] at short ⊢
        omega
      · cases parsed
  | ping =>
      simp only [parsePayload] at parsed
      split at parsed
      · obtain rfl := Except.ok.inj parsed
        refine ⟨zero, ?_, trivial⟩
        simp only [Frame.payload, Frame.parts, List.length_cons, Vector.length_toList] at short ⊢
        omega
      · cases parsed
  | goAway =>
      simp only [parsePayload] at parsed
      split at parsed
      · obtain rfl := Except.ok.inj parsed
        refine ⟨zero, ?_, masked_id _ _ _ _⟩
        simp only [Frame.payload, Frame.parts, putU32, List.length_append, List.length_cons, List.length_nil] at short ⊢
        omega
      · cases parsed
  | rstStream =>
      simp only [parsePayload] at parsed
      split at parsed
      · obtain rfl := Except.ok.inj parsed
        refine ⟨small, ?_, trivial⟩
        simp only [Frame.payload, Frame.parts, putU32, List.length_cons, List.length_nil] at short ⊢
        omega
      · cases parsed
  | priority =>
      simp only [parsePayload] at parsed
      split at parsed
      · obtain rfl := Except.ok.inj parsed
        refine ⟨small, ?_, masked_id _ _ _ _⟩
        simp only [Frame.payload, Frame.parts, putU32, List.length_append, List.length_cons, List.length_nil] at short ⊢
        omega
      · cases parsed
  | pushPromise =>
      simp only [parsePayload] at parsed
      split at parsed
      · obtain rfl := Except.ok.inj parsed
        refine ⟨small, ?_, masked_id _ _ _ _⟩
        simp only [Frame.payload, Frame.parts, putU32, List.length_append, List.length_cons, List.length_nil] at short ⊢
        omega
      · cases parsed

theorem nine_bytes (front : Bytes) (nine : front.length = 9) :
    ∃ b0 b1 b2 b3 b4 b5 b6 b7 b8, front = [b0, b1, b2, b3, b4, b5, b6, b7, b8] := by
  match front, nine with
  | [b0, b1, b2, b3, b4, b5, b6, b7, b8], _ => exact ⟨b0, b1, b2, b3, b4, b5, b6, b7, b8, rfl⟩

theorem long_bytes (buf : Bytes) (long : frameHeaderSize ≤ buf.length) :
    ∃ b0 b1 b2 b3 b4 b5 b6 b7 b8 rest, buf = b0 :: b1 :: b2 :: b3 :: b4 :: b5 :: b6 :: b7 :: b8 :: rest := by
  obtain ⟨b0, b1, b2, b3, b4, b5, b6, b7, b8, front⟩ := nine_bytes (buf.take 9) (by
    rw [List.length_take]
    exact Nat.min_eq_left long)
  refine ⟨b0, b1, b2, b3, b4, b5, b6, b7, b8, buf.drop 9, ?_⟩
  rw [← List.take_append_drop 9 buf, front]
  rfl

theorem parse_enough (b0 b1 b2 b3 flags b5 b6 b7 b8 : UInt8) (rest : Bytes) (frameType : FrameType)
    (kind : FrameType.tryFrom b3 = .ok frameType)
    (enough : b0.toNat <<< 16 ||| b1.toNat <<< 8 ||| b2.toNat ≤ rest.length) :
    Frame.parse (b0 :: b1 :: b2 :: b3 :: flags :: b5 :: b6 :: b7 :: b8 :: rest) =
      ((parsePayload frameType flags (u32FromBe (b5 &&& 0x7f) b6 b7 b8)
        (rest.take (b0.toNat <<< 16 ||| b1.toNat <<< 8 ||| b2.toNat))).map some,
        rest.drop (b0.toNat <<< 16 ||| b1.toNat <<< 8 ||| b2.toNat)) := by
  generalize size : b0.toNat <<< 16 ||| b1.toNat <<< 8 ||| b2.toNat = length at enough
  simp only [Frame.parse, kind, size, List.length_cons, frameHeaderSize]
  rw [if_neg (by omega)]
  cases parsePayload frameType flags (u32FromBe (b5 &&& 0x7f) b6 b7 b8) (rest.take length) <;> rfl

-- All that a call can do: wait, refuse what is in front, or take one frame.
theorem parse_cases (buf : Bytes) :
    Frame.parse buf = (.ok none, buf) ∨
    (∃ e left, Settles Frame.parse buf (.error e) left) ∨
    ∃ frame left, frame.Fits ∧ left.length < buf.length ∧ Settles Frame.parse buf (.ok (some frame)) left := by
  by_cases short : buf.length < frameHeaderSize
  · exact .inl (parse_short buf short)
  · obtain ⟨b0, b1, b2, b3, flags, b5, b6, b7, b8, rest, rfl⟩ := long_bytes buf (Nat.not_lt.mp short)
    cases kind : FrameType.tryFrom b3 with
    | error e =>
        refine .inr (.inl ⟨e, b0 :: b1 :: b2 :: b3 :: flags :: b5 :: b6 :: b7 :: b8 :: rest, fun suffix => ?_⟩)
        simp only [List.cons_append, Frame.parse, kind]
    | ok frameType =>
        have field := length_field b0 b1 b2
        have parsed (suffix : Bytes) := parse_enough b0 b1 b2 b3 flags b5 b6 b7 b8 (rest ++ suffix) frameType kind
        generalize size : b0.toNat <<< 16 ||| b1.toNat <<< 8 ||| b2.toNat = length at field parsed
        by_cases whole : rest.length < length
        · refine .inl ?_
          simp only [Frame.parse, kind, size, List.length_cons, frameHeaderSize]
          exact if_pos (by omega)
        · have answer (suffix : Bytes) := parsed suffix (by rw [List.length_append]; omega)
          simp only [List.take_append_of_le_length (Nat.not_lt.mp whole), List.drop_append_of_le_length (Nat.not_lt.mp whole)]
            at answer
          refine .inr ?_
          cases payload : parsePayload frameType flags (u32FromBe (b5 &&& 0x7f) b6 b7 b8) (rest.take length) with
          | error e =>
              rw [payload] at answer
              exact .inl ⟨e, _, answer⟩
          | ok frame =>
              rw [payload] at answer
              refine .inr ⟨frame, rest.drop length, ?_, ?_, answer⟩
              · apply parse_payload_fits frameType flags _ _ frame (masked_id b5 b6 b7 b8) _ payload
                rw [List.length_take]
                omega
              · simp only [List.length_drop, List.length_cons]
                omega

theorem frames_stable : Framing.Stable Frame.parse := by
  intro buf
  obtain waits | refuses | ⟨frame, left, _, shorter, takes⟩ := parse_cases buf
  · exact .inl waits
  · exact .inr (.inl refuses)
  · exact .inr (.inr ⟨frame, left, shorter, takes⟩)

theorem parsed_fits (buf left : Bytes) (frame : Frame) (parsed : Frame.parse buf = (.ok (some frame), left)) : frame.Fits := by
  obtain waits | ⟨e, rest, refuses⟩ | ⟨other, rest, fits, _, takes⟩ := parse_cases buf
  · cases parsed.symm.trans waits
  · cases parsed.symm.trans (settles_now _ _ _ refuses)
  · cases parsed.symm.trans (settles_now _ _ _ takes)
    exact fits

theorem codec_round_trip :
    (∀ (frame : Frame) (suffix : Bytes), frame.Fits → Frame.parse (frame.serialize [] ++ suffix) = (.ok (some frame), suffix)) ∧
    ∀ (buf left : Bytes) (frame : Frame), Frame.parse buf = (.ok (some frame), left) →
      frame.Fits ∧ ∀ suffix, Frame.parse (frame.serialize [] ++ suffix) = (.ok (some frame), suffix) := by
  refine ⟨fun frame suffix fits => parse_wire frame suffix fits, fun buf left frame parsed => ?_⟩
  have fits := parsed_fits buf left frame parsed
  exact ⟨fits, fun suffix => parse_wire frame suffix fits⟩

theorem codec_round_trip_pair :
    Frame.parse ((Frame.windowUpdate 5 1000).serialize [] ++ [1, 2, 3]) = (.ok (some (.windowUpdate 5 1000)), [1, 2, 3]) ∧
      (Frame.settings false [(3, 100)]).Fits ∧
      ∀ suffix, Frame.parse ((Frame.settings false [(3, 100)]).serialize [] ++ suffix) =
        (.ok (some (.settings false [(3, 100)])), suffix) :=
  ⟨codec_round_trip.1 _ _ ⟨by decide, by decide, by decide⟩,
    codec_round_trip.2 [0, 0, 6, 4, 0, 0, 0, 0, 9, 0, 3, 0, 0, 0, 100, 0xff] [0xff] _ rfl⟩

theorem chunking_does_not_matter :
    (∀ chunks others : List Bytes, chunks.flatten = others.flatten →
      (feed Frame.parse [] chunks).frames = (feed Frame.parse [] others).frames ∧
      (feed Frame.parse [] chunks).failure = (feed Frame.parse [] others).failure ∧
      ((feed Frame.parse [] chunks).failure = none →
        (feed Frame.parse [] chunks).buf = (feed Frame.parse [] others).buf)) ∧
    ∀ buf left : Bytes, Frame.parse buf = (.ok none, left) → left = buf :=
  ⟨fun chunks others same => feed_agrees chunks others frames_stable rfl same,
    fun buf left waits => stable_waits buf left frames_stable waits⟩

-- A PING, and two bytes of the next header.
def pingBytes : Bytes := [0, 0, 8, 6, 0, 0, 0, 0, 0, 1, 2, 3, 4, 5, 6, 7, 8, 0, 0]

theorem chunking_does_not_matter_ping :
    (feed Frame.parse [] [pingBytes.take 4, pingBytes.drop 4]).frames = [.ping false #v[1, 2, 3, 4, 5, 6, 7, 8]] ∧
      (feed Frame.parse [] [pingBytes.take 4, pingBytes.drop 4]).frames = (feed Frame.parse [] [pingBytes, []]).frames ∧
      (feed Frame.parse [] [pingBytes.take 4, pingBytes.drop 4]).buf = (feed Frame.parse [] [pingBytes, []]).buf := by
  obtain ⟨frames, _, rest⟩ := chunking_does_not_matter.1 [pingBytes.take 4, pingBytes.drop 4] [pingBytes, []] rfl
  exact ⟨by decide, frames, rest (by decide)⟩

end Ners.H2
