import Ners.Base.Framing
import Ners.H2.Frame

set_option autoImplicit false

namespace Ners.H2

-- The bounds of the wire format: 31-bit numbers under a reserved bit and a
-- 24-bit payload length.
def Frame.Fits (frame : Frame) : Prop :=
  frame.streamId.toNat < 2 ^ 31 ∧ frame.payload.length < 2 ^ 24 ∧
    match frame with
    | .priority _ _ dependency _ => dependency.toNat < 2 ^ 31
    | .pushPromise _ promisedStreamId _ => promisedStreamId.toNat < 2 ^ 31
    | .goAway lastStreamId _ _ => lastStreamId.toNat < 2 ^ 31
    | .windowUpdate _ increment => increment.toNat < 2 ^ 31
    | _ => True

theorem type_round_trip (frameType : FrameType) : FrameType.tryFrom frameType.code = .ok frameType := by
  cases frameType <;> rfl

theorem length_bytes (len : Nat) (short : len < 2 ^ 24) :
    (UInt8.ofNat (len >>> 16)).toNat <<< 16 ||| (UInt8.ofNat (len >>> 8)).toNat <<< 8 ||| (UInt8.ofNat len).toNat = len := by
  have low : len % 256 < 2 ^ 8 := Nat.mod_lt _ (by decide)
  have middle : (len >>> 8 % 256) <<< 8 + len % 256 < 2 ^ 16 := by
    rw [Nat.shiftLeft_eq]
    omega
  rw [byte_low, byte_low, byte_low, Nat.or_assoc, ← Nat.shiftLeft_add_eq_or_of_lt low,
    ← Nat.shiftLeft_add_eq_or_of_lt middle]
  simp only [Nat.shiftLeft_eq, Nat.shiftRight_eq_div_pow]
  omega

theorem id_round_trip (id : UInt32) (small : id.toNat < 2 ^ 31) :
    u32FromBe (.ofNat (id.toNat / 2 ^ 24) &&& 0x7f) (.ofNat (id.toNat / 2 ^ 16)) (.ofNat (id.toNat / 2 ^ 8)) (.ofNat id.toNat) =
      id := by
  apply UInt32.toNat_inj.mp
  rw [u32_from_masked, u32_from_put, Nat.mod_eq_of_lt small]

theorem header_length (len : Nat) (frameType : FrameType) (flags : UInt8) (id : UInt32) :
    (frameHeader len frameType flags id).length = frameHeaderSize := rfl

theorem parse_header (len : Nat) (frameType : FrameType) (flags : UInt8) (id : UInt32) (rest : Bytes) (short : len < 2 ^ 24)
    (small : id.toNat < 2 ^ 31) :
    Frame.parse (frameHeader len frameType flags id ++ rest) =
      if rest.length < len then (.ok none, frameHeader len frameType flags id ++ rest)
      else
        match parsePayload frameType flags id (rest.take len) with
        | .error e => (.error e, rest.drop len)
        | .ok frame => (.ok (some frame), rest.drop len) := by
  simp only [frameHeader, putU32, List.cons_append, List.nil_append, Frame.parse, length_bytes len short, type_round_trip,
    id_round_trip id small, List.length_cons, frameHeaderSize]
  by_cases cut : rest.length < len
  · rw [if_pos cut, if_pos (by omega)]
  · exact (if_neg (by omega)).trans (if_neg cut).symm

theorem parse_short (buf : Bytes) (short : buf.length < frameHeaderSize) : Frame.parse buf = (.ok none, buf) := by
  unfold Frame.parse
  split
  · simp only [List.length_cons, frameHeaderSize] at short
    omega
  · rfl

theorem parse_settings_pairs (pairs : List (UInt16 × UInt32)) :
    parseSettings (pairs.flatMap fun (id, value) => putU16 id ++ putU32 value) = pairs := by
  induction pairs with
  | nil => rfl
  | cons pair rest ih =>
      rw [List.flatMap_cons]
      simp only [putU16, putU32, List.cons_append, List.nil_append, parseSettings, u16_from_put, u32_from_put] at ih ⊢
      rw [ih]

theorem single_flag (set : Bool) (flag : UInt8) (real : flag &&& flag ≠ 0) :
    (if set then flag else 0) &&& flag ≠ 0 ↔ set = true := by
  cases set with
  | false => simp
  | true => simpa using real

theorem headers_flags (endStream endHeaders : Bool) :
    (Frame.headers 0 endStream endHeaders []).parts.2.1 &&& endStreamFlag ≠ 0 ↔ endStream = true := by
  cases endStream <;> cases endHeaders <;> decide

theorem headers_flags_end (endStream endHeaders : Bool) :
    (Frame.headers 0 endStream endHeaders []).parts.2.1 &&& endHeadersFlag ≠ 0 ↔ endHeaders = true := by
  cases endStream <;> cases endHeaders <;> decide

theorem vector_bytes (bytes : Vector UInt8 8) : ∃ p0 p1 p2 p3 p4 p5 p6 p7, bytes = #v[p0, p1, p2, p3, p4, p5, p6, p7] := by
  obtain ⟨⟨bytes⟩, eight⟩ := bytes
  match bytes, eight with
  | [p0, p1, p2, p3, p4, p5, p6, p7], _ => exact ⟨p0, p1, p2, p3, p4, p5, p6, p7, rfl⟩

theorem exclusive_round_trip (exclusive : Bool) (dependency : UInt32) (small : dependency.toNat < 2 ^ 31) :
    ∃ p0 p1 p2 p3, putU32 (if exclusive then dependency ||| 0x80000000 else dependency) = [p0, p1, p2, p3] ∧
      (p0 &&& 0x80 ≠ 0 ↔ exclusive = true) ∧ u32FromBe (p0 &&& 0x7f) p1 p2 p3 = dependency := by
  refine ⟨_, _, _, _, rfl, ?_, ?_⟩
  · rw [top_bit, byte_low]
    cases exclusive with
    | false =>
        simp only [Bool.false_eq_true, if_false, iff_false]
        omega
    | true =>
        simp only [if_true, iff_true, high_bit_value dependency small]
        omega
  · apply UInt32.toNat_inj.mp
    rw [u32_from_masked, u32_from_put]
    cases exclusive with
    | false => exact Nat.mod_eq_of_lt small
    | true =>
        simp only [if_true, high_bit_value dependency small]
        omega

theorem parse_payload_parts (frame : Frame) (fits : frame.Fits) :
    parsePayload frame.parts.1 frame.parts.2.1 frame.parts.2.2.1 frame.payload = .ok frame := by
  obtain ⟨_, _, bounded⟩ := fits
  cases frame with
  | data streamId endStream bytes =>
      simp only [Frame.parts, Frame.payload, parsePayload, single_flag endStream endStreamFlag (by decide),
        Bool.decide_eq_true]
  | headers streamId endStream endHeaders headerBlock =>
      have flags := headers_flags endStream endHeaders
      have flagsEnd := headers_flags_end endStream endHeaders
      simp only [Frame.parts] at flags flagsEnd
      simp only [Frame.parts, Frame.payload, parsePayload, flags, flagsEnd, Bool.decide_eq_true]
  | settings ack pairs =>
      simp only [Frame.parts, Frame.payload, parsePayload, parse_settings_pairs, single_flag ack ackFlag (by decide),
        Bool.decide_eq_true]
  | windowUpdate streamId increment =>
      simp only [Frame.parts, Frame.payload, putU32, parsePayload, low_bits_same increment bounded,
        id_round_trip increment bounded]
  | rstStream streamId errorCode => simp only [Frame.parts, Frame.payload, putU32, parsePayload, u32_from_put]
  | continuation streamId endHeaders headerBlock =>
      simp only [Frame.parts, Frame.payload, parsePayload, single_flag endHeaders endHeadersFlag (by decide),
        Bool.decide_eq_true]
  | pushPromise streamId promisedStreamId headerBlock =>
      simp only [Frame.parts, Frame.payload, putU32, List.cons_append, List.nil_append, parsePayload,
        low_bits_same promisedStreamId bounded, id_round_trip promisedStreamId bounded]
  | goAway lastStreamId errorCode debugData =>
      simp only [Frame.parts, Frame.payload, putU32, List.cons_append, List.nil_append, parsePayload,
        low_bits_same lastStreamId bounded, id_round_trip lastStreamId bounded, u32_from_put]
  | ping ack bytes =>
      obtain ⟨p0, p1, p2, p3, p4, p5, p6, p7, rfl⟩ := vector_bytes bytes
      simp only [Frame.parts, Frame.payload, Vector.toList_mk, parsePayload, single_flag ack ackFlag (by decide),
        Bool.decide_eq_true]
  | priority streamId exclusive dependency weight =>
      obtain ⟨p0, p1, p2, p3, written, flag, value⟩ := exclusive_round_trip exclusive dependency bounded
      simp only [Frame.parts, Frame.payload, written, List.cons_append, List.nil_append, parsePayload, flag, value,
        Bool.decide_eq_true]

def Frame.wire (frame : Frame) : Bytes := frame.serialize []

theorem wire_parts (frame : Frame) :
    frame.wire = frameHeader frame.payload.length frame.parts.1 frame.parts.2.1 frame.parts.2.2.1 ++ frame.payload := rfl

theorem serialize_appends (frame : Frame) (buf : Bytes) : frame.serialize buf = buf ++ frame.wire := by
  rw [wire_parts, ← List.append_assoc]
  rfl

theorem parts_id (frame : Frame) : frame.parts.2.2.1 = frame.streamId := by
  cases frame <;> rfl

theorem wire_nonempty (frame : Frame) : frame.wire ≠ [] := by
  rw [wire_parts, frameHeader]
  exact List.cons_ne_nil _ _

theorem parse_wire (frame : Frame) (suffix : Bytes) (fits : frame.Fits) :
    Frame.parse (frame.wire ++ suffix) = (.ok (some frame), suffix) := by
  have payload := parse_payload_parts frame fits
  rw [wire_parts, List.append_assoc, parse_header _ _ _ _ _ fits.2.1 (by rw [parts_id]; exact fits.1)]
  rw [if_neg (by rw [List.length_append]; omega), List.take_left, List.drop_left, payload]

theorem parse_cut_wire (frame : Frame) (front rest : Bytes) (fits : frame.Fits) (cut : frame.wire = front ++ rest)
    (missing : rest ≠ []) : Frame.parse front = (.ok none, front) := by
  by_cases short : front.length < frameHeaderSize
  · exact parse_short front short
  · rw [wire_parts] at cut
    obtain ⟨body, rfl, payload⟩ : ∃ body,
        front = frameHeader frame.payload.length frame.parts.1 frame.parts.2.1 frame.parts.2.2.1 ++ body ∧
          frame.payload = body ++ rest := by
      rcases List.append_eq_append_iff.mp cut with ⟨body, inFront, behind⟩ | ⟨body, inFront, behind⟩
      · exact ⟨body, inFront, behind⟩
      · have lengths := congrArg List.length inFront
        rw [List.length_append, header_length] at lengths
        obtain rfl : body = [] := List.length_eq_zero_iff.mp (by omega)
        exact ⟨[], by simpa using inFront.symm, by simpa using behind.symm⟩
    have nonempty := List.length_pos_iff.mpr missing
    have lengths := congrArg List.length payload
    rw [List.length_append] at lengths
    rw [parse_header _ _ _ _ _ fits.2.1 (by rw [parts_id]; exact fits.1), if_pos (by omega)]

theorem frames_delimit : Framing.Delimits Frame.parse Frame.wire Frame.Fits :=
  ⟨wire_nonempty, rfl, parse_wire, parse_cut_wire⟩

end Ners.H2
