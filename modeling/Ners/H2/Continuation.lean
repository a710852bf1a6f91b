import Ners.H2.Session
import Ners.Hpack.Compose

set_option autoImplicit false

namespace Ners.H2

open Hpack (Header HpackDecoder decode_append)

def continuations (streamId : UInt32) : List Bytes → List Frame
  | [] => []
  | [last] => [.continuation streamId true last]
  | fragment :: more => .continuation streamId false fragment :: continuations streamId more

-- A header block in fragments, of which the last one says that it is the last.
def fragmented (streamId : UInt32) (endStream : Bool) (first : Bytes) (more : List Bytes) : List Frame :=
  .headers streamId endStream false first :: continuations streamId more

theorem continuations_ignored (conn : H2Connection) (streamId : UInt32) (fragments : List Bytes) :
    conn.processAll (continuations streamId fragments) = .ok (.ok (), conn) := by
  fun_induction continuations streamId fragments with
  | case1 => rfl
  | case2 last => rfl
  | case3 fragment more _ ih => exact ih

theorem received_headers (stream : Stream) (headers : List Header) (endStream : Bool) :
    (stream.receiveHeaders headers endStream).requestHeaders = headers := by
  rw [Stream.receiveHeaders]
  cases endStream with
  | false => rfl
  | true => exact half_close_headers _

theorem process_fragmented (conn : H2Connection) (streamId : UInt32) (endStream : Bool) (first : Bytes) (more : List Bytes)
    (after : H2Connection) :
    conn.processAll (fragmented streamId endStream first more) = .ok (.ok (), after) ↔
      ∃ headers decoder, conn.hpackDecoder.decode first = .ok (.ok headers, decoder) ∧
        after = conn.headersDecoded streamId endStream headers decoder := by
  rw [fragmented, H2Connection.processAll]
  rcases decoded : conn.hpackDecoder.decode first with fault | ⟨e | headers, decoder⟩
  · simp [H2Connection.processFrame, decoded]
  · simp [H2Connection.processFrame, decoded]
  · rw [process_headers conn streamId endStream false first headers decoder decoded]
    simp only [continuations_ignored]
    constructor
    · intro same
      cases same
      exact ⟨headers, decoder, rfl, rfl⟩
    · rintro ⟨_, _, same, rfl⟩
      cases same
      rfl

-- A block in fragments leaves the connection as the whole block does.
def H2Connection.FragmentsAgree (conn : H2Connection) (streamId : UInt32) (endStream : Bool) (first : Bytes)
    (more : List Bytes) : Prop :=
  ∃ whole split, conn.processFrame (.headers streamId endStream true (first ++ more.flatten)) = .ok (.ok (), whole) ∧
    conn.processAll (fragmented streamId endStream first more) = .ok (.ok (), split) ∧
    split.hpackDecoder = whole.hpackDecoder ∧ split.streams = whole.streams ∧ split.lastStreamId = whole.lastStreamId

theorem fragments_agree_headers (conn : H2Connection) (streamId : UInt32) (endStream : Bool) (first : Bytes)
    (more : List Bytes) (headers : List Header) (decoder : HpackDecoder)
    (decoded : conn.hpackDecoder.decode (first ++ more.flatten) = .ok (.ok headers, decoder)) :
    conn.FragmentsAgree streamId endStream first more ↔ conn.hpackDecoder.decode first = .ok (.ok headers, decoder) := by
  have processed := process_headers conn streamId endStream true _ headers decoder decoded
  constructor
  · rintro ⟨whole, split, also, fragments, tables, streams, _⟩
    cases processed.symm.trans also
    obtain ⟨front, d, alone, rfl⟩ := (process_fragmented conn streamId endStream first more split).mp fragments
    obtain rfl : d = decoder := tables
    have fields := congrArg (fun streams : Streams => (streams.lookup streamId).map Stream.requestHeaders) streams
    simp only [H2Connection.headersDecoded, AList.lookup_insert, Option.map_some, received_headers, Option.some.injEq] at fields
    rw [alone, fields]
  · intro alone
    exact ⟨_, _, processed, (process_fragmented conn streamId endStream first more _).mpr ⟨headers, decoder, alone, rfl⟩,
      rfl, rfl, rfl⟩

theorem fragments_agree_iff (conn : H2Connection) (streamId : UInt32) (endStream : Bool) (first : Bytes) (more : List Bytes)
    (headers : List Header) (decoder : HpackDecoder)
    (decoded : conn.hpackDecoder.decode (first ++ more.flatten) = .ok (.ok headers, decoder)) :
    conn.FragmentsAgree streamId endStream first more ↔
      ∃ front d, conn.hpackDecoder.decode first = .ok (.ok front, d) ∧ d.decode more.flatten = .ok (.ok [], d) := by
  rw [fragments_agree_headers conn streamId endStream first more headers decoder decoded]
  have joined (front : List Header) (d : HpackDecoder) (alone : conn.hpackDecoder.decode first = .ok (.ok front, d)) :=
    (decode_append _ _ first more.flatten front alone).symm.trans decoded
  constructor
  · intro alone
    refine ⟨headers, decoder, alone, ?_⟩
    have both := joined headers decoder alone
    rcases rest : decoder.decode more.flatten with fault | ⟨e | back, d⟩
    · simp [rest, Hpack.prepend] at both
    · simp [rest, Hpack.prepend] at both
    · simp only [rest, Hpack.prepend, Except.ok.injEq, Prod.mk.injEq] at both
      obtain ⟨same, rfl⟩ := both
      rw [List.append_right_eq_self.mp same]
  · rintro ⟨front, d, alone, rest⟩
    have both := joined front d alone
    simp only [rest, Hpack.prepend, List.append_nil, Except.ok.injEq, Prod.mk.injEq] at both
    obtain ⟨rfl, rfl⟩ := both
    exact alone

theorem update_fragments_agree :
    (H2Connection.new {}).FragmentsAgree 1 false [0x82] [[0x3f], [0xe1, 0x1f]] :=
  (fragments_agree_iff (.new {}) 1 false [0x82] [[0x3f], [0xe1, 0x1f]] [(":method", "GET")] (.new 4096) rfl).mpr
    ⟨[(":method", "GET")], .new 4096, rfl, rfl⟩

-- Two headers, of which the second comes in a CONTINUATION frame.
theorem second_fragment_lost :
    (H2Connection.new {}).hpackDecoder.decode [0x82, 0x84] = .ok (.ok [(":method", "GET"), (":path", "/")], .new 4096) ∧
      ¬ (H2Connection.new {}).FragmentsAgree 1 true [0x82] [[0x84]] := by
  refine ⟨rfl, fun agree => ?_⟩
  have alone := (fragments_agree_headers (.new {}) 1 true [0x82] [[0x84]] [(":method", "GET"), (":path", "/")] (.new 4096) rfl).mp agree
  have other : (H2Connection.new {}).hpackDecoder.decode [0x82] = .ok (.ok [(":method", "GET")], .new 4096) := rfl
  cases other.symm.trans alone

end Ners.H2
