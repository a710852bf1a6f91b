import Ners.H2.Connection
import Ners.H2.FrameCodec
import Ners.Hpack.RoundTrip

set_option autoImplicit false

namespace Ners.H2

open Hpack (Header HpackEncoder AllocatedHeaders)

inductive SendCall where
  | headers (streamId : UInt32) (headers : List Header) (endStream : Bool)
  | data (streamId : UInt32) (data : Bytes) (endStream : Bool)

def SendCall.streamId : SendCall → UInt32
  | .headers id _ _ | .data id _ _ => id

def SendCall.endStream : SendCall → Bool
  | .headers _ _ endStream | .data _ _ endStream => endStream

def H2Connection.send (conn : H2Connection) : SendCall → H2Connection
  | .headers streamId headers endStream => conn.sendHeaders streamId headers endStream
  | .data streamId data endStream => conn.sendData streamId data endStream

def H2Connection.sendAll (conn : H2Connection) (calls : List SendCall) : H2Connection := calls.foldl H2Connection.send conn

-- process_frame on each frame in turn, up to the first that does not succeed.
def H2Connection.processAll (conn : H2Connection) : List Frame → Except Fault (Except H2Error Unit × H2Connection)
  | [] => .ok (.ok (), conn)
  | frame :: later =>
      match conn.processFrame frame with
      | .error fault => .error fault
      | .ok (.error e, conn) => .ok (.error e, conn)
      | .ok (.ok _, conn) => conn.processAll later

def serializeAll (frames : List Frame) : Bytes := frames.foldl (fun buf frame => frame.serialize buf) []

def headersSent (id : UInt32) (calls : List SendCall) : Option (List Header) :=
  calls.findSome? fun
    | .headers other headers _ => if other = id then some headers else none
    | .data _ _ _ => none

def bodySent (id : UInt32) (calls : List SendCall) : Bytes :=
  calls.flatMap fun
    | .headers _ _ _ => []
    | .data other data _ => if other = id then data else []

def bytesSent (calls : List SendCall) : Nat :=
  (calls.map fun
    | .headers _ _ _ => 0
    | .data _ data _ => data.length).sum

def endSent (id : UInt32) (calls : List SendCall) : Bool := calls.any fun call => call.streamId = id ∧ call.endStream = true

-- HEADERS come first on their stream and once; data follow them and come
-- before the end.
def SendCall.Follows (call : SendCall) (earlier : List SendCall) : Prop :=
  match call with
  | .headers id _ _ => ∀ other ∈ earlier, other.streamId ≠ id
  | .data id _ _ => (headersSent id earlier).isSome = true ∧ endSent id earlier = false

def OrderedAfter (earlier : List SendCall) : List SendCall → Prop
  | [] => True
  | call :: later => call.Follows earlier ∧ OrderedAfter (earlier ++ [call]) later

instance (call : SendCall) (earlier : List SendCall) : Decidable (call.Follows earlier) :=
  match call with
  | .headers id _ _ => inferInstanceAs (Decidable (∀ other ∈ earlier, other.streamId ≠ id))
  | .data id _ _ => inferInstanceAs (Decidable ((headersSent id earlier).isSome = true ∧ endSent id earlier = false))

instance orderedDecidable (earlier : List SendCall) : (calls : List SendCall) → Decidable (OrderedAfter earlier calls)
  | [] => isTrue trivial
  | call :: later =>
      have := orderedDecidable (earlier ++ [call]) later
      inferInstanceAs (Decidable (call.Follows earlier ∧ OrderedAfter (earlier ++ [call]) later))

def SendCall.Allocated : SendCall → Prop
  | .headers _ fields _ => AllocatedHeaders fields
  | .data _ _ _ => True

instance (call : SendCall) : Decidable call.Allocated :=
  match call with
  | .headers _ fields _ => inferInstanceAs (Decidable (AllocatedHeaders fields))
  | .data _ _ _ => isTrue trivial

def SendCall.frame (encoder : HpackEncoder) : SendCall → Frame × HpackEncoder
  | .headers id fields endStream => (.headers id endStream true (encoder.encode fields).1, (encoder.encode fields).2)
  | .data id bytes endStream => (.data id endStream bytes, encoder)

def sentFrames (encoder : HpackEncoder) : List SendCall → List Frame
  | [] => []
  | call :: later => (call.frame encoder).1 :: sentFrames (call.frame encoder).2 later

theorem send_frame (conn : H2Connection) (call : SendCall) :
    (conn.send call).outgoing = conn.outgoing ++ [(call.frame conn.hpackEncoder).1] ∧
      (conn.send call).hpackEncoder = (call.frame conn.hpackEncoder).2 := by
  cases call with
  | headers id fields endStream => exact ⟨rfl, rfl⟩
  | data id bytes endStream => exact ⟨rfl, rfl⟩

theorem send_all_frames (conn : H2Connection) (calls : List SendCall) :
    (conn.sendAll calls).outgoing = conn.outgoing ++ sentFrames conn.hpackEncoder calls := by
  induction calls generalizing conn with
  | nil => simp [H2Connection.sendAll, sentFrames]
  | cons call later ih =>
      have first := send_frame conn call
      have rest := ih (conn.send call)
      rw [first.1, first.2, List.append_assoc] at rest
      exact rest

theorem headers_sent_append (id : UInt32) (calls more : List SendCall) :
    headersSent id (calls ++ more) = (headersSent id calls).or (headersSent id more) := List.findSome?_append

theorem body_sent_append (id : UInt32) (calls more : List SendCall) :
    bodySent id (calls ++ more) = bodySent id calls ++ bodySent id more := List.flatMap_append

theorem end_sent_append (id : UInt32) (calls more : List SendCall) :
    endSent id (calls ++ more) = (endSent id calls || endSent id more) := List.any_append

theorem other_stream (id : UInt32) (call : SendCall) (other : call.streamId ≠ id) :
    headersSent id [call] = none ∧ bodySent id [call] = [] ∧ endSent id [call] = false := by
  cases call with
  | headers streamId headers endStream =>
      simp only [SendCall.streamId] at other
      simp [headersSent, bodySent, endSent, SendCall.streamId, other]
  | data streamId data endStream =>
      simp only [SendCall.streamId] at other
      simp [headersSent, bodySent, endSent, SendCall.streamId, other]

theorem untouched_stream (id : UInt32) (calls : List SendCall) (others : ∀ call ∈ calls, call.streamId ≠ id) :
    headersSent id calls = none ∧ bodySent id calls = [] ∧ endSent id calls = false := by
  induction calls with
  | nil => exact ⟨rfl, rfl, rfl⟩
  | cons call later ih =>
      have first := other_stream id call (others call List.mem_cons_self)
      have rest := ih (fun other member => others other (List.mem_cons_of_mem _ member))
      have parts : call :: later = [call] ++ later := rfl
      rw [parts, headers_sent_append, body_sent_append, end_sent_append]
      simp [first, rest]

-- `initial` is the receiver's initial window, from which i32 subtraction takes
-- the lengths of the data.
structure StreamCarries (initial : Int32) (id : UInt32) (calls : List SendCall) (stream : Stream) : Prop where
  headers : headersSent id calls = some stream.requestHeaders
  body : stream.requestBody = bodySent id calls
  state : stream.state = if endSent id calls then .halfClosedRemote else .open
  window : stream.recvWindow = initial - .ofNat (bodySent id calls).length

structure Reconstructed (initial : Int32) (calls : List SendCall) (conn : H2Connection) : Prop where
  streams : ∀ id, match conn.getStream id with
    | none => headersSent id calls = none
    | some stream => StreamCarries initial id calls stream
  window : conn.recvWindow = initial - .ofNat (bytesSent calls)
  settings : conn.localSettings.initialWindowSize.toInt32 = initial

theorem window_shrinks (initial : Int32) (m n : Nat) : initial - .ofNat m - .ofNat n = initial - .ofNat (m + n) := by
  rw [Int32.sub_sub, Int32.ofNat_add]

theorem streams_step (initial : Int32) (conn conn' : H2Connection) (done : List SendCall) (call : SendCall) (stream : Stream)
    (kept : Reconstructed initial done conn) (same : conn'.streams = conn.streams.insert call.streamId stream)
    (carries : StreamCarries initial call.streamId (done ++ [call]) stream) (id : UInt32) :
    match conn'.getStream id with
    | none => headersSent id (done ++ [call]) = none
    | some stream => StreamCarries initial id (done ++ [call]) stream := by
  by_cases mine : id = call.streamId
  · subst mine
    rw [H2Connection.getStream, same, AList.lookup_insert]
    exact carries
  · obtain ⟨noHeaders, noBody, noEnd⟩ := other_stream id call (Ne.symm mine)
    have before := kept.streams id
    rw [H2Connection.getStream] at before ⊢
    rw [same, AList.lookup_insert_ne mine]
    cases found : conn.streams.lookup id with
    | none =>
        simp only [found] at before ⊢
        rw [headers_sent_append, before, noHeaders, Option.or_none]
    | some stream =>
        simp only [found] at before ⊢
        have body : bodySent id (done ++ [call]) = bodySent id done := by rw [body_sent_append, noBody, List.append_nil]
        refine ⟨?_, ?_, ?_, ?_⟩
        · rw [headers_sent_append, before.headers, Option.some_or]
        · rw [body, before.body]
        · rw [end_sent_append, noEnd, Bool.or_false, before.state]
        · rw [body, before.window]

@[simp] theorem half_close_headers (s : Stream) : s.halfCloseRemote.requestHeaders = s.requestHeaders :=
  half_close_remote_keeps Stream.requestHeaders (fun _ _ => rfl) s

@[simp] theorem half_close_body (s : Stream) : s.halfCloseRemote.requestBody = s.requestBody :=
  half_close_remote_keeps Stream.requestBody (fun _ _ => rfl) s

@[simp] theorem half_close_window (s : Stream) : s.halfCloseRemote.recvWindow = s.recvWindow :=
  half_close_remote_keeps Stream.recvWindow (fun _ _ => rfl) s

theorem half_close_open (s : Stream) (state : s.state = .open) : s.halfCloseRemote.state = .halfClosedRemote := by
  rw [Stream.halfCloseRemote, state]

theorem receive_headers_new (id : UInt32) (initial : Int32) (headers : List Header) (endStream : Bool) :
    let stream := (Stream.new id initial).receiveHeaders headers endStream
    stream.requestHeaders = headers ∧ stream.requestBody = [] ∧
      stream.state = (if endStream then .halfClosedRemote else .open) ∧ stream.recvWindow = initial := by
  cases endStream <;> exact ⟨rfl, rfl, rfl, rfl⟩

theorem receive_data_open (stream : Stream) (data : Bytes) (endStream : Bool) (state : stream.state = .open) :
    let after := stream.receiveData data endStream
    after.requestHeaders = stream.requestHeaders ∧ after.requestBody = stream.requestBody ++ data ∧
      after.state = (if endStream then .halfClosedRemote else .open) ∧
        after.recvWindow = stream.recvWindow - .ofNat data.length := by
  cases endStream with
  | false => exact ⟨rfl, rfl, state, rfl⟩
  | true =>
      simp only [Stream.receiveData, if_true, half_close_headers, half_close_body, half_close_window, true_and, and_true]
      exact half_close_open _ state

theorem headers_received (initial : Int32) (conn : H2Connection) (encoder : HpackEncoder) (done : List SendCall)
    (id : UInt32) (headers : List Header) (endStream : Bool) (kept : Reconstructed initial done conn)
    (first : ∀ other ∈ done, other.streamId ≠ id) (short : AllocatedHeaders headers) :
    ∃ conn', conn.processFrame (.headers id endStream true (encoder.encode headers).1) = .ok (.ok (), conn') ∧
      Reconstructed initial (done ++ [.headers id headers endStream]) conn' := by
  obtain ⟨decoder, walk, _⟩ := Hpack.decode_encoded headers short encoder conn.hpackDecoder
  have decoded := Hpack.walk_to_end _ _ _ _ walk
  obtain ⟨noHeaders, noBody, noEnd⟩ := untouched_stream id done first
  have fresh : conn.streams.lookup id = none := by
    have before := kept.streams id
    cases found : conn.streams.lookup id with
    | none => rfl
    | some stream =>
        simp only [H2Connection.getStream, found] at before
        rw [before.headers] at noHeaders
        cases noHeaders
  obtain ⟨fields, body, state, window⟩ := receive_headers_new id initial headers endStream
  simp only [H2Connection.processFrame, decoded, fresh, Option.getD_none, kept.settings]
  refine ⟨_, rfl, streams_step initial conn _ done _ _ kept rfl ⟨?_, ?_, ?_, ?_⟩, ?_, kept.settings⟩
  · rw [headers_sent_append, SendCall.streamId, noHeaders, fields]
    simp [headersSent]
  · rw [body_sent_append, SendCall.streamId, noBody, body]
    rfl
  · rw [end_sent_append, SendCall.streamId, noEnd, state]
    simp [endSent, SendCall.streamId, SendCall.endStream]
  · rw [body_sent_append, SendCall.streamId, noBody, window]
    simp [bodySent]
  · simpa [bytesSent] using kept.window

theorem data_received (initial : Int32) (conn : H2Connection) (done : List SendCall) (id : UInt32) (data : Bytes)
    (endStream : Bool) (kept : Reconstructed initial done conn) (opened : (headersSent id done).isSome = true)
    (going : endSent id done = false) :
    ∃ conn', conn.processFrame (.data id endStream data) = .ok (.ok (), conn') ∧
      Reconstructed initial (done ++ [.data id data endStream]) conn' := by
  have before := kept.streams id
  cases found : conn.streams.lookup id with
  | none =>
      simp only [H2Connection.getStream, found] at before
      rw [before] at opened
      cases opened
  | some stream =>
      simp only [H2Connection.getStream, found] at before
      have isOpen : stream.state = .open := by rw [before.state, going]; rfl
      obtain ⟨fields, body, state, window⟩ := receive_data_open stream data endStream isOpen
      have added : bodySent id [.data id data endStream] = data := by simp [bodySent]
      simp only [H2Connection.processFrame, found, Stream.canReceive, isOpen]
      refine ⟨_, rfl, streams_step initial conn _ done _ _ kept rfl ⟨?_, ?_, ?_, ?_⟩, ?_, kept.settings⟩
      · rw [headers_sent_append, SendCall.streamId, before.headers, fields, Option.some_or]
      · rw [body_sent_append, SendCall.streamId, body, before.body, added]
      · rw [end_sent_append, SendCall.streamId, going, state]
        simp [endSent, SendCall.streamId, SendCall.endStream]
      · rw [body_sent_append, SendCall.streamId, window, before.window, added, window_shrinks, List.length_append]
      · simp only [kept.window, window_shrinks]
        simp [bytesSent]

theorem all_received (initial : Int32) (conn : H2Connection) (encoder : HpackEncoder) (done calls : List SendCall)
    (kept : Reconstructed initial done conn) (ordered : OrderedAfter done calls)
    (strings : ∀ call ∈ calls, call.Allocated) :
    ∃ conn', conn.processAll (sentFrames encoder calls) = .ok (.ok (), conn') ∧ Reconstructed initial (done ++ calls) conn' := by
  induction calls generalizing conn encoder done with
  | nil => exact ⟨conn, rfl, by rwa [List.append_nil]⟩
  | cons call later ih =>
      obtain ⟨follows, orderedLater⟩ := ordered
      obtain ⟨next, processed, step⟩ : ∃ next, conn.processFrame (call.frame encoder).1 = .ok (.ok (), next) ∧
          Reconstructed initial (done ++ [call]) next := by
        cases call with
        | headers id headers endStream =>
            exact headers_received initial conn encoder done id headers endStream kept follows
              (strings _ List.mem_cons_self)
        | data id data endStream => exact data_received initial conn done id data endStream kept follows.1 follows.2
      have parts : done ++ call :: later = done ++ [call] ++ later := by simp
      rw [parts]
      obtain ⟨conn', rest, final⟩ := ih next (call.frame encoder).2 (done ++ [call]) step orderedLater
        (fun other member => strings other (List.mem_cons_of_mem _ member))
      exact ⟨conn', by rw [sentFrames, H2Connection.processAll, processed]; exact rest, final⟩

theorem new_reconstructed (settings : H2Settings) :
    Reconstructed settings.initialWindowSize.toInt32 [] (.new settings) :=
  ⟨fun _ => rfl, by simp [H2Connection.new, bytesSent], rfl⟩

theorem body_within (id : UInt32) (calls : List SendCall) : (bodySent id calls).length ≤ bytesSent calls := by
  induction calls with
  | nil => exact Nat.le_refl _
  | cons call later ih =>
      cases call with
      | headers other headers endStream => simpa [bodySent, bytesSent] using ih
      | data other data endStream =>
          by_cases mine : other = id
          · simpa [bodySent, bytesSent, mine] using ih
          · simp only [bodySent, bytesSent, List.flatMap_cons, if_neg mine, List.nil_append, List.map_cons, List.sum_cons] at ih ⊢
            omega

theorem window_exact (initial : UInt32) (n : Nat) (small : initial.toNat < 2 ^ 31) (few : n < 2 ^ 31) :
    (initial.toInt32 - .ofNat n).toInt = initial.toNat - n := by
  have start : initial.toInt32.toInt = initial.toNat := by
    have half : 2 * initial.toBitVec.toNat < 2 ^ 32 := by
      rw [UInt32.toNat_toBitVec]
      omega
    exact BitVec.toInt_eq_toNat_of_lt half
  rw [Int32.toInt_sub, start, Int32.toInt_ofNat_of_lt few]
  exact Int.bmod_eq_of_le (by omega) (by omega)

def StreamsDelivered (calls : List SendCall) (conn : H2Connection) : Prop :=
  ∀ id, match headersSent id calls with
    | none => conn.getStream id = none
    | some headers => ∃ stream, conn.getStream id = some stream ∧ stream.requestHeaders = headers ∧
        stream.requestBody = bodySent id calls ∧ stream.state = if endSent id calls then .halfClosedRemote else .open

-- The subtractions from the receive windows came out exact, so a build that
-- checks them does not unwind either.
def WindowsExact (settings : H2Settings) (calls : List SendCall) (conn : H2Connection) : Prop :=
  conn.recvWindow.toInt = settings.initialWindowSize.toNat - bytesSent calls ∧
    ∀ id stream, conn.getStream id = some stream →
      stream.recvWindow.toInt = settings.initialWindowSize.toNat - (bodySent id calls).length

theorem reconstructed_streams (initial : Int32) (calls : List SendCall) (conn : H2Connection)
    (whole : Reconstructed initial calls conn) : StreamsDelivered calls conn := by
  intro id
  have here := whole.streams id
  cases found : conn.getStream id with
  | none =>
      simp only [found] at here
      simp only [here]
  | some stream =>
      simp only [found] at here
      simp only [here.headers]
      exact ⟨stream, rfl, rfl, here.body, here.state⟩

theorem reconstructed_windows (settings : H2Settings) (calls : List SendCall) (conn : H2Connection)
    (whole : Reconstructed settings.initialWindowSize.toInt32 calls conn) (few : bytesSent calls < 2 ^ 31)
    (small : settings.initialWindowSize.toNat < 2 ^ 31) : WindowsExact settings calls conn := by
  refine ⟨by rw [whole.window, window_exact _ _ small few], ?_⟩
  intro id stream found
  have here := whole.streams id
  have within := body_within id calls
  simp only [found] at here
  rw [here.window, window_exact _ _ small (by omega)]

theorem serialize_all_stream (frames : List Frame) : serializeAll frames = Framing.stream Frame.wire frames := by
  have front (buf : Bytes) : frames.foldl (fun buf frame => frame.serialize buf) buf = buf ++ Framing.stream Frame.wire frames := by
    induction frames generalizing buf with
    | nil => exact (List.append_nil buf).symm
    | cons frame later ih =>
        rw [List.foldl_cons, ih, serialize_appends, List.append_assoc]
        rfl
  exact front []

theorem sent_frames_fit (encoder : HpackEncoder) (calls : List SendCall) (ids : ∀ call ∈ calls, call.streamId.toNat < 2 ^ 31)
    (short : ∀ frame ∈ sentFrames encoder calls, frame.payload.length < 2 ^ 24) :
    ∀ frame ∈ sentFrames encoder calls, frame.Fits := by
  induction calls generalizing encoder with
  | nil => simp [sentFrames]
  | cons call later ih =>
      intro frame member
      rcases List.mem_cons.mp member with rfl | older
      · have size := short _ List.mem_cons_self
        have small := ids call List.mem_cons_self
        cases call with
        | headers id headers endStream => exact ⟨small, size, trivial⟩
        | data id data endStream => exact ⟨small, size, trivial⟩
      · exact ih _ (fun other here => ids other (List.mem_cons_of_mem _ here))
          (fun other here => short other (List.mem_cons_of_mem _ here)) frame older

structure Sendable (sender : H2Connection) (calls : List SendCall) : Prop where
  ids : ∀ call ∈ calls, 1 ≤ call.streamId.toNat ∧ call.streamId.toNat < 2 ^ 31
  ordered : OrderedAfter [] calls
  strings : ∀ call ∈ calls, call.Allocated
  short : ∀ frame ∈ (sender.sendAll calls).takeOutgoing.1, frame.payload.length < 2 ^ 24
  total : bytesSent calls < 2 ^ 31

theorem transfer_reconstructs (sender : H2Connection) (calls : List SendCall) (settings : H2Settings) (chunks : List Bytes)
    (idle : sender.outgoing = []) (sendable : Sendable sender calls)
    (arrived : chunks.flatten = serializeAll (sender.sendAll calls).takeOutgoing.1) :
    ∃ frames conn', Framing.feed Frame.parse [] chunks = ⟨frames, none, []⟩ ∧
      (H2Connection.new settings).processAll frames = .ok (.ok (), conn') ∧ StreamsDelivered calls conn' ∧
      (settings.initialWindowSize.toNat < 2 ^ 31 → WindowsExact settings calls conn') := by
  have outgoing : (sender.sendAll calls).takeOutgoing.1 = sentFrames sender.hpackEncoder calls := by
    rw [H2Connection.takeOutgoing, send_all_frames, idle, List.nil_append]
  have short := sendable.short
  rw [outgoing] at short arrived
  have fits := sent_frames_fit _ calls (fun call member => (sendable.ids call member).2) short
  obtain ⟨conn', processed, whole⟩ :=
    all_received _ _ sender.hpackEncoder [] calls (new_reconstructed settings) sendable.ordered sendable.strings
  refine ⟨_, conn', Framing.feed_stream _ chunks frames_delimit fits ?_, processed, reconstructed_streams _ calls conn' whole,
    reconstructed_windows settings calls conn' whole sendable.total⟩
  rw [arrived, serialize_all_stream]

-- Two interleaved streams, one of them without data, cut inside a frame header.
def interleavedCalls : List SendCall := [
  .headers 1 [(":method", "POST"), ("x", "y")] false, .headers 3 [] true, .data 1 [0x61] false, .data 1 [0x62, 0x63] true]

theorem transfer_reconstructs_interleaved :
    ∃ frames conn', Framing.feed Frame.parse []
        [(serializeAll ((H2Connection.new {}).sendAll interleavedCalls).takeOutgoing.1).take 5,
          (serializeAll ((H2Connection.new {}).sendAll interleavedCalls).takeOutgoing.1).drop 5] = ⟨frames, none, []⟩ ∧
      (H2Connection.new {}).processAll frames = .ok (.ok (), conn') ∧ StreamsDelivered interleavedCalls conn' ∧
      ((65535 : UInt32).toNat < 2 ^ 31 → WindowsExact {} interleavedCalls conn') := by
  refine transfer_reconstructs (.new {}) interleavedCalls {} _ rfl ⟨by decide, by decide, by decide, by decide, by decide⟩ ?_
  rw [List.flatten_cons, List.flatten_cons, List.flatten_nil, List.append_nil, List.take_append_drop]

end Ners.H2
