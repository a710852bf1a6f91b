import Ners.Base.Runs
import Ners.H2.Effects

set_option autoImplicit false

namespace Ners.H2

open Hpack (Header HpackDecoder)
open Runs (Taken execute taken_first taken_later)

-- What can happen to a connection: a frame arrives or the server sends.
inductive Event where
  | receive (frame : Frame)
  | send (call : SendCall)

-- An error is returned beside the connection and the run goes on; only a fault ends it.
def H2Connection.step (conn : H2Connection) : Event → Option H2Connection
  | .receive frame =>
      match conn.processFrame frame with
      | .error _ => none
      | .ok (_, conn) => some conn
  | .send call => some (conn.send call)

-- What an event means to one stream. HEADERS are refused when their block is
-- not decoded.
inductive Signal where
  | headers (fields : List Header) (endStream : Bool)
  | refused (endStream : Bool)
  | data (bytes : Bytes) (endStream : Bool)
  | reset
  | sentEnd
deriving DecidableEq

def H2Connection.signal (conn : H2Connection) (id : UInt32) : Event → Option Signal
  | .receive (.headers streamId endStream _ headerBlock) =>
      match conn.hpackDecoder.decode headerBlock with
      | .ok (.ok fields, _) => if streamId = id then some (.headers fields endStream) else none
      | .ok (.error _, _) => if streamId = id then some (.refused endStream) else none
      | .error _ => none
  | .receive (.data streamId endStream bytes) => if streamId = id then some (.data bytes endStream) else none
  | .receive (.rstStream streamId _) => if streamId = id then some .reset else none
  | .receive _ => none
  | .send call => if call.streamId = id ∧ call.endStream = true then some .sentEnd else none

def signals (id : UInt32) (conn : H2Connection) : List Event → List Signal
  | [] => []
  | event :: later =>
      (conn.signal id event).toList ++
        match conn.step event with
        | none => []
        | some conn => signals id conn later

structure Request where
  state : StreamState
  headers : List Header
  body : Bytes
deriving DecidableEq

def Stream.request (stream : Stream) : Request := ⟨stream.state, stream.requestHeaders, stream.requestBody⟩

def H2Connection.request (conn : H2Connection) (id : UInt32) : Option Request := (conn.getStream id).map Stream.request

def StreamState.entered : StreamState → StreamState
  | .idle => .open
  | state => state

def StreamState.endReceive : StreamState → StreamState
  | .open => .halfClosedRemote
  | .halfClosedLocal => .closed
  | state => state

def StreamState.endSend : StreamState → StreamState
  | .open => .halfClosedLocal
  | .halfClosedRemote => .closed
  | state => state

def StreamState.receives (state : StreamState) : Bool := state = .open ∨ state = .halfClosedLocal

-- One stream by itself, without the connection around it.
def advance (request : Option Request) : Signal → Option Request
  | .headers fields endStream =>
      let request := request.getD ⟨.idle, [], []⟩
      let state := request.state.entered
      some ⟨if endStream then state.endReceive else state, fields, request.body⟩
  | .refused _ => request
  | .data bytes endStream => request.map fun request =>
      if request.state.receives then
        ⟨if endStream then request.state.endReceive else request.state, request.headers, request.body ++ bytes⟩
      else request
  | .reset => request.map fun request => { request with state := .closed }
  | .sentEnd => request.map fun request => { request with state := request.state.endSend }

theorem open_state (stream : Stream) : stream.open.state = stream.state.entered := by
  unfold Stream.open StreamState.entered
  cases state : stream.state <;> simp [state]

theorem half_close_remote_state (stream : Stream) : stream.halfCloseRemote.state = stream.state.endReceive := by
  unfold Stream.halfCloseRemote StreamState.endReceive
  cases state : stream.state <;> simp [state]

theorem half_close_local_request (stream : Stream) :
    stream.halfCloseLocal.request = ⟨stream.state.endSend, stream.requestHeaders, stream.requestBody⟩ := by
  unfold Stream.halfCloseLocal StreamState.endSend
  cases state : stream.state <;> simp [Stream.request, state]

theorem half_close_remote_request (stream : Stream) :
    stream.halfCloseRemote.request = ⟨stream.state.endReceive, stream.requestHeaders, stream.requestBody⟩ := by
  rw [Stream.request, half_close_remote_state, half_close_headers, half_close_body]

theorem receive_headers_request (stream : Stream) (fields : List Header) (endStream : Bool) :
    (stream.receiveHeaders fields endStream).request =
      ⟨if endStream then stream.state.entered.endReceive else stream.state.entered, fields, stream.requestBody⟩ := by
  have body := open_keeps Stream.requestBody (fun _ _ => rfl) stream
  cases endStream with
  | false => simp only [Stream.receiveHeaders, Stream.request, Bool.false_eq_true, if_false, open_state, body]
  | true => simp only [Stream.receiveHeaders, if_true, half_close_remote_request, open_state, body]

theorem receive_data_request (stream : Stream) (bytes : Bytes) (endStream : Bool) :
    (stream.receiveData bytes endStream).request =
      ⟨if endStream then stream.state.endReceive else stream.state, stream.requestHeaders, stream.requestBody ++ bytes⟩ := by
  cases endStream with
  | false => rfl
  | true => simp only [Stream.receiveData, if_true, half_close_remote_request]

def H2Connection.headersDecoded (conn : H2Connection) (streamId : UInt32) (endStream : Bool) (headers : List Header)
    (decoder : HpackDecoder) : H2Connection :=
  let stream := (conn.streams.lookup streamId).getD (.new streamId conn.localSettings.initialWindowSize.toInt32)
  { conn with
    hpackDecoder := decoder
    streams := conn.streams.insert streamId (stream.receiveHeaders headers endStream)
    lastStreamId := max conn.lastStreamId streamId }

theorem process_headers (conn : H2Connection) (streamId : UInt32) (endStream endHeaders : Bool) (headerBlock : Bytes)
    (headers : List Header) (decoder : HpackDecoder) (decoded : conn.hpackDecoder.decode headerBlock = .ok (.ok headers, decoder)) :
    conn.processFrame (.headers streamId endStream endHeaders headerBlock) =
      .ok (.ok (), conn.headersDecoded streamId endStream headers decoder) := by
  simp only [H2Connection.processFrame, decoded, H2Connection.headersDecoded]

def follow (request : Option Request) (history : List Signal) : Option Request := history.foldl advance request

theorem follow_append (request : Option Request) (early late : List Signal) :
    follow request (early ++ late) = follow (follow request early) late := List.foldl_append

theorem follow_one (request : Option Request) (signal : Signal) (mine : Prop) [Decidable mine] :
    follow request (if mine then some signal else none).toList = if mine then advance request signal else request := by
  by_cases yes : mine
  · rw [if_pos yes, if_pos yes]
    rfl
  · rw [if_neg yes, if_neg yes]
    rfl

theorem map_request (stream : Option Stream) (f : Stream → Stream) (g : Request → Request)
    (same : ∀ stream, (f stream).request = g stream.request) :
    (stream.map f).map Stream.request = (stream.map Stream.request).map g := by
  rw [Option.map_map, Option.map_map]
  congr 1
  funext stream
  exact same stream

-- A frame does to a stream what its signal says, and nothing else.
theorem stream_after_request (conn : H2Connection) (frame : Frame) (id : UInt32) :
    (conn.streamAfter id frame).map Stream.request = follow (conn.request id) (conn.signal id (.receive frame)).toList := by
  cases frame with
  | headers streamId endStream endHeaders headerBlock =>
      rcases decoded : conn.hpackDecoder.decode headerBlock with fault | ⟨e | fields, decoder⟩
      · simp only [H2Connection.streamAfter, H2Connection.signal, decoded]
        rfl
      · simp only [H2Connection.streamAfter, H2Connection.signal, decoded, follow_one, advance, ite_self]
        rfl
      · simp only [H2Connection.streamAfter, H2Connection.signal, decoded, follow_one, H2Connection.request]
        by_cases mine : streamId = id
        · rw [if_pos mine, if_pos mine, Option.map_some, receive_headers_request]
          cases conn.getStream id with
          | none => rfl
          | some stream => rfl
        · rw [if_neg mine, if_neg mine]
  | data streamId endStream bytes =>
      simp only [H2Connection.streamAfter, H2Connection.signal, follow_one, H2Connection.request]
      by_cases mine : streamId = id
      · rw [if_pos mine, if_pos mine]
        refine map_request _ _ _ fun stream => ?_
        have state : stream.canReceive = stream.request.state.receives := rfl
        by_cases receives : stream.canReceive = true
        · rw [if_pos receives, receive_data_request, if_pos (state.symm.trans receives)]
          rfl
        · rw [if_neg receives, if_neg (state ▸ receives)]
      · rw [if_neg mine, if_neg mine]
  | rstStream streamId errorCode =>
      simp only [H2Connection.streamAfter, H2Connection.signal, follow_one, H2Connection.request]
      by_cases mine : streamId = id
      · rw [if_pos mine, if_pos mine]
        exact map_request _ _ _ fun stream => rfl
      · rw [if_neg mine, if_neg mine]
  | windowUpdate streamId increment =>
      simp only [H2Connection.streamAfter]
      by_cases mine : streamId ≠ 0 ∧ streamId = id
      · rw [if_pos mine]
        exact unchanged_map _ _ _ fun stream => rfl
      · rw [if_neg mine]
        rfl
  | settings ack pairs =>
      cases ack with
      | true => rfl
      | false => exact unchanged_map _ _ _ (settle_keeps Stream.request (fun _ _ => rfl) pairs _)
  | ping ack bytes => rfl
  | goAway lastStreamId errorCode debugData => rfl
  | priority streamId exclusive dependency weight => rfl
  | pushPromise streamId promisedStreamId headerBlock => rfl
  | continuation streamId endHeaders headerBlock => rfl

theorem answer_request (call : SendCall) (stream : Stream) :
    (call.answer stream).request =
      if call.endStream then { stream.request with state := stream.state.endSend } else stream.request := by
  cases call with
  | headers streamId fields endStream =>
      cases endStream with
      | true => exact half_close_local_request _
      | false => rfl
  | data streamId bytes endStream =>
      cases endStream with
      | true => exact half_close_local_request _
      | false => rfl

theorem send_request (conn : H2Connection) (call : SendCall) (id : UInt32) :
    (conn.send call).request id = follow (conn.request id) (conn.signal id (.send call)).toList := by
  rw [H2Connection.signal, follow_one, H2Connection.request, send_stream, H2Connection.request]
  by_cases mine : call.streamId = id
  · rw [if_pos mine]
    cases ending : call.endStream with
    | true =>
        rw [if_pos ⟨mine, rfl⟩]
        refine map_request _ _ _ fun stream => ?_
        rw [answer_request, if_pos ending]
        rfl
    | false =>
        rw [if_neg fun both => Bool.false_ne_true both.2]
        refine unchanged_map _ _ _ fun stream => ?_
        rw [answer_request, ending, if_neg (by decide)]
  · rw [if_neg mine, if_neg fun both => mine both.1]

theorem receive_effect (conn conn' : H2Connection) (frame : Frame) (taken : conn.step (.receive frame) = some conn') :
    FrameEffect conn frame conn' := by
  rw [H2Connection.step] at taken
  rcases processed : conn.processFrame frame with fault | ⟨result, after⟩
  · simp only [processed, reduceCtorEq] at taken
  · simp only [processed, Option.some.injEq] at taken
    exact taken ▸ frame_effect conn after frame result processed

theorem step_request (conn conn' : H2Connection) (event : Event) (id : UInt32) (taken : conn.step event = some conn') :
    conn'.request id = follow (conn.request id) (conn.signal id event).toList := by
  cases event with
  | receive frame =>
      rw [H2Connection.request, (receive_effect conn conn' frame taken).streams]
      exact stream_after_request conn frame id
  | send call =>
      obtain rfl := Option.some.inj taken
      exact send_request conn call id

theorem step_local (conn conn' : H2Connection) (event : Event) (taken : conn.step event = some conn') :
    conn'.localSettings = conn.localSettings := by
  cases event with
  | receive frame => exact (receive_effect conn conn' frame taken).localSettings
  | send call =>
      obtain rfl := Option.some.inj taken
      cases call <;> rfl

theorem run_local (conn conn' : H2Connection) (events : List Event)
    (executed : execute H2Connection.step conn events = some conn') : conn'.localSettings = conn.localSettings := by
  induction events generalizing conn with
  | nil =>
      obtain rfl := Option.some.inj executed
      rfl
  | cons event later ih =>
      obtain ⟨middle, taken, rest⟩ := Option.bind_eq_some_iff.mp executed
      exact (ih middle rest).trans (step_local conn middle event taken)

theorem found_request (conn : H2Connection) (id : UInt32) (stream : Stream) (found : conn.getStream id = some stream) :
    conn.request id = some stream.request := by
  rw [H2Connection.request, found, Option.map_some]

theorem request_found (conn : H2Connection) (id : UInt32) (request : Request) (there : conn.request id = some request) :
    ∃ stream, conn.getStream id = some stream ∧ stream.request = request := by
  rw [H2Connection.request, Option.map_eq_some_iff] at there
  exact there

-- A stream in a connection is that stream by itself, on its own signals.
theorem run_request (conn conn' : H2Connection) (events : List Event) (id : UInt32)
    (executed : execute H2Connection.step conn events = some conn') :
    conn'.request id = follow (conn.request id) (signals id conn events) := by
  induction events generalizing conn with
  | nil =>
      obtain rfl := Option.some.inj executed
      rfl
  | cons event later ih =>
      obtain ⟨middle, taken, rest⟩ := Option.bind_eq_some_iff.mp executed
      rw [signals, taken, follow_append, ← step_request conn middle event id taken]
      exact ih middle rest

theorem signal_taken (id : UInt32) (start final : H2Connection) (events : List Event) (past : List Signal) (signal : Signal)
    (executed : execute H2Connection.step start events = some final) (within : past ++ [signal] <+: signals id start events) :
    ∃ before event conn conn', Taken H2Connection.step start events before event conn conn' ∧
      conn.signal id event = some signal ∧ signals id start before = past := by
  induction events generalizing start past with
  | nil =>
      have short := within.length_le
      simp only [List.length_append, List.length_singleton, signals, List.length_nil] at short
      omega
  | cons event later ih =>
      obtain ⟨middle, taken, rest⟩ := Option.bind_eq_some_iff.mp executed
      have further (past : List Signal) (within : past ++ [signal] <+: signals id middle later) :
          ∃ before other conn conn', Taken H2Connection.step start (event :: later) before other conn conn' ∧
            conn.signal id other = some signal ∧ signals id start before = (start.signal id event).toList ++ past := by
        obtain ⟨before, other, conn, conn', there, meant, same⟩ := ih middle past rest within
        refine ⟨event :: before, other, conn, conn', taken_later _ _ _ _ _ _ _ _ taken there, meant, ?_⟩
        rw [signals, taken, ← same]
      rw [signals, taken] at within
      cases first : start.signal id event with
      | none =>
          rw [first] at further within
          exact further past within
      | some opening =>
          rw [first] at further within
          cases past with
          | nil =>
              obtain ⟨rfl, _⟩ := List.cons_prefix_cons.mp within
              exact ⟨[], event, start, middle, taken_first _ _ _ _ taken, first, rfl⟩
          | cons other past =>
              obtain ⟨rfl, inside⟩ := List.cons_prefix_cons.mp within
              exact further past inside

end Ners.H2
