import Ners.H2.Transfer

set_option autoImplicit false

namespace Ners.H2

open Hpack (Header HpackDecoder)

-- The last value that a SETTINGS frame gives to one parameter.
def latest (key : UInt16) (old : UInt32) (pairs : List (UInt16 × UInt32)) : UInt32 :=
  pairs.foldl (fun old (id, value) => if id = key then value else old) old

-- What the loop over the settings of a frame does to one stream.
def Stream.settle (remembered : UInt32) : List (UInt16 × UInt32) → Stream → Stream
  | [], stream => stream
  | (id, value) :: rest, stream =>
      if id = 0x4 then Stream.settle value rest (stream.updateSendWindow (value.toInt32 - remembered.toInt32))
      else Stream.settle remembered rest stream

def Frame.peerSettings : Frame → List (UInt16 × UInt32)
  | .settings false pairs => pairs
  | _ => []

def Frame.connectionIncrement : Frame → Int32
  | .windowUpdate streamId increment => if streamId = 0 then increment.toInt32 else 0
  | _ => 0

-- The bytes of a frame that are taken in.
def H2Connection.accepts (conn : H2Connection) : Frame → Nat
  | .data streamId _ bytes => if (conn.getStream streamId).any Stream.canReceive then bytes.length else 0
  | _ => 0

def Frame.replies : Frame → List Frame
  | .settings false _ => [.settings true []]
  | .ping false bytes => [.ping true bytes]
  | _ => []

-- A stream of the map behind a frame.
def H2Connection.streamAfter (conn : H2Connection) (id : UInt32) : Frame → Option Stream
  | .headers streamId endStream _ headerBlock =>
      match conn.hpackDecoder.decode headerBlock with
      | .ok (.ok headers, _) =>
          if streamId = id then
            let stream := (conn.getStream id).getD (.new id conn.localSettings.initialWindowSize.toInt32)
            some (stream.receiveHeaders headers endStream)
          else conn.getStream id
      | _ => conn.getStream id
  | .data streamId endStream bytes =>
      if streamId = id then
        (conn.getStream id).map fun stream => if stream.canReceive then stream.receiveData bytes endStream else stream
      else conn.getStream id
  | .windowUpdate streamId increment =>
      if streamId ≠ 0 ∧ streamId = id then (conn.getStream id).map fun stream => stream.updateSendWindow increment.toInt32
      else conn.getStream id
  | .settings false pairs => (conn.getStream id).map (Stream.settle conn.remoteSettings.initialWindowSize pairs)
  | .rstStream streamId _ => if streamId = id then (conn.getStream id).map Stream.close else conn.getStream id
  | _ => conn.getStream id

theorem insert_stream (streams : Streams) (id other : UInt32) (stream : Stream) :
    (streams.insert other stream).lookup id = if other = id then some stream else streams.lookup id := by
  by_cases mine : other = id
  · rw [if_pos mine, mine, AList.lookup_insert]
  · rw [if_neg mine, AList.lookup_insert_ne (Ne.symm mine)]

theorem modify_stream (streams : Streams) (id other : UInt32) (f : Stream → Stream) :
    (streams.modify other f).lookup id = if other = id then (streams.lookup id).map f else streams.lookup id := by
  unfold Streams.modify
  cases found : streams.lookup other with
  | none =>
      by_cases mine : other = id
      · rw [if_pos mine, ← mine, found, Option.map_none]
      · rw [if_neg mine]
  | some stream =>
      simp only [insert_stream]
      by_cases mine : other = id
      · rw [if_pos mine, if_pos mine, ← mine, found, Option.map_some]
      · rw [if_neg mine, if_neg mine]

theorem modify_all_stream (streams : Streams) (id : UInt32) (f : Stream → Stream) :
    (streams.modifyAll f).lookup id = (streams.lookup id).map f := by
  show List.dlookup id (streams.entries.map fun entry : Sigma fun _ : UInt32 => Stream =>
      (⟨entry.1, f entry.2⟩ : Sigma fun _ : UInt32 => Stream)) = (List.dlookup id streams.entries).map f
  induction streams.entries with
  | nil => rfl
  | cons entry rest ih =>
      obtain ⟨other, stream⟩ := entry
      by_cases mine : id = other
      · subst mine
        rw [List.map_cons, List.dlookup_cons_eq, List.dlookup_cons_eq, Option.map_some]
      · rw [List.map_cons, List.dlookup_cons_ne _ _ mine, List.dlookup_cons_ne _ _ mine, ih]

-- What is left of a connection after some settings of a frame.
structure SettingsEffect (conn : H2Connection) (pairs : List (UInt16 × UInt32)) (conn' : H2Connection) : Prop where
  streams : ∀ id, conn'.getStream id = (conn.getStream id).map (Stream.settle conn.remoteSettings.initialWindowSize pairs)
  sendWindow : conn'.sendWindow = conn.sendWindow
  recvWindow : conn'.recvWindow = conn.recvWindow
  localSettings : conn'.localSettings = conn.localSettings
  initialWindowSize : conn'.remoteSettings.initialWindowSize = latest 0x4 conn.remoteSettings.initialWindowSize pairs
  maxFrameSize : conn'.remoteSettings.maxFrameSize = latest 0x5 conn.remoteSettings.maxFrameSize pairs
  outgoing : conn'.outgoing = conn.outgoing
  hpackDecoder : conn'.hpackDecoder = conn.hpackDecoder

theorem settle_nil (remembered : UInt32) : Stream.settle remembered [] = id := by
  funext stream
  rfl

theorem settle_cons (remembered value : UInt32) (key : UInt16) (rest : List (UInt16 × UInt32)) (stream : Stream) :
    Stream.settle remembered ((key, value) :: rest) stream =
      Stream.settle (latest 0x4 remembered [(key, value)]) rest (Stream.settle remembered [(key, value)] stream) := by
  simp only [Stream.settle, latest, List.foldl_cons, List.foldl_nil]
  by_cases window : key = 0x4
  · rw [if_pos window, if_pos window, if_pos window]
  · rw [if_neg window, if_neg window, if_neg window]

theorem untouched (conn : H2Connection) (id : UInt32) (key : UInt16) (value remembered : UInt32) (other : key ≠ 0x4) :
    (conn.getStream id).map (Stream.settle remembered [(key, value)]) = conn.getStream id := by
  have same : Stream.settle remembered [(key, value)] = fun stream => stream := by
    funext stream
    simp only [Stream.settle, if_neg other]
  rw [same]
  rw [Option.map_id_fun']
  rfl

theorem apply_setting_effect (conn : H2Connection) (key : UInt16) (value : UInt32) :
    SettingsEffect conn [(key, value)] (conn.applySetting key value) := by
  by_cases window : key = 0x4
  · subst window
    refine ⟨fun id => ?_, rfl, rfl, rfl, rfl, rfl, rfl, rfl⟩
    exact modify_all_stream conn.streams id _
  · have kept (id : UInt32) := (untouched conn id key value conn.remoteSettings.initialWindowSize window).symm
    simp only [H2Connection.applySetting, if_neg window]
    by_cases first : key = 0x1
    · subst first
      exact ⟨kept, rfl, rfl, rfl, rfl, rfl, rfl, rfl⟩
    · by_cases second : key = 0x2
      · subst second
        exact ⟨kept, rfl, rfl, rfl, rfl, rfl, rfl, rfl⟩
      · by_cases third : key = 0x3
        · subst third
          exact ⟨kept, rfl, rfl, rfl, rfl, rfl, rfl, rfl⟩
        · by_cases fifth : key = 0x5
          · subst fifth
            exact ⟨kept, rfl, rfl, rfl, rfl, rfl, rfl, rfl⟩
          · rw [if_neg first, if_neg second, if_neg third, if_neg fifth]
            have window' : latest 0x4 conn.remoteSettings.initialWindowSize [(key, value)] =
                conn.remoteSettings.initialWindowSize := if_neg window
            have frame' : latest 0x5 conn.remoteSettings.maxFrameSize [(key, value)] =
                conn.remoteSettings.maxFrameSize := if_neg fifth
            by_cases sixth : key = 0x6
            · rw [if_pos sixth]
              exact ⟨kept, rfl, rfl, rfl, window'.symm, frame'.symm, rfl, rfl⟩
            · rw [if_neg sixth]
              exact ⟨kept, rfl, rfl, rfl, window'.symm, frame'.symm, rfl, rfl⟩

theorem apply_settings_effect (pairs : List (UInt16 × UInt32)) (conn : H2Connection) :
    SettingsEffect conn pairs (pairs.foldl (fun conn (setting, value) => conn.applySetting setting value) conn) := by
  induction pairs generalizing conn with
  | nil =>
      refine ⟨fun id => ?_, rfl, rfl, rfl, rfl, rfl, rfl, rfl⟩
      rw [settle_nil, Option.map_id]
      rfl
  | cons pair rest ih =>
      obtain ⟨key, value⟩ := pair
      have first := apply_setting_effect conn key value
      have later := ih (conn.applySetting key value)
      rw [List.foldl_cons]
      refine ⟨fun id => ?_, later.sendWindow.trans first.sendWindow, later.recvWindow.trans first.recvWindow,
        later.localSettings.trans first.localSettings, ?_, ?_, later.outgoing.trans first.outgoing,
        later.hpackDecoder.trans first.hpackDecoder⟩
      · rw [later.streams, first.streams, first.initialWindowSize, Option.map_map]
        congr 1
        funext stream
        exact (settle_cons _ value key rest stream).symm
      · rw [later.initialWindowSize, first.initialWindowSize]
        rfl
      · rw [later.maxFrameSize, first.maxFrameSize]
        rfl

-- Everything that a frame can do to the streams, the windows, the settings and
-- the outgoing frames of a connection, whatever process_frame returns for it.
structure FrameEffect (conn : H2Connection) (frame : Frame) (conn' : H2Connection) : Prop where
  streams : ∀ id, conn'.getStream id = conn.streamAfter id frame
  sendWindow : conn'.sendWindow = conn.sendWindow + frame.connectionIncrement
  recvWindow : conn'.recvWindow = conn.recvWindow - .ofNat (conn.accepts frame)
  localSettings : conn'.localSettings = conn.localSettings
  initialWindowSize : conn'.remoteSettings.initialWindowSize =
    latest 0x4 conn.remoteSettings.initialWindowSize frame.peerSettings
  maxFrameSize : conn'.remoteSettings.maxFrameSize = latest 0x5 conn.remoteSettings.maxFrameSize frame.peerSettings
  outgoing : conn'.outgoing = conn.outgoing ++ frame.replies

-- A frame that changes no more than fields which no effect is about.
theorem quiet_effect (conn conn' : H2Connection) (frame : Frame) (streams : conn'.streams = conn.streams)
    (sendWindow : conn'.sendWindow = conn.sendWindow) (recvWindow : conn'.recvWindow = conn.recvWindow)
    (localSettings : conn'.localSettings = conn.localSettings) (remoteSettings : conn'.remoteSettings = conn.remoteSettings)
    (outgoing : conn'.outgoing = conn.outgoing ++ frame.replies) (increment : frame.connectionIncrement = 0)
    (none : conn.accepts frame = 0) (settings : frame.peerSettings = [])
    (same : ∀ id, conn.streamAfter id frame = conn.getStream id) : FrameEffect conn frame conn' := by
  refine ⟨fun id => ?_, ?_, ?_, localSettings, ?_, ?_, outgoing⟩
  · rw [same, H2Connection.getStream, streams]
    rfl
  · rw [sendWindow, increment, Int32.add_zero]
  · rw [recvWindow, none]
    exact (Int32.sub_zero _).symm
  · rw [remoteSettings, settings]
    rfl
  · rw [remoteSettings, settings]
    rfl

theorem data_effect (conn conn' : H2Connection) (streamId : UInt32) (endStream : Bool) (bytes : Bytes)
    (result : Except H2Error Unit) (processed : conn.processFrame (.data streamId endStream bytes) = .ok (result, conn')) :
    FrameEffect conn (.data streamId endStream bytes) conn' := by
  have nothing (accepted : conn.accepts (.data streamId endStream bytes) = 0) (same : conn' = conn)
      (stays : ∀ stream, conn.getStream streamId = some stream → stream.canReceive = false) :
      FrameEffect conn (.data streamId endStream bytes) conn' := by
    subst same
    refine quiet_effect conn' conn' _ rfl rfl rfl rfl rfl (List.append_nil _).symm rfl accepted rfl fun id => ?_
    simp only [H2Connection.streamAfter]
    by_cases mine : streamId = id
    · subst mine
      rw [if_pos rfl]
      cases found : conn'.getStream streamId with
      | none => rfl
      | some stream => simp only [Option.map_some, stays stream found, Bool.false_eq_true, if_false]
    · rw [if_neg mine]
  simp only [H2Connection.processFrame] at processed
  cases found : conn.streams.lookup streamId with
  | none =>
      simp only [found] at processed
      obtain ⟨_, same⟩ := Prod.mk.inj (Except.ok.inj processed)
      refine nothing ?_ same.symm fun stream there => ?_
      · simp only [H2Connection.accepts, H2Connection.getStream, found, Option.any_none, Bool.false_eq_true, if_false]
      · cases found.symm.trans there
  | some stream =>
      simp only [found] at processed
      by_cases receives : stream.canReceive = true
      · rw [if_pos receives] at processed
        obtain ⟨_, rfl⟩ := Prod.mk.inj (Except.ok.inj processed)
        refine ⟨fun id => ?_, (Int32.add_zero _).symm, ?_, rfl, rfl, rfl, (List.append_nil _).symm⟩
        · simp only [H2Connection.getStream, insert_stream, H2Connection.streamAfter]
          by_cases mine : streamId = id
          · subst mine
            simp only [if_true, found, Option.map_some, receives]
          · rw [if_neg mine, if_neg mine]
        · simp only [H2Connection.accepts, H2Connection.getStream, found, Option.any_some, receives, if_true]
      · rw [if_neg receives] at processed
        obtain ⟨_, same⟩ := Prod.mk.inj (Except.ok.inj processed)
        have closed : stream.canReceive = false := Bool.eq_false_iff.mpr receives
        refine nothing ?_ same.symm fun other there => ?_
        · simp only [H2Connection.accepts, H2Connection.getStream, found, Option.any_some, closed, Bool.false_eq_true, if_false]
        · cases found.symm.trans there
          exact closed

theorem headers_effect (conn conn' : H2Connection) (streamId : UInt32) (endStream endHeaders : Bool) (headerBlock : Bytes)
    (result : Except H2Error Unit)
    (processed : conn.processFrame (.headers streamId endStream endHeaders headerBlock) = .ok (result, conn')) :
    FrameEffect conn (.headers streamId endStream endHeaders headerBlock) conn' := by
  rcases decoded : conn.hpackDecoder.decode headerBlock with fault | ⟨e | headers, decoder⟩
  · simp only [H2Connection.processFrame, decoded, reduceCtorEq] at processed
  · simp only [H2Connection.processFrame, decoded] at processed
    obtain ⟨_, rfl⟩ := Prod.mk.inj (Except.ok.inj processed)
    refine quiet_effect conn _ _ rfl rfl rfl rfl rfl (List.append_nil _).symm rfl rfl rfl fun id => ?_
    simp only [H2Connection.streamAfter, decoded]
  · simp only [H2Connection.processFrame, decoded] at processed
    obtain ⟨_, rfl⟩ := Prod.mk.inj (Except.ok.inj processed)
    refine ⟨fun id => ?_, (Int32.add_zero _).symm, (Int32.sub_zero _).symm, rfl, rfl, rfl, (List.append_nil _).symm⟩
    simp only [H2Connection.getStream, insert_stream, H2Connection.streamAfter, decoded]
    by_cases mine : streamId = id
    · subst mine
      rw [if_pos rfl]
    · rw [if_neg mine, if_neg mine]

theorem window_update_effect (conn conn' : H2Connection) (streamId : UInt32) (increment : UInt32) (result : Except H2Error Unit)
    (processed : conn.processFrame (.windowUpdate streamId increment) = .ok (result, conn')) :
    FrameEffect conn (.windowUpdate streamId increment) conn' := by
  simp only [H2Connection.processFrame] at processed
  by_cases whole : streamId = 0
  · rw [if_pos whole] at processed
    obtain ⟨_, rfl⟩ := Prod.mk.inj (Except.ok.inj processed)
    refine ⟨fun id => ?_, ?_, (Int32.sub_zero _).symm, rfl, rfl, rfl, (List.append_nil _).symm⟩
    · simp only [H2Connection.streamAfter, whole, ne_eq, not_true_eq_false, false_and, if_false]
      rfl
    · simp only [Frame.connectionIncrement, if_pos whole]
  · rw [if_neg whole] at processed
    obtain ⟨_, rfl⟩ := Prod.mk.inj (Except.ok.inj processed)
    refine ⟨fun id => ?_, ?_, (Int32.sub_zero _).symm, rfl, rfl, rfl, (List.append_nil _).symm⟩
    · simp only [H2Connection.streamAfter, ne_eq, whole, not_false_eq_true, true_and]
      exact modify_stream conn.streams id streamId _
    · simp only [Frame.connectionIncrement, if_neg whole, Int32.add_zero]

theorem frame_effect (conn conn' : H2Connection) (frame : Frame) (result : Except H2Error Unit)
    (processed : conn.processFrame frame = .ok (result, conn')) : FrameEffect conn frame conn' := by
  cases frame with
  | headers streamId endStream endHeaders headerBlock =>
      exact headers_effect conn conn' streamId endStream endHeaders headerBlock result processed
  | data streamId endStream bytes => exact data_effect conn conn' streamId endStream bytes result processed
  | rstStream streamId errorCode =>
      obtain ⟨_, rfl⟩ := Prod.mk.inj (Except.ok.inj processed)
      refine ⟨fun id => ?_, (Int32.add_zero _).symm, (Int32.sub_zero _).symm, rfl, rfl, rfl, (List.append_nil _).symm⟩
      exact modify_stream conn.streams id streamId _
  | windowUpdate streamId increment => exact window_update_effect conn conn' streamId increment result processed
  | settings ack pairs =>
      cases ack with
      | true =>
          obtain ⟨_, rfl⟩ := Prod.mk.inj (Except.ok.inj processed)
          exact quiet_effect conn _ _ rfl rfl rfl rfl rfl (List.append_nil _).symm rfl rfl rfl fun id => rfl
      | false =>
          obtain ⟨_, rfl⟩ := Prod.mk.inj (Except.ok.inj processed)
          have loop := apply_settings_effect pairs conn
          refine ⟨loop.streams, loop.sendWindow.trans (Int32.add_zero _).symm, loop.recvWindow.trans (Int32.sub_zero _).symm,
            loop.localSettings, loop.initialWindowSize, loop.maxFrameSize, ?_⟩
          exact congrArg (fun frames : List Frame => frames ++ [.settings true []]) loop.outgoing
  | ping ack bytes =>
      cases ack with
      | true =>
          obtain ⟨_, rfl⟩ := Prod.mk.inj (Except.ok.inj processed)
          exact quiet_effect conn _ _ rfl rfl rfl rfl rfl (List.append_nil _).symm rfl rfl rfl fun id => rfl
      | false =>
          obtain ⟨_, rfl⟩ := Prod.mk.inj (Except.ok.inj processed)
          exact quiet_effect conn _ _ rfl rfl rfl rfl rfl rfl rfl rfl rfl fun id => rfl
  | goAway lastStreamId errorCode debugData =>
      obtain ⟨_, rfl⟩ := Prod.mk.inj (Except.ok.inj processed)
      exact quiet_effect conn _ _ rfl rfl rfl rfl rfl (List.append_nil _).symm rfl rfl rfl fun id => rfl
  | priority streamId exclusive dependency weight =>
      obtain ⟨_, rfl⟩ := Prod.mk.inj (Except.ok.inj processed)
      exact quiet_effect conn _ _ rfl rfl rfl rfl rfl (List.append_nil _).symm rfl rfl rfl fun id => rfl
  | pushPromise streamId promisedStreamId headerBlock =>
      obtain ⟨_, rfl⟩ := Prod.mk.inj (Except.ok.inj processed)
      exact quiet_effect conn _ _ rfl rfl rfl rfl rfl (List.append_nil _).symm rfl rfl rfl fun id => rfl
  | continuation streamId endHeaders headerBlock =>
      obtain ⟨_, rfl⟩ := Prod.mk.inj (Except.ok.inj processed)
      exact quiet_effect conn _ _ rfl rfl rfl rfl rfl (List.append_nil _).symm rfl rfl rfl fun id => rfl

-- What a call does to its own stream.
def SendCall.answer : SendCall → Stream → Stream
  | .headers _ fields endStream, stream =>
      let stream := { stream with responseHeaders := fields }
      if endStream then stream.halfCloseLocal else stream
  | .data _ _ endStream, stream => if endStream then stream.halfCloseLocal else stream

theorem send_stream (conn : H2Connection) (call : SendCall) (id : UInt32) :
    (conn.send call).getStream id =
      if call.streamId = id then (conn.getStream id).map call.answer else conn.getStream id := by
  cases call with
  | headers streamId fields endStream => exact modify_stream conn.streams id streamId _
  | data streamId bytes endStream =>
      cases endStream with
      | true => exact modify_stream conn.streams id streamId _
      | false =>
          show conn.getStream id = if streamId = id then (conn.getStream id).map (fun stream => stream) else conn.getStream id
          rw [Option.map_id_fun']
          exact (ite_self _).symm

section

variable {τ : Type} (field : Stream → τ)

theorem unchanged_map (stream : Option Stream) (f : Stream → Stream) (same : ∀ stream, field (f stream) = field stream) :
    (stream.map f).map field = stream.map field := by
  rw [Option.map_map]
  congr 1
  funext stream
  exact same stream

theorem settle_keeps (unread : ∀ stream delta, field (Stream.updateSendWindow stream delta) = field stream)
    (pairs : List (UInt16 × UInt32)) (remembered : UInt32) (stream : Stream) :
    field (Stream.settle remembered pairs stream) = field stream := by
  fun_induction Stream.settle remembered pairs stream with
  | case1 => rfl
  | case2 remembered value rest stream ih => exact ih.trans (unread stream _)
  | case3 remembered key value rest stream other ih => exact ih

variable (stateless : ∀ stream state, field { stream with state := state } = field stream)

include stateless

theorem receive_headers_keeps (stream : Stream) (headers : List Header) (endStream : Bool)
    (unread : ∀ stream, field { stream with requestHeaders := headers } = field stream) :
    field (stream.receiveHeaders headers endStream) = field stream := by
  have opened := (unread stream.open).trans (open_keeps field stateless stream)
  cases endStream with
  | false => exact opened
  | true => exact (half_close_remote_keeps field stateless _).trans opened

theorem answer_keeps (call : SendCall) (stream : Stream)
    (unread : ∀ stream fields, field { stream with responseHeaders := fields } = field stream) :
    field (call.answer stream) = field stream := by
  cases call with
  | headers streamId fields endStream =>
      cases endStream with
      | false => exact unread stream fields
      | true => exact (half_close_local_keeps field stateless _).trans (unread stream fields)
  | data streamId bytes endStream =>
      cases endStream with
      | false => rfl
      | true => exact half_close_local_keeps field stateless stream

end

end Ners.H2
