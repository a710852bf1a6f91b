import Ners.H2.Lifecycle

set_option autoImplicit false

namespace Ners.H2

open History (since)
open Runs (Reached Taken execute reached_invariant reached_rest taken_after taken_cons taken_nil)

-- HEADERS or DATA on a stream.
def Frame.speaks (id : UInt32) : Frame → Bool
  | .headers streamId _ _ _ | .data streamId _ _ => streamId = id
  | _ => false

def Frame.ends (id : UInt32) : Frame → Bool
  | .headers streamId endStream _ _ | .data streamId endStream _ => streamId = id && endStream
  | _ => false

-- The frames that an event puts in outgoing.
def H2Connection.queued (conn : H2Connection) : Event → List Frame
  | .receive frame => frame.replies
  | .send call => [(call.frame conn.hpackEncoder).1]

theorem step_outgoing (conn conn' : H2Connection) (event : Event) (taken : conn.step event = some conn') :
    conn'.outgoing = conn.outgoing ++ conn.queued event := by
  cases event with
  | receive frame => exact (receive_effect conn conn' frame taken).outgoing
  | send call =>
      obtain rfl := Option.some.inj taken
      exact (send_frame conn call).1

theorem run_outgoing (conn conn' : H2Connection) (events : List Event)
    (executed : execute H2Connection.step conn events = some conn') : conn.outgoing <+: conn'.outgoing := by
  induction events generalizing conn with
  | nil =>
      obtain rfl := Option.some.inj executed
      exact List.prefix_refl _
  | cons event later ih =>
      obtain ⟨middle, taken, rest⟩ := Option.bind_eq_some_iff.mp executed
      have first : conn.outgoing <+: middle.outgoing := ⟨_, (step_outgoing conn middle event taken).symm⟩
      exact first.trans (ih middle rest)

theorem ends_speaks (id : UInt32) (frame : Frame) (ends : frame.ends id = true) : frame.speaks id = true := by
  cases frame with
  | headers streamId endStream endHeaders headerBlock => exact (Bool.and_eq_true_iff.mp ends).1
  | data streamId endStream bytes => exact (Bool.and_eq_true_iff.mp ends).1
  | _ => cases ends

theorem replies_silent (frame reply : Frame) (id : UInt32) (member : reply ∈ frame.replies) : reply.speaks id = false := by
  cases frame with
  | settings ack pairs =>
      cases ack with
      | true => cases member
      | false =>
          obtain rfl := List.mem_singleton.mp member
          rfl
  | ping ack bytes =>
      cases ack with
      | true => cases member
      | false =>
          obtain rfl := List.mem_singleton.mp member
          rfl
  | _ => cases member

theorem call_speaks (conn : H2Connection) (call : SendCall) (id : UInt32) :
    (call.frame conn.hpackEncoder).1.speaks id = decide (call.streamId = id) ∧
      (call.frame conn.hpackEncoder).1.ends id = (decide (call.streamId = id) && call.endStream) := by
  cases call with
  | headers streamId fields endStream => exact ⟨rfl, rfl⟩
  | data streamId bytes endStream => exact ⟨rfl, rfl⟩

-- A stream has at most one frame with END_STREAM, and it is the last.
structure EndsOnce (frames : List Frame) : Prop where
  once : ∀ id, frames.countP (Frame.ends id) ≤ 1
  last : ∀ id before frame after, frames = before ++ frame :: after → frame.ends id = true →
    ∀ later ∈ after, later.speaks id = false

def Apart (earlier later : Frame) : Prop := ∀ id, earlier.ends id = true → later.speaks id = false

theorem apart_ends_once (frames : List Frame) (apart : frames.Pairwise Apart) : EndsOnce frames := by
  constructor
  · intro id
    induction frames with
    | nil => exact Nat.zero_le _
    | cons frame rest ih =>
        obtain ⟨first, others⟩ := List.pairwise_cons.mp apart
        rw [List.countP_cons]
        by_cases ends : frame.ends id = true
        · have none : rest.countP (Frame.ends id) = 0 := by
            rw [List.countP_eq_zero]
            intro later member also
            exact absurd (ends_speaks id later also) (by rw [first later member id ends]; decide)
          rw [none, if_pos ends]
        · rw [if_neg ends]
          exact ih others
  · intro id before frame after split ends later member
    rw [split] at apart
    have behind := (List.pairwise_append.mp apart).2.1
    exact (List.pairwise_cons.mp behind).1 later member id ends

-- A sending end that has closed stays so.
def StreamState.finished (state : StreamState) : Prop := state = .halfClosedLocal ∨ state = .closed

theorem finished_step (request : Request) (signal : Signal) (finished : request.state.finished) :
    ∃ after, advance (some request) signal = some after ∧ after.state.finished := by
  obtain ⟨state, headers, body⟩ := request
  rcases finished with rfl | rfl
  · cases signal with
    | headers fields endStream =>
        cases endStream with
        | true => exact ⟨_, rfl, .inr rfl⟩
        | false => exact ⟨_, rfl, .inl rfl⟩
    | refused endStream => exact ⟨_, rfl, .inl rfl⟩
    | data bytes endStream =>
        cases endStream with
        | true => exact ⟨_, rfl, .inr rfl⟩
        | false => exact ⟨_, rfl, .inl rfl⟩
    | reset => exact ⟨_, rfl, .inr rfl⟩
    | sentEnd => exact ⟨_, rfl, .inl rfl⟩
  · obtain ⟨after, advanced, closed⟩ := closed_step ⟨.closed, headers, body⟩ signal rfl
    exact ⟨after, advanced, .inr closed⟩

theorem finished_silent (stream : Stream) (finished : stream.state.finished) : stream.canSend = false := by
  rcases finished with state | state <;> simp [Stream.canSend, state]

theorem send_finishes (state : StreamState) (sends : state = .open ∨ state = .halfClosedRemote) :
    state.endSend.finished := by
  rcases sends with rfl | rfl
  · exact .inl rfl
  · exact .inr rfl

theorem finished_event (conn conn' : H2Connection) (event : Event) (id : UInt32) (stream : Stream)
    (taken : conn.step event = some conn') (found : conn.getStream id = some stream) (finished : stream.state.finished) :
    ∃ after, conn'.getStream id = some after ∧ after.state.finished := by
  have stepped := step_request conn conn' event id taken
  rw [found_request conn id stream found] at stepped
  cases meant : conn.signal id event with
  | none =>
      rw [meant] at stepped
      obtain ⟨after, there, same⟩ := request_found conn' id _ stepped
      have state : after.state = stream.state := congrArg Request.state same
      exact ⟨after, there, state ▸ finished⟩
  | some signal =>
      rw [meant] at stepped
      obtain ⟨request, advanced, still⟩ := finished_step stream.request signal finished
      obtain ⟨after, there, same⟩ := request_found conn' id request (stepped.trans advanced)
      have state : after.state = request.state := congrArg Request.state same
      exact ⟨after, there, state ▸ still⟩

def H2Connection.Ready (conn : H2Connection) (call : SendCall) : Prop :=
  ∃ stream, conn.getStream call.streamId = some stream ∧ stream.canSend = true

-- Whoever has sent END_STREAM has a closed sending end to show for it.
structure SendingKept (conn : H2Connection) : Prop where
  apart : conn.outgoing.Pairwise Apart
  finished : ∀ id frame, frame ∈ conn.outgoing → frame.ends id = true →
    ∃ stream, conn.getStream id = some stream ∧ stream.state.finished

theorem finished_unready (conn : H2Connection) (call : SendCall) (stream : Stream)
    (found : conn.getStream call.streamId = some stream) (finished : stream.state.finished) : ¬ conn.Ready call := by
  rintro ⟨other, also, sends⟩
  obtain rfl := Option.some.inj (found.symm.trans also)
  exact absurd sends (by rw [finished_silent stream finished]; decide)

theorem send_ends (conn : H2Connection) (call : SendCall) (ready : conn.Ready call) (ending : call.endStream = true) :
    ∃ stream, (conn.send call).getStream call.streamId = some stream ∧ stream.state.finished := by
  obtain ⟨stream, found, sends⟩ := ready
  rw [send_stream, if_pos rfl, found]
  refine ⟨_, rfl, ?_⟩
  have state : (call.answer stream).state = stream.state.endSend := by
    have request := answer_request call stream
    rw [if_pos ending] at request
    exact congrArg Request.state request
  rw [state]
  exact send_finishes _ (of_decide_eq_true sends)

theorem sending_step (conn conn' : H2Connection) (event : Event) (kept : SendingKept conn)
    (taken : conn.step event = some conn') (ready : ∀ call, event = .send call → conn.Ready call) : SendingKept conn' := by
  have grown := step_outgoing conn conn' event taken
  have older (id : UInt32) (frame : Frame) (member : frame ∈ conn.outgoing) (ends : frame.ends id = true) :
      ∃ stream, conn'.getStream id = some stream ∧ stream.state.finished := by
    obtain ⟨stream, found, finished⟩ := kept.finished id frame member ends
    exact finished_event conn conn' event id stream taken found finished
  cases event with
  | receive frame =>
      refine ⟨?_, fun id queued member ends => ?_⟩
      · rw [grown]
        refine List.pairwise_append.mpr ⟨kept.apart, ?_, fun earlier _ later member id _ => replies_silent frame later id member⟩
        exact List.pairwise_of_forall_mem_list fun earlier _ later member id _ => replies_silent frame later id member
      · rw [grown, List.mem_append] at member
        rcases member with early | reply
        · exact older id queued early ends
        · exact absurd (ends_speaks id queued ends) (by rw [replies_silent frame queued id reply]; decide)
  | send call =>
      obtain ⟨speaks, ending⟩ := And.intro (fun id => (call_speaks conn call id).1) fun id => (call_speaks conn call id).2
      refine ⟨?_, fun id queued member ends => ?_⟩
      · rw [grown]
        refine List.pairwise_append.mpr ⟨kept.apart, List.pairwise_singleton _ _, fun earlier member later also id ends => ?_⟩
        obtain rfl := List.mem_singleton.mp also
        rw [speaks]
        refine decide_eq_false fun mine => ?_
        obtain ⟨stream, found, finished⟩ := kept.finished id earlier member ends
        exact finished_unready conn call stream (mine ▸ found) finished (ready call rfl)
      · rw [grown, List.mem_append] at member
        rcases member with early | last
        · exact older id queued early ends
        · obtain rfl := List.mem_singleton.mp last
          rw [ending, Bool.and_eq_true, decide_eq_true_eq] at ends
          obtain ⟨rfl, endStream⟩ := ends
          obtain rfl := Option.some.inj taken
          exact send_ends conn call (ready call rfl) endStream

theorem new_sending (settings : H2Settings) : SendingKept (.new settings) :=
  ⟨List.Pairwise.nil, fun _ _ member => absurd member List.not_mem_nil⟩

theorem sent_end_queued (settings : H2Settings) (events : List Event) (conn : H2Connection) (id : UInt32)
    (executed : execute H2Connection.step (.new settings) events = some conn)
    (sent : Signal.sentEnd ∈ signals id (.new settings) events) : ∃ frame ∈ conn.outgoing, frame.ends id = true := by
  obtain ⟨past, later, split⟩ := List.append_of_mem sent
  have within : past ++ [Signal.sentEnd] <+: signals id (.new settings) events := by
    rw [split]
    exact ⟨later, by simp⟩
  obtain ⟨before, event, c, c', there, meant, _⟩ := signal_taken id _ conn events past .sentEnd executed within
  obtain ⟨rest, onward⟩ := reached_rest _ c' conn events _ (taken_after _ _ _ _ _ _ there) executed
  have kept := run_outgoing c' conn rest onward
  rw [step_outgoing c c' event there.taken] at kept
  cases event with
  | receive frame =>
      cases frame with
      | headers streamId endStream endHeaders headerBlock =>
          simp only [H2Connection.signal] at meant
          split at meant
          · split at meant <;> cases meant
          · split at meant <;> cases meant
          · cases meant
      | data streamId endStream bytes =>
          simp only [H2Connection.signal] at meant
          split at meant <;> cases meant
      | rstStream streamId errorCode =>
          simp only [H2Connection.signal] at meant
          split at meant <;> cases meant
      | _ => cases meant
  | send call =>
      simp only [H2Connection.signal] at meant
      by_cases mine : call.streamId = id ∧ call.endStream = true
      · refine ⟨_, kept.subset (List.mem_append_right _ (List.mem_singleton_self _)), ?_⟩
        rw [(call_speaks c call id).2, mine.2, decide_eq_true mine.1]
        rfl
      · rw [if_neg mine] at meant
        cases meant

-- A stream that can no longer send, and is not closed, has sent its END_STREAM.
theorem unready_sent (settings : H2Settings) (events : List Event) (conn : H2Connection) (id : UInt32) (stream : Stream)
    (executed : execute H2Connection.step (.new settings) events = some conn) (found : conn.getStream id = some stream)
    (live : stream.state ≠ .closed) (silent : stream.canSend = false) :
    Signal.sentEnd ∈ signals id (.new settings) events := by
  rcases stream_described settings events conn id executed with ⟨_, absent⟩ | ⟨other, _, also, described⟩
  · cases absent.symm.trans found
  · obtain rfl := Option.some.inj (also.symm.trans found)
    have state : other.state = historyState (sinceOpened (signals id (.new settings) events)) := described.state
    have sent : (sinceOpened (signals id (.new settings) events)).any Signal.endsSend = true := by
      rw [historyState] at state
      rw [Stream.canSend, state] at silent
      rw [state] at live
      revert silent live
      cases (sinceOpened (signals id (.new settings) events)).any Signal.resets <;>
        cases (sinceOpened (signals id (.new settings) events)).any Signal.endsReceive <;>
        cases (sinceOpened (signals id (.new settings) events)).any Signal.endsSend <;> decide
    obtain ⟨signal, member, ends⟩ := List.any_eq_true.mp sent
    have inside := (List.dropWhile_suffix _).subset member
    cases signal with
    | sentEnd => exact inside
    | _ => cases ends

-- A stream that is open and can no longer send has ended, and what is sent on
-- it then follows its end.
theorem live_call_ready (settings : H2Settings) (events before : List Event) (final conn conn' : H2Connection) (call : SendCall)
    (executed : execute H2Connection.step (.new settings) events = some final) (once : EndsOnce final.outgoing)
    (there : Taken H2Connection.step (.new settings) events before (.send call) conn conn') (stream : Stream)
    (found : conn.getStream call.streamId = some stream) (live : stream.state ≠ .closed) : stream.canSend = true := by
  by_contra silent
  have sent := unready_sent settings before conn _ stream there.reached found live (Bool.eq_false_iff.mpr silent)
  obtain ⟨ending, member, ends⟩ := sent_end_queued settings before conn _ there.reached sent
  obtain ⟨rest, onward⟩ := reached_rest _ conn' final events _ (taken_after _ _ _ _ _ _ there) executed
  obtain ⟨more, whole⟩ := run_outgoing conn' final rest onward
  obtain ⟨front, back, split⟩ := List.append_of_mem member
  rw [step_outgoing conn conn' (.send call) there.taken, split] at whole
  have quiet := once.last call.streamId front ending (back ++ [(call.frame conn.hpackEncoder).1] ++ more)
    (by rw [← whole, H2Connection.queued]; simp) ends _ (List.mem_append_left _ (List.mem_append_right _ (List.mem_singleton_self _)))
  have speaks := (call_speaks conn call call.streamId).1
  rw [decide_eq_true rfl, quiet] at speaks
  cases speaks

theorem ready_calls_kept (settings : H2Settings) (events : List Event) (final : H2Connection)
    (executed : execute H2Connection.step (.new settings) events = some final)
    (ready : ∀ before call conn conn', Taken H2Connection.step (.new settings) events before (.send call) conn conn' →
      conn.Ready call) : SendingKept final := by
  refine reached_invariant (fun _ => SendingKept) (fun _ conn event _ => ∀ call, event = .send call → conn.Ready call)
    (.new settings) events (new_sending settings) (fun _ event conn conn' kept there may => ?_)
    (fun before event conn conn' there call same => ?_) events final ⟨List.prefix_refl _, executed⟩
  · exact sending_step conn conn' event kept there.taken may
  · subst same
    exact ready before call conn conn' there

-- What is put in outgoing by an event speaks for its own stream.
theorem queued_live (conn : H2Connection) (event : Event) (frame : Frame) (id : UInt32) (member : frame ∈ conn.queued event)
    (speaks : frame.speaks id = true) (ready : ∀ call, event = .send call → conn.Ready call) :
    ∃ stream, conn.getStream id = some stream ∧ stream.state ≠ .closed := by
  cases event with
  | receive received => exact absurd speaks (by rw [replies_silent received frame id member]; decide)
  | send call =>
      obtain rfl := List.mem_singleton.mp member
      rw [(call_speaks conn call id).1, decide_eq_true_eq] at speaks
      obtain ⟨stream, found, sends⟩ := ready call rfl
      refine ⟨stream, speaks ▸ found, fun closed => ?_⟩
      exact absurd sends (by rw [finished_silent stream (.inr closed)]; decide)

theorem nothing_after_end_iff (settings : H2Settings) (events : List Event) (final : H2Connection)
    (executed : execute H2Connection.step (.new settings) events = some final) :
    (EndsOnce final.outgoing ∧
      ∀ before event conn conn' frames frame id, Taken H2Connection.step (.new settings) events before event conn conn' →
        conn'.outgoing = conn.outgoing ++ frames → frame ∈ frames → frame.speaks id = true →
        ∃ stream, conn.getStream id = some stream ∧ stream.state ≠ .closed) ↔
    ∀ before call conn conn', Taken H2Connection.step (.new settings) events before (.send call) conn conn' →
      ∃ stream, conn.getStream call.streamId = some stream ∧ stream.canSend = true := by
  constructor
  · rintro ⟨once, live⟩ before call conn conn' there
    have grown := step_outgoing conn conn' (.send call) there.taken
    have speaks := (call_speaks conn call call.streamId).1
    rw [decide_eq_true rfl] at speaks
    obtain ⟨stream, found, open_⟩ := live before _ conn conn' _ _ _ there grown (List.mem_singleton_self _) speaks
    exact ⟨stream, found, live_call_ready settings events before final conn conn' call executed once there stream found open_⟩
  · intro ready
    have kept := ready_calls_kept settings events final executed ready
    refine ⟨apart_ends_once _ kept.apart, fun before event conn conn' frames frame id there grown member speaks => ?_⟩
    have same := List.append_cancel_left (grown.symm.trans (step_outgoing conn conn' event there.taken))
    refine queued_live conn event frame id (same ▸ member) speaks fun call which => ?_
    subst which
    exact ready before call conn conn' there

theorem answered_request_ends_once : ∃ final, execute H2Connection.step (.new {})
      [.receive (.headers 1 true true [0x82]), .send (.data 1 [0x68] true)] = some final ∧ EndsOnce final.outgoing := by
  refine ⟨_, rfl, ((nothing_after_end_iff {} [.receive (.headers 1 true true [0x82]), .send (.data 1 [0x68] true)] _ rfl).mpr ?_).1⟩
  intro before call conn conn' there
  rcases taken_cons _ _ _ _ _ _ _ there with ⟨_, same, _⟩ | ⟨middle, rest, first, _, later⟩
  · cases same
  · obtain rfl := Option.some.inj first
    rcases taken_cons _ _ _ _ _ _ _ later with ⟨_, same, rfl⟩ | ⟨_, _, _, _, none⟩
    · cases same
      exact ⟨_, rfl, rfl⟩
    · exact absurd none (taken_nil _ _ _ _ _)

-- The peer opens the stream; the server ends it and goes on.
theorem data_follows_end : ∃ final, execute H2Connection.step (.new {})
      [.receive (.headers 1 true true [0x82]), .send (.data 1 [0x68] true), .send (.data 1 [0x69] true)] = some final ∧
    final.outgoing = [.data 1 true [0x68], .data 1 true [0x69]] ∧ ¬ EndsOnce final.outgoing := by
  refine ⟨_, rfl, rfl, fun once => ?_⟩
  exact absurd (once.once 1) (by decide)

end Ners.H2
