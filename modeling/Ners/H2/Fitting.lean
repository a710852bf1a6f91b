import Ners.H2.FrameStream
import Ners.H2.Outgoing

set_option autoImplicit false

namespace Ners.H2

open Runs (Reached Taken each_state_and_step_iff execute)

-- The frames that MAX_FRAME_SIZE is about.
def Frame.limited : Frame → Bool
  | .headers _ _ _ _ | .continuation _ _ _ | .data _ _ _ => true
  | _ => false

-- The length that a reader of the frame finds in its header.
def Frame.lengthField (frame : Frame) : Nat :=
  match frame.serialize [] with
  | b0 :: b1 :: b2 :: _ => b0.toNat <<< 16 ||| b1.toNat <<< 8 ||| b2.toNat
  | _ => 0

def H2Connection.QueuesWithin (conn conn' : H2Connection) : Prop :=
  ∀ frames, conn'.outgoing = conn.outgoing ++ frames → ∀ frame ∈ frames, frame.limited = true →
    frame.payload.length ≤ conn.remoteSettings.maxFrameSize.toNat ∧ frame.lengthField = frame.payload.length

def H2Connection.ReadsBack (conn : H2Connection) : Prop :=
  Framing.feed Frame.parse [] [serializeAll conn.outgoing] = ⟨conn.outgoing, none, []⟩

-- The payload that a call has to put into one frame.
def SendCall.payload (encoder : Hpack.HpackEncoder) : SendCall → Bytes
  | .headers _ fields _ => (encoder.encode fields).1
  | .data _ bytes _ => bytes

def H2Connection.Fitting (conn : H2Connection) : Event → Prop
  | .receive _ => True
  | .send call => call.streamId.toNat < 2 ^ 31 ∧ (call.payload conn.hpackEncoder).length < 2 ^ 24 ∧
      (call.payload conn.hpackEncoder).length ≤ conn.remoteSettings.maxFrameSize.toNat

theorem length_field_iff (frame : Frame) : frame.lengthField = frame.payload.length ↔ frame.payload.length < 2 ^ 24 := by
  constructor
  · intro exact_
    rw [← exact_, Frame.lengthField]
    split
    · exact length_field _ _ _
    · decide
  · intro short
    exact length_bytes _ short

theorem reads_back_fits (conn : H2Connection) : conn.ReadsBack ↔ ∀ frame ∈ conn.outgoing, frame.Fits := by
  rw [H2Connection.ReadsBack, serialize_all_stream]
  exact Framing.reads_back_iff conn.outgoing frames_delimit parsed_fits

theorem reply_fits (frame reply : Frame) (member : reply ∈ frame.replies) : reply.Fits ∧ reply.limited = false := by
  cases frame with
  | settings ack pairs =>
      cases ack with
      | true => cases member
      | false =>
          obtain rfl := List.mem_singleton.mp member
          exact ⟨⟨by decide, by decide, trivial⟩, rfl⟩
  | ping ack bytes =>
      cases ack with
      | true => cases member
      | false =>
          obtain rfl := List.mem_singleton.mp member
          refine ⟨⟨(by decide : (0 : UInt32).toNat < 2 ^ 31), ?_, trivial⟩, rfl⟩
          simp only [Frame.payload, Frame.parts, Vector.length_toList]
          decide
  | _ => cases member

theorem call_frame (encoder : Hpack.HpackEncoder) (call : SendCall) :
    (call.frame encoder).1.payload = call.payload encoder ∧ (call.frame encoder).1.limited = true ∧
      ((call.frame encoder).1.Fits ↔ call.streamId.toNat < 2 ^ 31 ∧ (call.payload encoder).length < 2 ^ 24) := by
  cases call with
  | headers streamId fields endStream => exact ⟨rfl, rfl, ⟨fun fits => ⟨fits.1, fits.2.1⟩, fun both => ⟨both.1, both.2, trivial⟩⟩⟩
  | data streamId bytes endStream => exact ⟨rfl, rfl, ⟨fun fits => ⟨fits.1, fits.2.1⟩, fun both => ⟨both.1, both.2, trivial⟩⟩⟩

theorem queues_within_iff (conn conn' : H2Connection) (event : Event) (taken : conn.step event = some conn') :
    conn.QueuesWithin conn' ↔ ∀ frame ∈ conn.queued event, frame.limited = true →
      frame.payload.length ≤ conn.remoteSettings.maxFrameSize.toNat ∧ frame.lengthField = frame.payload.length := by
  have grown := step_outgoing conn conn' event taken
  constructor
  · intro within
    exact within _ grown
  · intro every frames same
    rw [List.append_cancel_left (same.symm.trans grown)]
    exact every

theorem fitting_iff (conn conn' : H2Connection) (event : Event) (taken : conn.step event = some conn') (whole : conn.ReadsBack) :
    conn'.ReadsBack ∧ conn.QueuesWithin conn' ↔ conn.Fitting event := by
  rw [reads_back_fits] at whole
  rw [reads_back_fits, queues_within_iff conn conn' event taken, step_outgoing conn conn' event taken, List.forall_mem_append,
    and_iff_right whole]
  cases event with
  | receive frame =>
      refine iff_of_true ⟨fun reply member => (reply_fits frame reply member).1, fun reply member limited => ?_⟩ trivial
      rw [(reply_fits frame reply member).2] at limited
      cases limited
  | send call =>
      obtain ⟨payload, limited, fits⟩ := call_frame conn.hpackEncoder call
      rw [H2Connection.queued, List.forall_mem_singleton, List.forall_mem_singleton, fits, length_field_iff, payload,
        H2Connection.Fitting]
      constructor
      · rintro ⟨⟨small, short⟩, within⟩
        exact ⟨small, short, (within limited).1⟩
      · rintro ⟨small, short, within⟩
        exact ⟨⟨small, short⟩, fun _ => ⟨within, short⟩⟩

theorem outgoing_fits_iff (settings : H2Settings) (events : List Event) :
    (∀ history conn, Reached H2Connection.step (.new settings) events history conn → conn.ReadsBack) ∧
      (∀ before event conn conn', Taken H2Connection.step (.new settings) events before event conn conn' →
        conn.QueuesWithin conn') ↔
    ∀ before event conn conn', Taken H2Connection.step (.new settings) events before event conn conn' → conn.Fitting event := by
  refine each_state_and_step_iff (fun _ conn => conn.ReadsBack) (fun _ conn _ conn' => conn.QueuesWithin conn')
    (fun _ conn event _ => conn.Fitting event) (.new settings) events ?_ fun _ event conn conn' whole there =>
      fitting_iff conn conn' event there.taken whole
  exact (reads_back_fits _).mpr fun frame member => by cases member

-- One byte more than the peer takes in a frame.
theorem long_data_unsplit : ∃ conn, execute H2Connection.step (.new {}) [.send (.data 1 (List.replicate 16385 0x68) false)] = some conn ∧
    (H2Connection.new {}).remoteSettings.maxFrameSize = 16384 ∧ ¬ (H2Connection.new {}).QueuesWithin conn := by
  refine ⟨_, rfl, rfl, fun within => ?_⟩
  have size := (within [.data 1 false (List.replicate 16385 0x68)] rfl _ (List.mem_singleton_self _) rfl).1
  have long : (Frame.data 1 false (List.replicate 16385 0x68)).payload.length = 16385 := List.length_replicate
  rw [long] at size
  exact absurd size (by decide)

end Ners.H2
