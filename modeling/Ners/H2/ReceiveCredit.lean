import Ners.Base.Balance
import Ners.H2.Windows

set_option autoImplicit false

namespace Ners.H2

open Runs (Reached Taken carried carried_snoc each_state_and_step_iff execute execute_snoc taken_cons taken_nil)
open Balance
open Signed

-- The bytes of a DATA frame, unless it is refused.
def H2Connection.charge (conn : H2Connection) : Event → Nat
  | .receive (.data streamId endStream bytes) =>
      match conn.processFrame (.data streamId endStream bytes) with
      | .ok (.error .flowControlError, _) => 0
      | _ => bytes.length
  | _ => 0

def H2Connection.chargeOn (id : UInt32) (conn : H2Connection) (event : Event) (received : Option Nat) : Option Nat :=
  match event with
  | .receive (.headers streamId _ _ headerBlock) =>
      match conn.hpackDecoder.decode headerBlock with
      | .ok (.ok _, _) => if streamId = id then some (received.getD 0) else received
      | _ => received
  | .receive (.data streamId _ _) => if streamId = id then received.map fun n => n + conn.charge event else received
  | _ => received

def received (settings : H2Settings) (history : List Event) : Nat :=
  carried H2Connection.step (fun conn event n => n + conn.charge event) (.new settings) 0 history

-- What has come in on a stream since it was opened.
def receivedOn (id : UInt32) (settings : H2Settings) (history : List Event) : Option Nat :=
  carried H2Connection.step (H2Connection.chargeOn id) (.new settings) none history

def receiveCredit (settings : H2Settings) (n : Nat) : Int := settings.initialWindowSize.toNat - n

structure Metered (settings : H2Settings) (history : List Event) (conn : H2Connection) : Prop where
  connection : conn.recvWindow.toInt = receiveCredit settings (received settings history)
  connectionBound : 0 ≤ conn.recvWindow.toInt
  streams : ∀ id, Balanced (fun stream => stream.recvWindow.toInt) (receiveCredit settings) (receivedOn id settings history)
    (conn.getStream id)

-- A frame with more bytes than a window has left.
def H2Connection.Exceeds (conn : H2Connection) (streamId : UInt32) (bytes : Bytes) : Prop :=
  conn.recvWindow.toInt < bytes.length ∨
    ∃ stream, conn.getStream streamId = some stream ∧ stream.recvWindow.toInt < bytes.length

def H2Connection.Refuses (conn : H2Connection) (frame : Frame) : Prop :=
  ∃ conn', conn.processFrame frame = .ok (.error .flowControlError, conn') ∧ conn'.recvWindow = conn.recvWindow ∧
    conn'.sendWindow = conn.sendWindow ∧ ∀ id, conn'.getStream id = conn.getStream id

def H2Connection.Enforces (conn : H2Connection) : Event → Prop
  | .receive (.data streamId endStream bytes) => conn.Exceeds streamId bytes → conn.Refuses (.data streamId endStream bytes)
  | _ => True

-- DATA that the code counts as they must be counted.
def H2Connection.Counts (conn : H2Connection) : Event → Prop
  | .receive (.data streamId _ bytes) =>
      bytes = [] ∨ (∃ stream, conn.getStream streamId = some stream ∧ stream.canReceive = true) ∧
        bytes.length ≤ conn.recvWindow.toInt
  | _ => True

theorem received_snoc (settings : H2Settings) (before : List Event) (conn : H2Connection) (event : Event)
    (reached : execute H2Connection.step (.new settings) before = some conn) :
    received settings (before ++ [event]) = received settings before + conn.charge event :=
  carried_snoc _ _ conn 0 before event reached

theorem received_on_snoc (id : UInt32) (settings : H2Settings) (before : List Event) (conn : H2Connection) (event : Event)
    (reached : execute H2Connection.step (.new settings) before = some conn) :
    receivedOn id settings (before ++ [event]) = conn.chargeOn id event (receivedOn id settings before) :=
  carried_snoc _ _ conn none before event reached

theorem charge_on_grows (id : UInt32) (conn : H2Connection) (event : Event) (old : Option Nat) (n : Nat)
    (there : conn.chargeOn id event old = some n) : n ≤ old.getD 0 + conn.charge event := by
  have kept (same : old = some n) : n ≤ old.getD 0 + conn.charge event := by
    rw [same]
    exact Nat.le_add_right n _
  cases event with
  | send call => exact kept there
  | receive frame =>
      cases frame with
      | headers streamId endStream endHeaders headerBlock =>
          rcases decoded : conn.hpackDecoder.decode headerBlock with fault | ⟨e | headers, decoder⟩
          · simp only [H2Connection.chargeOn, decoded] at there
            exact kept there
          · simp only [H2Connection.chargeOn, decoded] at there
            exact kept there
          · simp only [H2Connection.chargeOn, decoded] at there
            split at there
            · exact Nat.le_of_eq (Option.some.inj there).symm
            · exact kept there
      | data streamId endStream bytes =>
          simp only [H2Connection.chargeOn] at there
          split at there
          · obtain ⟨m, rfl, rfl⟩ := Option.map_eq_some_iff.mp there
            exact Nat.le_refl _
          · exact kept there
      | _ => exact kept there

-- No stream has taken in more than the connection.
theorem received_within (settings : H2Settings) (history : List Event) (conn : H2Connection) (id : UInt32) (n : Nat)
    (reached : execute H2Connection.step (.new settings) history = some conn)
    (there : receivedOn id settings history = some n) : n ≤ received settings history := by
  induction history using List.reverseRecOn generalizing conn n with
  | nil => cases there
  | append_singleton earlier event ih =>
      rw [execute_snoc, Option.bind_eq_some_iff] at reached
      obtain ⟨middle, before, taken⟩ := reached
      rw [received_on_snoc id settings earlier middle event before] at there
      rw [received_snoc settings earlier middle event before]
      have grown := charge_on_grows id middle event _ n there
      cases old : receivedOn id settings earlier with
      | none =>
          rw [old, Option.getD_none] at grown
          omega
      | some m =>
          rw [old, Option.getD_some] at grown
          have within := ih middle m before old
          omega

theorem data_answered (conn : H2Connection) (streamId : UInt32) (endStream : Bool) (bytes : Bytes) :
    ∃ conn', conn.processFrame (.data streamId endStream bytes) = .ok (.ok (), conn') := by
  simp only [H2Connection.processFrame]
  cases conn.streams.lookup streamId with
  | none => exact ⟨conn, rfl⟩
  | some stream =>
      by_cases receives : stream.canReceive = true
      · simp only [receives, if_true]
        exact ⟨_, rfl⟩
      · simp only [receives, Bool.false_eq_true, if_false]
        exact ⟨conn, rfl⟩

theorem data_charge (conn : H2Connection) (streamId : UInt32) (endStream : Bool) (bytes : Bytes) :
    conn.charge (.receive (.data streamId endStream bytes)) = bytes.length := by
  obtain ⟨conn', answered⟩ := data_answered conn streamId endStream bytes
  simp only [H2Connection.charge, answered]

theorem never_refused (conn : H2Connection) (streamId : UInt32) (endStream : Bool) (bytes : Bytes) :
    ¬ conn.Refuses (.data streamId endStream bytes) := by
  rintro ⟨after, refused, _⟩
  obtain ⟨conn', answered⟩ := data_answered conn streamId endStream bytes
  rw [answered] at refused
  cases refused

theorem kept_snoc (settings : H2Settings) (before : List Event) (conn conn' : H2Connection) (event : Event)
    (reached : execute H2Connection.step (.new settings) before = some conn) (kept : Metered settings before conn) :
    Metered settings (before ++ [event]) conn' ↔
      (conn'.recvWindow.toInt = conn.recvWindow.toInt - conn.charge event ∧ 0 ≤ conn'.recvWindow.toInt) ∧
        ∀ id, Balanced (fun stream => stream.recvWindow.toInt) (receiveCredit settings)
          (conn.chargeOn id event (receivedOn id settings before)) (conn'.getStream id) := by
  have total : receiveCredit settings (received settings (before ++ [event])) = conn.recvWindow.toInt - conn.charge event := by
    rw [received_snoc settings before conn event reached, kept.connection, receiveCredit, receiveCredit]
    omega
  constructor
  · rintro ⟨connection, bound, streams⟩
    refine ⟨⟨connection.trans total, bound⟩, fun id => ?_⟩
    rw [← received_on_snoc id settings before conn event reached]
    exact streams id
  · rintro ⟨⟨connection, bound⟩, streams⟩
    refine ⟨connection.trans total.symm, bound, fun id => ?_⟩
    rw [received_on_snoc id settings before conn event reached]
    exact streams id

-- An event that brings no data and opens no stream.
theorem kept_quiet (settings : H2Settings) (before : List Event) (conn conn' : H2Connection) (event : Event)
    (reached : execute H2Connection.step (.new settings) before = some conn) (kept : Metered settings before conn)
    (window : conn'.recvWindow = conn.recvWindow) (charge : conn.charge event = 0)
    (chargeOn : ∀ id n, conn.chargeOn id event n = n)
    (streams : ∀ id, (conn'.getStream id).map Stream.recvWindow = (conn.getStream id).map Stream.recvWindow) :
    Metered settings (before ++ [event]) conn' := by
  refine (kept_snoc settings before conn conn' event reached kept).mpr ⟨⟨?_, ?_⟩, fun id => ?_⟩
  · rw [window, charge, Int.natCast_zero, Int.sub_zero]
  · exact window ▸ kept.connectionBound
  · rw [chargeOn]
    exact same_value _ _ _ (same_numbers _ _ _ (streams id)) (kept.streams id)

theorem receive_headers_recv (stream : Stream) (headers : List Hpack.Header) (endStream : Bool) :
    (stream.receiveHeaders headers endStream).recvWindow = stream.recvWindow :=
  receive_headers_keeps Stream.recvWindow (fun _ _ => rfl) stream headers endStream fun _ => rfl

theorem receive_data_recv (stream : Stream) (bytes : Bytes) (endStream : Bool) :
    (stream.receiveData bytes endStream).recvWindow = stream.recvWindow - .ofNat bytes.length := by
  cases endStream with
  | false => rfl
  | true => exact half_close_remote_keeps Stream.recvWindow (fun _ _ => rfl) _

theorem send_kept (settings : H2Settings) (before : List Event) (conn : H2Connection) (call : SendCall)
    (reached : execute H2Connection.step (.new settings) before = some conn) (kept : Metered settings before conn) :
    Metered settings (before ++ [.send call]) (conn.send call) := by
  refine kept_quiet settings before conn _ (.send call) reached kept ?_ rfl (fun _ _ => rfl) fun id => ?_
  · cases call <;> rfl
  · rw [send_stream]
    split
    · exact unchanged_map _ _ _ fun stream => answer_keeps Stream.recvWindow (fun _ _ => rfl) call stream fun _ _ => rfl
    · rfl

theorem headers_kept (settings : H2Settings) (before : List Event) (conn conn' : H2Connection) (streamId : UInt32)
    (endStream endHeaders : Bool) (headerBlock : Bytes) (small : settings.initialWindowSize.toNat < 2 ^ 31)
    (reached : execute H2Connection.step (.new settings) before = some conn) (kept : Metered settings before conn)
    (taken : conn.step (.receive (.headers streamId endStream endHeaders headerBlock)) = some conn') :
    Metered settings (before ++ [.receive (.headers streamId endStream endHeaders headerBlock)]) conn' := by
  have loop := receive_effect conn conn' _ taken
  have window : conn'.recvWindow = conn.recvWindow := loop.recvWindow.trans (Int32.sub_zero _)
  refine (kept_snoc settings before conn conn' _ reached kept).mpr ⟨⟨?_, ?_⟩, fun id => ?_⟩
  · rw [window]
    exact (Int.sub_zero _).symm
  · exact window ▸ kept.connectionBound
  · have old := kept.streams id
    rw [loop.streams]
    rcases decoded : conn.hpackDecoder.decode headerBlock with fault | ⟨e | headers, decoder⟩
    · simp only [H2Connection.chargeOn, H2Connection.streamAfter, decoded]
      exact old
    · simp only [H2Connection.chargeOn, H2Connection.streamAfter, decoded]
      exact old
    · simp only [H2Connection.chargeOn, H2Connection.streamAfter, decoded]
      by_cases mine : streamId = id
      · rw [if_pos mine, if_pos mine]
        have cast : settings.initialWindowSize.toInt32.toInt = settings.initialWindowSize.toNat := (cast_exact_iff _).mpr small
        rw [run_local (.new settings) conn before reached]
        refine opened_balanced _ _ 0 _ (fun stream => stream.receiveHeaders headers endStream) (fun stream => ?_) ?_ ?_ old
        · rw [receive_headers_recv]
        · exact cast.trans (Int.sub_zero _).symm
        · exact le_of_le_of_eq (Int.natCast_nonneg _) cast.symm
      · rw [if_neg mine, if_neg mine]
        exact old

-- No stream has less room than the connection.
theorem stream_room (settings : H2Settings) (before : List Event) (conn : H2Connection) (id : UInt32) (stream : Stream)
    (reached : execute H2Connection.step (.new settings) before = some conn) (kept : Metered settings before conn)
    (found : conn.getStream id = some stream) : conn.recvWindow.toInt ≤ stream.recvWindow.toInt := by
  have old := kept.streams id
  rw [found] at old
  obtain ⟨n, there⟩ := entry_some _ stream old
  have within := received_within settings before conn id n reached there
  rw [there] at old
  rw [((balanced_some_iff n stream).mp old).1, kept.connection, receiveCredit, receiveCredit]
  omega

theorem kept_counts (settings : H2Settings) (before : List Event) (conn conn' : H2Connection) (streamId : UInt32)
    (endStream : Bool) (bytes : Bytes) (reached : execute H2Connection.step (.new settings) before = some conn)
    (kept : Metered settings before conn) (taken : conn.step (.receive (.data streamId endStream bytes)) = some conn')
    (after : Metered settings (before ++ [.receive (.data streamId endStream bytes)]) conn')
    (enforced : conn.Enforces (.receive (.data streamId endStream bytes))) :
    conn.Counts (.receive (.data streamId endStream bytes)) := by
  have window := (receive_effect conn conn' _ taken).recvWindow
  have charged := ((kept_snoc settings before conn conn' _ reached kept).mp after).1.1
  rw [data_charge] at charged
  by_cases nothing : bytes = []
  · exact .inl nothing
  · have long : bytes.length ≠ 0 := fun zero => nothing (List.eq_nil_of_length_eq_zero zero)
    have counted : conn.accepts (.data streamId endStream bytes) ≠ 0 := by
      intro none
      rw [none] at window
      have same : conn'.recvWindow = conn.recvWindow := window.trans (Int32.sub_zero _)
      rw [same] at charged
      omega
    refine .inr ⟨?_, ?_⟩
    · rw [H2Connection.accepts] at counted
      have receives := of_not_not fun closed => counted (if_neg closed)
      exact Option.any_eq_true _ _ |>.mp receives
    · by_contra beyond
      exact never_refused conn streamId endStream bytes (enforced (.inl (Int.not_le.mp beyond)))

-- What a frame that counts leaves of its stream's room.
theorem counted_stream (conn : H2Connection) (streamId : UInt32) (endStream : Bool) (bytes : Bytes) (stream : Stream)
    (counts : conn.Counts (.receive (.data streamId endStream bytes))) (found : conn.getStream streamId = some stream)
    (room : bytes.length ≤ stream.recvWindow.toInt) :
    (if stream.canReceive = true then stream.receiveData bytes endStream else stream).recvWindow.toInt =
      stream.recvWindow.toInt - bytes.length := by
  by_cases receives : stream.canReceive = true
  · rw [if_pos receives, receive_data_recv, take_length_exact _ _ room]
  · rw [if_neg receives]
    have empty : bytes = [] := by
      rcases counts with nothing | ⟨⟨other, also, opened⟩, _⟩
      · exact nothing
      · exact absurd (Option.some.inj (found.symm.trans also) ▸ opened) receives
    rw [empty]
    exact (Int.sub_zero _).symm

theorem counts_kept (settings : H2Settings) (before : List Event) (conn conn' : H2Connection) (streamId : UInt32)
    (endStream : Bool) (bytes : Bytes) (reached : execute H2Connection.step (.new settings) before = some conn)
    (kept : Metered settings before conn) (taken : conn.step (.receive (.data streamId endStream bytes)) = some conn')
    (counts : conn.Counts (.receive (.data streamId endStream bytes))) :
    Metered settings (before ++ [.receive (.data streamId endStream bytes)]) conn' ∧
      conn.Enforces (.receive (.data streamId endStream bytes)) := by
  have loop := receive_effect conn conn' _ taken
  have window := loop.recvWindow
  have room : bytes.length ≤ conn.recvWindow.toInt := by
    rcases counts with rfl | ⟨_, room⟩
    · exact kept.connectionBound
    · exact room
  have wide (stream : Stream) (found : conn.getStream streamId = some stream) : bytes.length ≤ stream.recvWindow.toInt :=
    Int.le_trans room (stream_room settings before conn streamId stream reached kept found)
  have whole : conn.accepts (.data streamId endStream bytes) = bytes.length := by
    rcases counts with rfl | ⟨⟨stream, found, receives⟩, _⟩
    · exact ite_self 0
    · rw [H2Connection.accepts, found, Option.any_some, if_pos receives]
  rw [whole] at window
  refine ⟨(kept_snoc settings before conn conn' _ reached kept).mpr ⟨⟨?_, ?_⟩, fun id => ?_⟩, ?_⟩
  · rw [window, take_length_exact _ _ room, data_charge]
  · rw [window, take_length_exact _ _ room]
    omega
  · have old := kept.streams id
    rw [loop.streams]
    simp only [H2Connection.chargeOn, H2Connection.streamAfter, data_charge]
    by_cases mine : streamId = id
    · subst mine
      rw [if_pos rfl, if_pos rfl]
      cases found : conn.getStream streamId with
      | none =>
          rw [found] at old
          rw [entry_none _ old]
          exact balanced_none _ _
      | some stream =>
          rw [found] at old
          obtain ⟨n, there⟩ := entry_some _ stream old
          rw [there] at old ⊢
          have left := counted_stream conn streamId endStream bytes stream counts found (wide stream found)
          have above := wide stream found
          refine (moved_iff n (n + bytes.length) stream _ (-bytes.length) old ?_).mpr ⟨left, left ▸ by omega⟩
          rw [receiveCredit, receiveCredit]
          omega
    · rw [if_neg mine, if_neg mine]
      exact old
  · rintro (beyond | ⟨stream, found, beyond⟩)
    · omega
    · have above := wide stream found
      omega

theorem kept_iff_counts (settings : H2Settings) (before : List Event) (conn conn' : H2Connection) (event : Event)
    (small : settings.initialWindowSize.toNat < 2 ^ 31)
    (reached : execute H2Connection.step (.new settings) before = some conn) (kept : Metered settings before conn)
    (taken : conn.step event = some conn') :
    Metered settings (before ++ [event]) conn' ∧ conn.Enforces event ↔ conn.Counts event := by
  cases event with
  | send call =>
      obtain rfl := Option.some.inj taken
      exact iff_of_true ⟨send_kept settings before conn call reached kept, trivial⟩ trivial
  | receive frame =>
      have loop := receive_effect conn conn' frame taken
      have quiet (window : conn.accepts frame = 0) (charge : conn.charge (.receive frame) = 0)
          (chargeOn : ∀ id n, conn.chargeOn id (.receive frame) n = n)
          (streams : ∀ id, (conn.streamAfter id frame).map Stream.recvWindow = (conn.getStream id).map Stream.recvWindow) :
          Metered settings (before ++ [.receive frame]) conn' := by
        refine kept_quiet settings before conn conn' _ reached kept ?_ charge chargeOn fun id => ?_
        · rw [loop.recvWindow, window]
          exact Int32.sub_zero _
        · rw [loop.streams]
          exact streams id
      cases frame with
      | headers streamId endStream endHeaders headerBlock =>
          exact iff_of_true
            ⟨headers_kept settings before conn conn' streamId endStream endHeaders headerBlock small reached kept taken, trivial⟩
            trivial
      | data streamId endStream bytes =>
          constructor
          · rintro ⟨after, enforced⟩
            exact kept_counts settings before conn conn' streamId endStream bytes reached kept taken after enforced
          · exact counts_kept settings before conn conn' streamId endStream bytes reached kept taken
      | windowUpdate streamId increment =>
          refine iff_of_true ⟨quiet rfl rfl (fun _ _ => rfl) fun id => ?_, trivial⟩ trivial
          simp only [H2Connection.streamAfter]
          split
          · exact unchanged_map _ _ _ fun stream => rfl
          · rfl
      | rstStream streamId errorCode =>
          refine iff_of_true ⟨quiet rfl rfl (fun _ _ => rfl) fun id => ?_, trivial⟩ trivial
          simp only [H2Connection.streamAfter]
          split
          · exact unchanged_map _ _ _ fun stream => rfl
          · rfl
      | settings ack pairs =>
          refine iff_of_true ⟨quiet rfl rfl (fun _ _ => rfl) fun id => ?_, trivial⟩ trivial
          cases ack with
          | true => rfl
          | false => exact unchanged_map _ _ _ (settle_keeps Stream.recvWindow (fun _ _ => rfl) pairs _)
      | _ => exact iff_of_true ⟨quiet rfl rfl (fun _ _ => rfl) fun _ => rfl, trivial⟩ trivial

theorem receive_window_iff (settings : H2Settings) (events : List Event)
    (small : settings.initialWindowSize.toNat < 2 ^ 31) :
    (∀ history conn, Reached H2Connection.step (.new settings) events history conn → Metered settings history conn) ∧
        (∀ before event conn conn', Taken H2Connection.step (.new settings) events before event conn conn' →
          conn.Enforces event) ↔
      ∀ before event conn conn', Taken H2Connection.step (.new settings) events before event conn conn' → conn.Counts event := by
  have cast : settings.initialWindowSize.toInt32.toInt = settings.initialWindowSize.toNat := (cast_exact_iff _).mpr small
  have first : Metered settings [] (.new settings) := by
    refine ⟨cast.trans (Int.sub_zero _).symm, ?_, fun id => balanced_none _ _⟩
    exact le_of_le_of_eq (Int.natCast_nonneg _) cast.symm
  exact each_state_and_step_iff (Metered settings) (fun _ conn event _ => conn.Enforces event)
    (fun _ conn event _ => conn.Counts event) (.new settings) events first fun before event conn conn' kept there =>
      kept_iff_counts settings before conn conn' event small there.reached kept there.taken

theorem upload_counted : ∃ conn, execute H2Connection.step (.new {})
      [.receive (.headers 1 false true [0x82]), .receive (.data 1 true [0x68])] = some conn ∧
    Metered {} [.receive (.headers 1 false true [0x82]), .receive (.data 1 true [0x68])] conn := by
  refine ⟨_, rfl, ((receive_window_iff {} [.receive (.headers 1 false true [0x82]), .receive (.data 1 true [0x68])]
    (by decide)).mpr ?_).1 _ _ ⟨List.prefix_refl _, rfl⟩⟩
  intro before event conn conn' there
  rcases taken_cons _ _ _ _ _ _ _ there with ⟨_, rfl, _⟩ | ⟨middle, rest, first, _, later⟩
  · exact trivial
  · obtain rfl := Option.some.inj first
    rcases taken_cons _ _ _ _ _ _ _ later with ⟨_, rfl, rfl⟩ | ⟨_, _, _, _, none⟩
    · exact .inr ⟨⟨_, rfl, rfl⟩, by decide⟩
    · exact absurd none (taken_nil _ _ _ _ _)

-- A byte for a stream that was never opened.
theorem unknown_data_uncounted : ∃ conn, execute H2Connection.step (.new {}) [.receive (.data 1 false [0x68])] = some conn ∧
    conn.recvWindow.toInt = 65535 ∧ received {} [.receive (.data 1 false [0x68])] = 1 ∧
    ¬ Metered {} [.receive (.data 1 false [0x68])] conn := by
  refine ⟨_, rfl, rfl, rfl, fun kept => ?_⟩
  exact absurd kept.connection (by decide)

end Ners.H2
