import Ners.Base.Balance
import Ners.H2.Outgoing
import Ners.H2.Windows

set_option autoImplicit false

namespace Ners.H2

open Runs (Taken each_step_iff execute execute_snoc)
open Balance
open Signed

def Frame.dataBytes : Frame → Nat
  | .data _ _ bytes => bytes.length
  | _ => 0

def dataQueued (frames : List Frame) : Nat := (frames.map Frame.dataBytes).sum

def dataQueuedOn (id : UInt32) (frames : List Frame) : Nat := dataQueued (frames.filter (Frame.speaks id))

def Event.connectionIncrement : Event → Nat
  | .receive (.windowUpdate streamId increment) => if streamId = 0 then increment.toNat else 0
  | _ => 0

def connectionCredit (settings : H2Settings) (history : List Event) : Int :=
  settings.initialWindowSize.toInt32.toInt + ((history.map Event.connectionIncrement).sum : Nat)

def streamCredit (settings : H2Settings) (a : Account) : Int :=
  settings.initialWindowSize.toInt32.toInt + a.increments + a.changes

structure Credited (settings : H2Settings) (history : List Event) (conn : H2Connection) : Prop where
  connection : conn.sendWindow.toInt = connectionCredit settings history - dataQueued conn.outgoing
  connectionBound : dataQueued conn.outgoing ≤ connectionCredit settings history
  streams : ∀ id, (conn.getStream id).map (fun stream => stream.sendWindow.toInt) =
    (accountOf id settings history).map fun a => streamCredit settings a - dataQueuedOn id conn.outgoing
  streamsBound : ∀ id a, accountOf id settings history = some a → dataQueuedOn id conn.outgoing ≤ streamCredit settings a

-- An event that queues no data and takes no send window out of its range.
def H2Connection.Covers (conn : H2Connection) : Event → Prop
  | .send (.data _ bytes _) => bytes = []
  | .receive (.windowUpdate streamId increment) =>
      if streamId = 0 then conn.sendWindow.toInt + increment.toNat < 2 ^ 31
      else ∀ stream, conn.getStream streamId = some stream → stream.sendWindow.toInt + increment.toNat < 2 ^ 31
  | .receive (.settings false pairs) =>
      ∀ id stream, conn.getStream id = some stream → ∀ value ∈ initialValues pairs,
        0 ≤ stream.sendWindow.toInt + (value.toNat - conn.remoteSettings.initialWindowSize.toNat) ∧
          stream.sendWindow.toInt + (value.toNat - conn.remoteSettings.initialWindowSize.toNat) < 2 ^ 31
  | _ => True

theorem queued_append (frames more : List Frame) : dataQueued (frames ++ more) = dataQueued frames + dataQueued more := by
  rw [dataQueued, List.map_append, List.sum_append]
  rfl

theorem queued_on_append (id : UInt32) (frames more : List Frame) :
    dataQueuedOn id (frames ++ more) = dataQueuedOn id frames + dataQueuedOn id more := by
  rw [dataQueuedOn, List.filter_append, queued_append]
  rfl

theorem queued_on_within (id : UInt32) (frames : List Frame) : dataQueuedOn id frames ≤ dataQueued frames := by
  induction frames with
  | nil => exact Nat.le_refl _
  | cons frame rest ih =>
      have parts : frame :: rest = [frame] ++ rest := rfl
      rw [parts, queued_on_append, queued_append]
      refine Nat.add_le_add ?_ ih
      rw [dataQueuedOn, List.filter_cons]
      split
      · exact Nat.le_refl _
      · exact Nat.zero_le _

theorem replies_no_data (frame : Frame) : dataQueued frame.replies = 0 := by
  cases frame with
  | settings ack pairs => cases ack <;> rfl
  | ping ack bytes => cases ack <;> rfl
  | _ => rfl

theorem connection_credit_snoc (settings : H2Settings) (history : List Event) (event : Event) :
    connectionCredit settings (history ++ [event]) = connectionCredit settings history + event.connectionIncrement := by
  rw [connectionCredit, connectionCredit, List.map_append, List.sum_append, List.map_singleton, List.sum_singleton]
  omega

abbrev StreamUnspent (settings : H2Settings) : Option Account → Option Stream → Prop :=
  Balanced (fun stream => stream.sendWindow.toInt) (streamCredit settings)

-- What credit comes to while no data are queued.
structure Unspent (settings : H2Settings) (history : List Event) (conn : H2Connection) : Prop where
  connection : conn.sendWindow.toInt = connectionCredit settings history
  connectionBound : 0 ≤ conn.sendWindow.toInt
  streams : ∀ id, StreamUnspent settings (accountOf id settings history) (conn.getStream id)

theorem unspent_iff (settings : H2Settings) (history : List Event) (conn : H2Connection) (none : dataQueued conn.outgoing = 0) :
    Credited settings history conn ↔ Unspent settings history conn := by
  have noneOn (id : UInt32) : dataQueuedOn id conn.outgoing = 0 :=
    Nat.eq_zero_of_le_zero (none ▸ queued_on_within id conn.outgoing)
  constructor
  · rintro ⟨connection, bound, streams, bounds⟩
    simp only [noneOn, none, Int.natCast_zero, Int.sub_zero] at connection bound streams bounds
    refine ⟨connection, connection ▸ bound, fun id => ⟨streams id, fun stream found => ?_⟩⟩
    have here := streams id
    rw [found, Option.map_some, eq_comm, Option.map_eq_some_iff] at here
    obtain ⟨a, there, same⟩ := here
    exact same ▸ bounds id a there
  · rintro ⟨connection, bound, streams⟩
    refine ⟨?_, ?_, fun id => ?_, fun id a there => ?_⟩
    · rw [none, connection, Int.natCast_zero, Int.sub_zero]
    · rw [none, ← connection]
      exact bound
    · simp only [noneOn, Int.natCast_zero, Int.sub_zero]
      exact (streams id).1
    · have here := (streams id).1
      rw [there, Option.map_some, Option.map_eq_some_iff] at here
      obtain ⟨stream, found, same⟩ := here
      rw [noneOn, ← same]
      exact (streams id).2 stream found

theorem unspent_snoc (settings : H2Settings) (before : List Event) (conn p : H2Connection) (event : Event)
    (reached : execute H2Connection.step (.new settings) before = some conn) (unspent : Unspent settings before conn) :
    Unspent settings (before ++ [event]) p ↔
      (p.sendWindow.toInt = conn.sendWindow.toInt + event.connectionIncrement ∧ 0 ≤ p.sendWindow.toInt) ∧
        ∀ id, StreamUnspent settings (conn.account id event (accountOf id settings before)) (p.getStream id) := by
  constructor
  · rintro ⟨connection, bound, streams⟩
    rw [connection_credit_snoc, ← unspent.connection] at connection
    refine ⟨⟨connection, bound⟩, fun id => ?_⟩
    rw [← account_snoc id settings before conn event reached]
    exact streams id
  · rintro ⟨⟨connection, bound⟩, streams⟩
    refine ⟨?_, bound, fun id => ?_⟩
    · rw [connection_credit_snoc, ← unspent.connection]
      exact connection
    · rw [account_snoc id settings before conn event reached]
      exact streams id

theorem same_window (settings : H2Settings) (a : Option Account) (stream after : Option Stream)
    (same : after.map Stream.sendWindow = stream.map Stream.sendWindow) (unspent : StreamUnspent settings a stream) :
    StreamUnspent settings a after :=
  same_value a stream after (same_numbers _ stream after same) unspent

-- The connection window stays as it is, and the streams decide.
theorem unspent_still (settings : H2Settings) (before : List Event) (conn p : H2Connection) (event : Event)
    (reached : execute H2Connection.step (.new settings) before = some conn) (unspent : Unspent settings before conn)
    (window : p.sendWindow = conn.sendWindow) (increment : event.connectionIncrement = 0) :
    Unspent settings (before ++ [event]) p ↔
      ∀ id, StreamUnspent settings (conn.account id event (accountOf id settings before)) (p.getStream id) := by
  rw [unspent_snoc settings before conn p event reached unspent, window, increment]
  exact and_iff_right ⟨(Int.add_zero _).symm, unspent.connectionBound⟩

-- An event without part in flow control.
theorem unspent_quiet (settings : H2Settings) (before : List Event) (conn p : H2Connection) (event : Event)
    (reached : execute H2Connection.step (.new settings) before = some conn) (unspent : Unspent settings before conn)
    (window : p.sendWindow = conn.sendWindow) (increment : event.connectionIncrement = 0)
    (account : ∀ id a, conn.account id event a = a)
    (streams : ∀ id, (p.getStream id).map Stream.sendWindow = (conn.getStream id).map Stream.sendWindow) :
    Unspent settings (before ++ [event]) p := by
  refine (unspent_still settings before conn p event reached unspent window increment).mpr fun id => ?_
  rw [account]
  exact same_window settings _ _ _ (streams id) (unspent.streams id)

theorem headers_unspent (settings : H2Settings) (conn : H2Connection) (streamId : UInt32) (endStream endHeaders : Bool)
    (headerBlock : Bytes) (id : UInt32) (a : Option Account) (start : 0 ≤ settings.initialWindowSize.toInt32.toInt)
    (own : conn.localSettings = settings) (unspent : StreamUnspent settings a (conn.getStream id)) :
    StreamUnspent settings (conn.account id (.receive (.headers streamId endStream endHeaders headerBlock)) a)
      (conn.streamAfter id (.headers streamId endStream endHeaders headerBlock)) := by
  by_cases decodes : ∃ headers decoder, conn.hpackDecoder.decode headerBlock = .ok (.ok headers, decoder)
  · obtain ⟨headers, decoder, decoded⟩ := decodes
    simp only [H2Connection.account, H2Connection.streamAfter, decoded]
    by_cases mine : streamId = id
    · rw [if_pos mine, if_pos mine, own]
      refine opened_balanced _ _ ⟨0, 0⟩ _ (fun stream => stream.receiveHeaders headers endStream) (fun stream => ?_) ?_ ?_ unspent
      · rw [receive_headers_window]
      · exact (Int.add_zero _).symm.trans (Int.add_zero _).symm
      · exact start
    · rw [if_neg mine, if_neg mine]
      exact unspent
  · obtain ⟨account, stream⟩ := headers_undecoded conn streamId endStream endHeaders headerBlock
      (fun headers decoder also => decodes ⟨headers, decoder, also⟩) id a
    rw [account, stream]
    exact unspent

theorem increment_unspent (settings : H2Settings) (conn : H2Connection) (streamId increment : UInt32) (whole : streamId ≠ 0)
    (accounts : UInt32 → Option Account) (unspent : ∀ id, StreamUnspent settings (accounts id) (conn.getStream id)) :
    (∀ id, StreamUnspent settings (conn.account id (.receive (.windowUpdate streamId increment)) (accounts id))
      (conn.streamAfter id (.windowUpdate streamId increment))) ↔
    ∀ stream, conn.getStream streamId = some stream → stream.sendWindow.toInt + increment.toNat < 2 ^ 31 := by
  have moved (stream : Stream) (found : conn.getStream streamId = some stream) :
      StreamUnspent settings (conn.account streamId (.receive (.windowUpdate streamId increment)) (accounts streamId))
        (conn.streamAfter streamId (.windowUpdate streamId increment)) ↔
      stream.sendWindow.toInt + increment.toNat < 2 ^ 31 := by
    have old := unspent streamId
    rw [found] at old
    obtain ⟨a, there⟩ := entry_some _ stream old
    rw [there] at old
    have bound := old.2 stream rfl
    simp only [H2Connection.account, H2Connection.streamAfter, found, there, ne_eq, whole, not_false_eq_true, and_self, if_true,
      Option.map_some]
    refine (moved_iff a ⟨a.increments + increment.toNat, a.changes⟩ stream _ increment.toNat old ?_).trans ?_
    · simp only [streamCredit]
      omega
    have sum := clamp_increment_iff stream.sendWindow increment bound
    constructor
    · rintro ⟨exact_, _⟩
      exact sum.mp exact_
    · intro room
      have exact_ := sum.mpr room
      exact ⟨exact_, le_of_le_of_eq (by omega) exact_.symm⟩
  constructor
  · intro every stream found
    exact (moved stream found).mp (every streamId)
  · intro room id
    by_cases mine : streamId = id
    · subst mine
      cases found : conn.getStream streamId with
      | none =>
          have old := unspent streamId
          rw [found] at old
          simp only [H2Connection.account, H2Connection.streamAfter, found, entry_none _ old, ite_self, Option.map_none]
          exact balanced_none _ _
      | some stream => exact (moved stream found).mpr (room stream found)
    · have other : ¬ (streamId ≠ 0 ∧ streamId = id) := fun both => mine both.2
      simp only [H2Connection.account, H2Connection.streamAfter, if_neg other]
      exact unspent id

theorem settled_unspent (settings : H2Settings) (conn : H2Connection) (done : List (UInt16 × UInt32)) (a : Option Account)
    (stream : Stream) (unspent : StreamUnspent settings a (some stream)) :
    StreamUnspent settings (conn.account 0 (.receive (.settings false done)) a)
        (some (Stream.settle conn.remoteSettings.initialWindowSize done stream)) ↔
      (Stream.settle conn.remoteSettings.initialWindowSize done stream).sendWindow.toInt =
          stream.sendWindow.toInt +
            ((latest 0x4 conn.remoteSettings.initialWindowSize done).toNat - conn.remoteSettings.initialWindowSize.toNat) ∧
        0 ≤ (Stream.settle conn.remoteSettings.initialWindowSize done stream).sendWindow.toInt := by
  obtain ⟨account, rfl⟩ := entry_some a stream unspent
  refine moved_iff account _ stream _ _ unspent ?_
  simp only [streamCredit]
  omega

theorem settings_unspent (settings : H2Settings) (conn : H2Connection) (pairs : List (UInt16 × UInt32))
    (accounts : UInt32 → Option Account) (unspent : ∀ id, StreamUnspent settings (accounts id) (conn.getStream id)) :
    (∀ done rest, pairs = done ++ rest → ∀ id,
      StreamUnspent settings (conn.account id (.receive (.settings false done)) (accounts id))
        (conn.streamAfter id (.settings false done))) ↔
    conn.Covers (.receive (.settings false pairs)) := by
  constructor
  · intro every id stream found value member
    obtain ⟨front, back, rfl⟩ := initial_value_split pairs value member
    have here := every (front ++ [(0x4, value)]) back (by simp) id
    have old := unspent id
    rw [found] at old
    simp only [H2Connection.streamAfter, found, Option.map_some] at here
    obtain ⟨same, bound⟩ := (settled_unspent settings conn _ _ stream old).mp here
    rw [latest_snoc] at same
    exact ⟨same ▸ bound, same ▸ Int32.toInt_lt _⟩
  · intro covers done rest split id
    have old := unspent id
    cases found : conn.getStream id with
    | none =>
        rw [found] at old
        simp only [H2Connection.account, H2Connection.streamAfter, found, entry_none _ old, Option.map_none]
        exact balanced_none _ _
    | some stream =>
        rw [found] at old
        simp only [H2Connection.streamAfter, found, Option.map_some]
        refine (settled_unspent settings conn done _ stream old).mpr ?_
        have bound := old.2 stream rfl
        have high := stream.sendWindow.toInt_lt
        have ranges value (member : value ∈ conn.remoteSettings.initialWindowSize :: initialValues done) :
            0 ≤ stream.sendWindow.toInt + (value.toNat - conn.remoteSettings.initialWindowSize.toNat) ∧
              stream.sendWindow.toInt + (value.toNat - conn.remoteSettings.initialWindowSize.toNat) < 2 ^ 31 := by
          rcases List.mem_cons.mp member with rfl | listed
          · omega
          · refine covers id stream found value ?_
            rw [split, initial_values_append]
            exact List.mem_append_left _ listed
        have exact_ := settle_exact done conn.remoteSettings.initialWindowSize stream
          (fun a first b second => by
            have one := ranges a first
            have two := ranges b second
            constructor <;> omega)
          (fun value member => by
            have one := ranges value (List.mem_cons_of_mem _ member)
            exact ⟨by omega, one.2⟩)
        exact ⟨exact_, exact_ ▸ (ranges _ (latest_listed _ done)).1⟩

-- Only a SETTINGS frame has parts.
theorem parts_alone (conn conn' : H2Connection) (event : Event) (taken : conn.step event = some conn')
    (Good : Event → H2Connection → Prop) (whole : ∀ pairs, event ≠ .receive (.settings false pairs)) :
    (∀ part p, part.Part event → conn.step part = some p → Good part p) ↔ Good event conn' := by
  constructor
  · intro every
    exact every event conn' (.inl rfl) taken
  · intro good part p cut also
    rcases cut with rfl | ⟨done, rest, same, _⟩
    · exact Option.some.inj (taken.symm.trans also) ▸ good
    · exact absurd same (whole _)

theorem received_no_data (conn p : H2Connection) (frame : Frame) (taken : conn.step (.receive frame) = some p) :
    dataQueued p.outgoing = dataQueued conn.outgoing := by
  rw [step_outgoing conn p _ taken, queued_append]
  exact (congrArg _ (replies_no_data frame)).trans (Nat.add_zero _)

section

-- Where no data have been queued and every window holds its credit.
variable (settings : H2Settings) (before : List Event) (conn : H2Connection)
  (reached : execute H2Connection.step (.new settings) before = some conn) (none : dataQueued conn.outgoing = 0)
  (unspent : Unspent settings before conn)

include reached unspent

theorem send_credited (call : SendCall) (empty : dataQueued (conn.send call).outgoing = 0) :
    Credited settings (before ++ [.send call]) (conn.send call) := by
  refine (unspent_iff settings _ _ empty).mpr (unspent_quiet settings before conn _ _ reached unspent ?_ rfl (fun _ _ => rfl) ?_)
  · cases call <;> rfl
  · intro id
    rw [send_stream]
    split
    · exact unchanged_map _ _ _ fun stream => answer_keeps Stream.sendWindow (fun _ _ => rfl) call stream fun _ _ => rfl
    · rfl

include none

theorem send_covers_iff (call : SendCall) :
    Credited settings (before ++ [.send call]) (conn.send call) ↔ conn.Covers (.send call) := by
  have queued := (send_frame conn call).1
  cases call with
  | headers streamId fields endStream =>
      refine iff_of_true (send_credited settings before conn reached unspent _ ?_) trivial
      rw [queued, queued_append, none]
      rfl
  | data streamId bytes endStream =>
      have size : dataQueued (conn.send (.data streamId bytes endStream)).outgoing = bytes.length := by
        rw [queued, queued_append, none, Nat.zero_add]
        exact Nat.add_zero _
      constructor
      · intro credited
        have left := credited.connection
        rw [connection_credit_snoc, ← unspent.connection, size] at left
        have window : (conn.send (.data streamId bytes endStream)).sendWindow = conn.sendWindow := rfl
        have increment : (Event.send (.data streamId bytes endStream)).connectionIncrement = 0 := rfl
        rw [window, increment] at left
        exact List.eq_nil_of_length_eq_zero (by omega)
      · intro empty
        have nothing : bytes = [] := empty
        refine send_credited settings before conn reached unspent _ ?_
        rw [size, nothing, List.length_nil]

theorem quiet_credited (conn' : H2Connection) (frame : Frame) (taken : conn.step (.receive frame) = some conn')
    (headers : ∀ streamId endStream endHeaders headerBlock, frame ≠ .headers streamId endStream endHeaders headerBlock)
    (grant : ∀ streamId increment, frame ≠ .windowUpdate streamId increment)
    (whole : ∀ pairs, frame ≠ .settings false pairs) (window : frame.connectionIncrement = 0)
    (increment : (Event.receive frame).connectionIncrement = 0) :
    Credited settings (before ++ [.receive frame]) conn' := by
  have loop := receive_effect conn conn' frame taken
  rw [unspent_iff settings _ _ ((received_no_data conn conn' frame taken).trans none)]
  refine unspent_quiet settings before conn conn' _ reached unspent ?_ increment (fun id a => ?_) fun id => ?_
  · rw [loop.sendWindow, window, Int32.add_zero]
  · exact (frame_quiet conn frame id headers grant whole).1 a
  · rw [loop.streams]
    exact (frame_quiet conn frame id headers grant whole).2

-- A frame that is no grant to the connection.
theorem received_credited_iff (conn' : H2Connection) (frame : Frame) (taken : conn.step (.receive frame) = some conn')
    (window : frame.connectionIncrement = 0) (increment : (Event.receive frame).connectionIncrement = 0) :
    Credited settings (before ++ [.receive frame]) conn' ↔
      ∀ id, StreamUnspent settings (conn.account id (.receive frame) (accountOf id settings before))
        (conn.streamAfter id frame) := by
  have loop := receive_effect conn conn' frame taken
  have still : conn'.sendWindow = conn.sendWindow := by
    rw [loop.sendWindow, window, Int32.add_zero]
  rw [unspent_iff settings _ _ ((received_no_data conn conn' frame taken).trans none),
    unspent_still settings before conn conn' _ reached unspent still increment]
  simp only [loop.streams]

theorem update_covers_iff (conn' : H2Connection) (streamId increment : UInt32)
    (taken : conn.step (.receive (.windowUpdate streamId increment)) = some conn') :
    Credited settings (before ++ [.receive (.windowUpdate streamId increment)]) conn' ↔
      conn.Covers (.receive (.windowUpdate streamId increment)) := by
  by_cases whole : streamId = 0
  · have loop := receive_effect conn conn' _ taken
    have window := loop.sendWindow
    have room := add_increment_iff conn.sendWindow increment unspent.connectionBound
    rw [unspent_iff settings _ _ ((received_no_data conn conn' _ taken).trans none),
      unspent_snoc settings before conn conn' _ reached unspent]
    simp only [H2Connection.Covers, Frame.connectionIncrement, Event.connectionIncrement, if_pos whole] at window ⊢
    rw [window]
    constructor
    · rintro ⟨⟨sum, _⟩, _⟩
      exact room.mp sum
    · intro within
      have sum := room.mpr within
      have bound := unspent.connectionBound
      refine ⟨⟨sum, le_of_le_of_eq (by omega) sum.symm⟩, fun id => ?_⟩
      have other : ¬ (streamId ≠ 0 ∧ streamId = id) := fun both => both.1 whole
      rw [loop.streams]
      simp only [H2Connection.account, H2Connection.streamAfter, if_neg other]
      exact unspent.streams id
  · rw [received_credited_iff settings before conn reached none unspent conn' _ taken (if_neg whole) (if_neg whole),
      increment_unspent settings conn streamId increment whole _ unspent.streams, H2Connection.Covers, if_neg whole]

theorem settings_covers_iff (pairs : List (UInt16 × UInt32)) :
    (∀ part p, part.Part (.receive (.settings false pairs)) → conn.step part = some p → Credited settings (before ++ [part]) p) ↔
      conn.Covers (.receive (.settings false pairs)) := by
  have behind (done : List (UInt16 × UInt32)) (p : H2Connection) (taken : conn.step (.receive (.settings false done)) = some p) :=
    received_credited_iff settings before conn reached none unspent p _ taken rfl rfl
  rw [← settings_unspent settings conn pairs (fun id => accountOf id settings before) unspent.streams]
  constructor
  · rintro every done rest rfl
    exact (behind done _ rfl).mp (every _ _ (.inr ⟨done, rest, rfl, rfl⟩) rfl)
  · intro every part p cut taken
    rcases cut with rfl | ⟨done, rest, same, rfl⟩
    · exact (behind pairs p taken).mpr (every pairs [] (List.append_nil _).symm)
    · exact (behind done p taken).mpr (every done rest (Frame.settings.inj (Event.receive.inj same)).2)

-- The step lemma.
theorem covers_iff (conn' : H2Connection) (event : Event) (start : 0 ≤ settings.initialWindowSize.toInt32.toInt)
    (taken : conn.step event = some conn') :
    (∀ part p, part.Part event → conn.step part = some p → Credited settings (before ++ [part]) p) ↔ conn.Covers event := by
  have alone := parts_alone conn conn' event taken fun part p => Credited settings (before ++ [part]) p
  have quiet := quiet_credited settings before conn reached none unspent conn'
  cases event with
  | send call =>
      rw [alone fun pairs same => by cases same]
      obtain rfl := Option.some.inj taken
      exact send_covers_iff settings before conn reached none unspent call
  | receive frame =>
      cases frame with
      | headers streamId endStream endHeaders headerBlock =>
          rw [alone fun pairs same => by cases same]
          refine iff_of_true ?_ trivial
          refine (received_credited_iff settings before conn reached none unspent conn' _ taken rfl rfl).mpr fun id => ?_
          exact headers_unspent settings conn streamId endStream endHeaders headerBlock id _ start
            (run_local (.new settings) conn before reached) (unspent.streams id)
      | windowUpdate streamId increment =>
          rw [alone fun pairs same => by cases same]
          exact update_covers_iff settings before conn reached none unspent conn' streamId increment taken
      | settings ack pairs =>
          cases ack with
          | true =>
              rw [alone fun pairs same => by cases same]
              exact iff_of_true (quiet _ taken (by simp) (by simp) (by simp) rfl rfl) trivial
          | false => exact settings_covers_iff settings before conn reached none unspent pairs
      | _ =>
          rw [alone fun pairs same => by cases same]
          exact iff_of_true (quiet _ taken (by simp) (by simp) (by simp) rfl rfl) trivial

end

theorem initial_credit (settings : H2Settings) :
    Credited settings [] (.new settings) ↔ 0 ≤ settings.initialWindowSize.toInt32.toInt := by
  constructor
  · intro credited
    exact le_of_le_of_eq credited.connectionBound (Int.add_zero _)
  · intro start
    refine (unspent_iff settings [] _ rfl).mpr ⟨(Int.add_zero _).symm, start, fun id => ?_⟩
    exact balanced_none _ _

theorem start_iff (settings : H2Settings) :
    0 ≤ settings.initialWindowSize.toInt32.toInt ↔ settings.initialWindowSize.toNat < 2 ^ 31 := by
  have cast := cast_exact_iff settings.initialWindowSize
  constructor
  · intro start
    refine cast.mp ?_
    rw [cast_bmod] at start ⊢
    have small := settings.initialWindowSize.toNat_lt
    rw [Int.bmod_def] at start ⊢
    omega
  · intro small
    rw [cast.mpr small]
    exact Int.natCast_nonneg _

theorem covered_quiet (settings : H2Settings) (before : List Event) (conn conn' : H2Connection) (event : Event)
    (none : dataQueued conn.outgoing = 0) (covers : conn.Covers event) (taken : conn.step event = some conn')
    (credited : Credited settings (before ++ [event]) conn') :
    Unspent settings (before ++ [event]) conn' ∧ dataQueued conn'.outgoing = 0 := by
  have empty : dataQueued conn'.outgoing = 0 := by
    cases event with
    | receive frame => exact (received_no_data conn conn' frame taken).trans none
    | send call =>
        obtain rfl := Option.some.inj taken
        rw [(send_frame conn call).1, queued_append, none]
        cases call with
        | headers streamId fields endStream => rfl
        | data streamId bytes endStream =>
            have nothing : bytes = [] := covers
            rw [nothing]
            rfl
  exact ⟨(unspent_iff settings _ _ empty).mp credited, empty⟩

theorem flow_control_iff (settings : H2Settings) (events : List Event) :
    (∀ history conn, Cut events history → execute H2Connection.step (.new settings) history = some conn →
      Credited settings history conn) ↔
    settings.initialWindowSize.toNat < 2 ^ 31 ∧
      ∀ before event conn conn', Taken H2Connection.step (.new settings) events before event conn conn' → conn.Covers event := by
  rw [cuts_iff, initial_credit, start_iff]
  refine and_congr_right fun small => ?_
  have start := (start_iff settings).mpr small
  have first := (unspent_iff settings [] _ rfl).mp ((initial_credit settings).mpr start)
  refine each_step_iff (fun before conn => Unspent settings before conn ∧ dataQueued conn.outgoing = 0)
    (fun before conn event conn' => ∀ part p, part.Part event → conn.step part = some p → Credited settings (before ++ [part]) p)
    (fun _ conn event _ => conn.Covers event) (.new settings) events ⟨first, rfl⟩ ?_ ?_
  · intro before event conn conn' inv there
    exact covers_iff settings before conn there.reached inv.2 inv.1 conn' event start there.taken
  · intro before event conn conn' inv there holds
    have covers := (covers_iff settings before conn there.reached inv.2 inv.1 conn' event start there.taken).mp holds
    exact covered_quiet settings before conn conn' event inv.2 covers there.taken (holds event conn' (.inl rfl) there.taken)

-- A byte goes out and no window pays for it.
theorem data_uncharged : ∃ conn, execute H2Connection.step (.new {})
      [.receive (.headers 1 true true [0x82]), .send (.data 1 [0x68] false)] = some conn ∧
    conn.sendWindow.toInt = 65535 ∧ dataQueued conn.outgoing = 1 ∧
    ¬ Credited {} [.receive (.headers 1 true true [0x82]), .send (.data 1 [0x68] false)] conn := by
  refine ⟨_, rfl, rfl, rfl, fun credited => ?_⟩
  exact absurd credited.connection (by decide)

end Ners.H2
