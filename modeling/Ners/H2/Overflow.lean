import Ners.H2.FrameStream
import Ners.H2.Windows

set_option autoImplicit false

namespace Ners.H2

open Runs (Taken each_step_iff execute taken_cons taken_nil)
open Signed

-- The results of the i32 arithmetic in process_frame as they are before they
-- are wrapped or clamped: those of one setting, of all settings and of a frame.
def H2Connection.settingArithmetic (conn : H2Connection) (id : UInt16) (value : UInt32) : List Int :=
  let remembered := conn.remoteSettings.initialWindowSize
  if id = 0x4 then
    (value.toNat : Int) :: (remembered.toNat : Int) :: (value.toInt32.toInt - remembered.toInt32.toInt) ::
      conn.streams.entries.map fun entry => entry.2.sendWindow.toInt + (value.toInt32 - remembered.toInt32).toInt
  else []

def H2Connection.settingsArithmetic (conn : H2Connection) : List (UInt16 × UInt32) → List Int
  | [] => []
  | (id, value) :: rest => conn.settingArithmetic id value ++ (conn.applySetting id value).settingsArithmetic rest

def H2Connection.arithmetic (conn : H2Connection) : Frame → List Int
  | .settings false pairs => conn.settingsArithmetic pairs
  | .headers streamId _ _ headerBlock =>
      match conn.hpackDecoder.decode headerBlock with
      | .ok (.ok _, _) =>
          if (conn.getStream streamId).isNone then [(conn.localSettings.initialWindowSize.toNat : Int)] else []
      | _ => []
  | .data streamId _ bytes =>
      match conn.getStream streamId with
      | none => []
      | some stream =>
          let len := Int32.ofNat bytes.length
          if stream.canReceive then
            [(bytes.length : Int), stream.recvWindow.toInt - len.toInt, conn.recvWindow.toInt - len.toInt]
          else []
  | .windowUpdate streamId increment =>
      if streamId = 0 then [(increment.toNat : Int), conn.sendWindow.toInt + increment.toInt32.toInt]
      else
        match conn.getStream streamId with
        | none => []
        | some stream => [(increment.toNat : Int), stream.sendWindow.toInt + increment.toInt32.toInt]
  | _ => []

-- A frame that takes a send window above 2^31-1.
def H2Connection.Overfills (conn : H2Connection) : Frame → Prop
  | .windowUpdate streamId increment =>
      if streamId = 0 then 2 ^ 31 ≤ conn.sendWindow.toInt + increment.toNat
      else ∃ stream, conn.getStream streamId = some stream ∧ 2 ^ 31 ≤ stream.sendWindow.toInt + increment.toNat
  | .settings false pairs => ∃ id stream value, conn.getStream id = some stream ∧ value ∈ initialValues pairs ∧
      2 ^ 31 ≤ stream.sendWindow.toInt + (value.toNat - conn.remoteSettings.initialWindowSize.toNat)
  | _ => False

def H2Connection.Rejects (conn : H2Connection) (frame : Frame) : Prop :=
  ∃ e conn', conn.processFrame frame = .ok (.error e, conn') ∧ conn'.sendWindow = conn.sendWindow ∧
    conn'.recvWindow = conn.recvWindow ∧ ∀ id, conn'.getStream id = conn.getStream id

structure H2Connection.Safe (conn : H2Connection) (frame : Frame) : Prop where
  fits : ∀ n ∈ conn.arithmetic frame, Fits32 n
  rejected : conn.Overfills frame → conn.Rejects frame

-- The same in terms of what the frame carries and what the windows hold.
def H2Connection.Bounded (conn : H2Connection) : Frame → Prop
  | .settings false pairs => ∀ value ∈ initialValues pairs, value.toNat < 2 ^ 31 ∧
      ∀ id stream, conn.getStream id = some stream →
        Fits32 (stream.sendWindow.toInt + (value.toNat - conn.remoteSettings.initialWindowSize.toNat))
  | .headers streamId _ _ headerBlock =>
      ∀ fields decoder, conn.hpackDecoder.decode headerBlock = .ok (.ok fields, decoder) → conn.getStream streamId = none →
        conn.localSettings.initialWindowSize.toNat < 2 ^ 31
  | .data streamId _ bytes =>
      ∀ stream, conn.getStream streamId = some stream → stream.canReceive = true →
        -2 ^ 31 ≤ stream.recvWindow.toInt - bytes.length ∧ -2 ^ 31 ≤ conn.recvWindow.toInt - bytes.length
  | .windowUpdate streamId increment =>
      if streamId = 0 then conn.sendWindow.toInt + increment.toNat < 2 ^ 31
      else ∀ stream, conn.getStream streamId = some stream → stream.sendWindow.toInt + increment.toNat < 2 ^ 31
  | _ => True

-- A frame that Frame::parse returns for some input.
def Frame.Parsed (frame : Frame) : Prop := ∃ buf left, Frame.parse buf = (.ok (some frame), left)

theorem entries_stream (conn : H2Connection) (good : Stream → Prop) :
    (∀ entry ∈ conn.streams.entries, good entry.2) ↔ ∀ id stream, conn.getStream id = some stream → good stream := by
  constructor
  · intro every id stream found
    exact every ⟨id, stream⟩ (AList.mem_lookup_iff.mp found)
  · rintro every ⟨id, stream⟩ member
    exact every id stream (AList.mem_lookup_iff.mpr member)

theorem small_fits (n : Nat) : Fits32 n ↔ n < 2 ^ 31 := by
  constructor
  · rintro ⟨_, high⟩
    omega
  · intro small
    constructor <;> omega

theorem setting_fits (conn : H2Connection) (value : UInt32) (small : conn.remoteSettings.initialWindowSize.toNat < 2 ^ 31) :
    (∀ n ∈ conn.settingArithmetic 0x4 value, Fits32 n) ↔
      value.toNat < 2 ^ 31 ∧ ∀ id stream, conn.getStream id = some stream →
        Fits32 (stream.sendWindow.toInt + (value.toNat - conn.remoteSettings.initialWindowSize.toNat)) := by
  simp only [H2Connection.settingArithmetic, if_true, List.forall_mem_cons, List.forall_mem_map, small_fits]
  have remembered := (cast_exact_iff _).mpr small
  constructor
  · rintro ⟨low, _, _, sums⟩
    have cast := (cast_exact_iff value).mpr low
    have delta := difference_exact value conn.remoteSettings.initialWindowSize (by constructor <;> omega)
    rw [delta] at sums
    exact ⟨low, (entries_stream conn _).mp sums⟩
  · rintro ⟨low, sums⟩
    have cast := (cast_exact_iff value).mpr low
    have delta := difference_exact value conn.remoteSettings.initialWindowSize (by constructor <;> omega)
    rw [delta, cast, remembered]
    refine ⟨low, small, ?_, (entries_stream conn _).mpr sums⟩
    constructor <;> omega

theorem settings_fit (pairs : List (UInt16 × UInt32)) (conn : H2Connection)
    (small : conn.remoteSettings.initialWindowSize.toNat < 2 ^ 31) :
    (∀ n ∈ conn.settingsArithmetic pairs, Fits32 n) ↔ conn.Bounded (.settings false pairs) := by
  induction pairs generalizing conn with
  | nil => exact iff_of_true (fun n member => by cases member) fun value member => by cases member
  | cons pair rest ih =>
      obtain ⟨key, value⟩ := pair
      have loop := apply_setting_effect conn key value
      have remote := loop.initialWindowSize
      rw [H2Connection.settingsArithmetic, List.forall_mem_append, H2Connection.Bounded, initialValues, List.filterMap_cons]
      by_cases window : key = 0x4
      · subst window
        rw [latest_cons, if_pos rfl] at remote
        simp only [if_true, List.forall_mem_cons]
        rw [setting_fits conn value small]
        refine and_congr_right fun first => ?_
        obtain ⟨low, sums⟩ := first
        rw [ih _ (remote ▸ low), H2Connection.Bounded]
        refine forall₂_congr fun later member => and_congr_right fun below => ?_
        have delta := difference_exact value conn.remoteSettings.initialWindowSize (by constructor <;> omega)
        have shifted (id : UInt32) (stream : Stream) (found : conn.getStream id = some stream) :
            (stream.updateSendWindow (value.toInt32 - conn.remoteSettings.initialWindowSize.toInt32)).sendWindow.toInt +
                (later.toNat - value.toNat) =
              stream.sendWindow.toInt + (later.toNat - conn.remoteSettings.initialWindowSize.toNat) := by
          rw [update_window stream _ (delta ▸ sums id stream found), delta]
          omega
        have moved (id : UInt32) : (conn.applySetting 0x4 value).getStream id = (conn.getStream id).map fun stream =>
            stream.updateSendWindow (value.toInt32 - conn.remoteSettings.initialWindowSize.toInt32) := loop.streams id
        rw [remote, latest, List.foldl_nil]
        constructor
        · intro every id stream found
          rw [← shifted id stream found]
          exact every id _ (by rw [moved, found, Option.map_some])
        · intro every id after found
          rw [moved, Option.map_eq_some_iff] at found
          obtain ⟨stream, there, rfl⟩ := found
          rw [shifted id stream there]
          exact every id stream there
      · have none : conn.settingArithmetic key value = [] := if_neg window
        rw [latest_cons, if_neg window, latest, List.foldl_nil] at remote
        simp only [if_neg window]
        rw [none, ih _ (remote.symm ▸ small), H2Connection.Bounded, remote]
        have same (id : UInt32) : (conn.applySetting key value).getStream id = conn.getStream id := by
          rw [loop.streams, untouched conn id key value _ window]
        simp only [same, initialValues]
        exact and_iff_right fun n member => by cases member

theorem safe_alone (conn : H2Connection) (frame : Frame) (never : ¬ conn.Overfills frame) :
    conn.Safe frame ↔ ∀ n ∈ conn.arithmetic frame, Fits32 n :=
  ⟨fun safe => safe.fits, fun fits => ⟨fits, fun beyond => absurd beyond never⟩⟩

-- Of the frames that can take a send window too far none is ever rejected.
theorem overfill_accepted (conn : H2Connection) (frame : Frame) (beyond : conn.Overfills frame) : ¬ conn.Rejects frame := by
  rintro ⟨e, conn', rejected, _⟩
  cases frame with
  | windowUpdate streamId increment =>
      simp only [H2Connection.processFrame] at rejected
      by_cases whole : streamId = 0
      · rw [if_pos whole] at rejected
        cases rejected
      · rw [if_neg whole] at rejected
        cases rejected
  | settings ack pairs =>
      cases ack with
      | true => exact beyond
      | false => cases rejected
  | _ => exact beyond

theorem headers_safe (conn : H2Connection) (streamId : UInt32) (endStream endHeaders : Bool) (headerBlock : Bytes) :
    (∀ n ∈ conn.arithmetic (.headers streamId endStream endHeaders headerBlock), Fits32 n) ↔
      conn.Bounded (.headers streamId endStream endHeaders headerBlock) := by
  rcases decoded : conn.hpackDecoder.decode headerBlock with fault | ⟨e | fields, decoder⟩
  · refine iff_of_true (fun n member => ?_) fun fields decoder also => by rw [decoded] at also; cases also
    simp only [H2Connection.arithmetic, decoded, List.not_mem_nil] at member
  · refine iff_of_true (fun n member => ?_) fun fields decoder also => by rw [decoded] at also; cases also
    simp only [H2Connection.arithmetic, decoded, List.not_mem_nil] at member
  · cases found : conn.getStream streamId with
    | some stream =>
        refine iff_of_true (fun n member => ?_) fun _ _ _ none => by rw [found] at none; cases none
        simp only [H2Connection.arithmetic, decoded, found, Option.isNone_some, Bool.false_eq_true, if_false,
          List.not_mem_nil] at member
    | none =>
        simp only [H2Connection.arithmetic, decoded, found, Option.isNone_none, if_true, List.forall_mem_singleton, small_fits]
        exact ⟨fun small _ _ _ _ => small, fun bounded => bounded fields decoder decoded found⟩

theorem data_safe (conn : H2Connection) (streamId : UInt32) (endStream : Bool) (bytes : Bytes) (short : bytes.length < 2 ^ 24) :
    (∀ n ∈ conn.arithmetic (.data streamId endStream bytes), Fits32 n) ↔ conn.Bounded (.data streamId endStream bytes) := by
  cases found : conn.getStream streamId with
  | none =>
      refine iff_of_true (fun n member => ?_) fun stream there => by rw [found] at there; cases there
      simp only [H2Connection.arithmetic, found, List.not_mem_nil] at member
  | some stream =>
      by_cases receives : stream.canReceive = true
      · have length := length_exact bytes.length (by omega)
        simp only [H2Connection.arithmetic, found, receives, if_true, List.forall_mem_cons, length, small_fits]
        have below := stream.recvWindow.toInt_lt
        have under := conn.recvWindow.toInt_lt
        constructor
        · rintro ⟨_, own, whole, _⟩ other there _
          obtain rfl := Option.some.inj (found.symm.trans there)
          exact ⟨own.1, whole.1⟩
        · intro bounded
          obtain ⟨own, whole⟩ := bounded stream found receives
          refine ⟨by omega, ⟨own, by omega⟩, ⟨whole, by omega⟩, fun n member => by cases member⟩
      · refine iff_of_true (fun n member => ?_) fun other there opened => ?_
        · simp only [H2Connection.arithmetic, found, receives, Bool.false_eq_true, if_false, List.not_mem_nil] at member
        · obtain rfl := Option.some.inj (found.symm.trans there)
          exact absurd opened receives

-- An increment that parse returns, on a window.
theorem sum_fits (w : Int32) (increment : UInt32) (small : increment.toNat < 2 ^ 31) :
    (∀ n ∈ [(increment.toNat : Int), w.toInt + increment.toInt32.toInt], Fits32 n) ↔ w.toInt + increment.toNat < 2 ^ 31 := by
  simp only [List.forall_mem_cons, small_fits, (cast_exact_iff increment).mpr small]
  have low := w.le_toInt
  constructor
  · rintro ⟨_, sum, _⟩
    exact sum.2
  · intro high
    refine ⟨small, ⟨by omega, high⟩, fun n member => by cases member⟩

theorem update_safe (conn : H2Connection) (streamId increment : UInt32) (small : increment.toNat < 2 ^ 31) :
    (∀ n ∈ conn.arithmetic (.windowUpdate streamId increment), Fits32 n) ↔ conn.Bounded (.windowUpdate streamId increment) := by
  simp only [H2Connection.arithmetic, H2Connection.Bounded]
  by_cases whole : streamId = 0
  · rw [if_pos whole, if_pos whole]
    exact sum_fits conn.sendWindow increment small
  · rw [if_neg whole, if_neg whole]
    cases found : conn.getStream streamId with
    | none => exact iff_of_true (fun n member => by cases member) fun stream there => by cases there
    | some stream =>
        refine (sum_fits stream.sendWindow increment small).trans ⟨fun sum other there => ?_, fun bounded => bounded stream rfl⟩
        obtain rfl := Option.some.inj there
        exact sum

theorem bounded_no_overfill (conn : H2Connection) (frame : Frame) (bounded : conn.Bounded frame) : ¬ conn.Overfills frame := by
  intro beyond
  cases frame with
  | windowUpdate streamId increment =>
      simp only [H2Connection.Bounded, H2Connection.Overfills] at bounded beyond
      by_cases whole : streamId = 0
      · rw [if_pos whole] at bounded beyond
        omega
      · rw [if_neg whole] at bounded beyond
        obtain ⟨stream, found, above⟩ := beyond
        have below := bounded stream found
        omega
  | settings ack pairs =>
      cases ack with
      | true => exact beyond
      | false =>
          obtain ⟨id, stream, value, found, member, above⟩ := beyond
          have below := ((bounded value member).2 id stream found).2
          omega
  | _ => exact beyond

theorem arithmetic_iff (conn : H2Connection) (frame : Frame) (fits : frame.Fits)
    (small : conn.remoteSettings.initialWindowSize.toNat < 2 ^ 31) :
    (∀ n ∈ conn.arithmetic frame, Fits32 n) ↔ conn.Bounded frame := by
  cases frame with
  | settings ack pairs =>
      cases ack with
      | true => exact iff_of_true (fun n member => by cases member) trivial
      | false => exact settings_fit pairs conn small
  | headers streamId endStream endHeaders headerBlock => exact headers_safe conn streamId endStream endHeaders headerBlock
  | data streamId endStream bytes => exact data_safe conn streamId endStream bytes fits.2.1
  | windowUpdate streamId increment => exact update_safe conn streamId increment fits.2.2
  | _ => exact iff_of_true (fun n member => by cases member) trivial

theorem safe_iff (conn : H2Connection) (frame : Frame) (parsed : frame.Parsed)
    (small : conn.remoteSettings.initialWindowSize.toNat < 2 ^ 31) : conn.Safe frame ↔ conn.Bounded frame := by
  obtain ⟨buf, left, whole⟩ := parsed
  have exact_ := arithmetic_iff conn frame (parsed_fits buf left frame whole) small
  constructor
  · intro safe
    exact exact_.mp safe.fits
  · intro bounded
    exact (safe_alone conn frame (bounded_no_overfill conn frame bounded)).mpr (exact_.mpr bounded)

theorem remembered_small (conn conn' : H2Connection) (frame : Frame) (bounded : conn.Bounded frame)
    (small : conn.remoteSettings.initialWindowSize.toNat < 2 ^ 31) (taken : conn.step (.receive frame) = some conn') :
    conn'.remoteSettings.initialWindowSize.toNat < 2 ^ 31 := by
  rw [(receive_effect conn conn' frame taken).initialWindowSize]
  cases frame with
  | settings ack pairs =>
      cases ack with
      | true => exact small
      | false =>
          rcases List.mem_cons.mp (latest_listed conn.remoteSettings.initialWindowSize pairs) with same | listed
          · exact same.symm ▸ small
          · exact (bounded _ listed).1
  | _ => exact small

theorem no_overflow_iff (settings : H2Settings) (frames : List Frame) (parsed : ∀ frame ∈ frames, frame.Parsed) :
    (∀ before frame conn conn', Taken H2Connection.step (.new settings) (frames.map .receive) before (.receive frame) conn conn' →
      conn.Safe frame) ↔
    ∀ before frame conn conn', Taken H2Connection.step (.new settings) (frames.map .receive) before (.receive frame) conn conn' →
      conn.Bounded frame := by
  have given before frame conn conn'
      (there : Taken H2Connection.step (.new settings) (frames.map .receive) before (.receive frame) conn conn') : frame.Parsed := by
    obtain ⟨other, member, same⟩ :=
      List.mem_map.mp (there.within.subset (List.mem_append_right before (List.mem_singleton_self _)))
    exact Event.receive.inj same ▸ parsed other member
  have steps := @each_step_iff H2Connection Event H2Connection.step
    (fun _ conn => conn.remoteSettings.initialWindowSize.toNat < 2 ^ 31)
    (fun _ conn event _ => ∀ frame, event = .receive frame → conn.Safe frame)
    (fun _ conn event _ => ∀ frame, event = .receive frame → conn.Bounded frame) (.new settings) (frames.map .receive)
    (by decide : (65535 : UInt32).toNat < 2 ^ 31) ?_ ?_
  · constructor
    · intro every before frame conn conn' there
      refine steps.mp (fun before event conn conn' there frame same => ?_) before _ conn conn' there frame rfl
      subst same
      exact every before frame conn conn' there
    · intro every before frame conn conn' there
      refine steps.mpr (fun before event conn conn' there frame same => ?_) before _ conn conn' there frame rfl
      subst same
      exact every before frame conn conn' there
  · intro before event conn conn' small there
    refine forall₂_congr fun frame same => ?_
    subst same
    exact safe_iff conn frame (given before frame conn conn' there) small
  · intro before event conn conn' small there safe
    obtain ⟨frame, _, rfl⟩ :=
      List.mem_map.mp (there.within.subset (List.mem_append_right before (List.mem_singleton_self _)))
    have bounded := (safe_iff conn frame (given before frame conn conn' there) small).mp (safe frame rfl)
    exact remembered_small conn conn' frame bounded small there.taken

theorem update_in_range : (H2Connection.new {}).Safe (.windowUpdate 0 1) := by
  refine (no_overflow_iff {} [.windowUpdate 0 1] ?_).mpr ?_ [] _ _ _ ⟨List.prefix_refl _, rfl, rfl⟩
  · intro frame member
    obtain rfl := List.mem_singleton.mp member
    exact ⟨[0, 0, 4, 8, 0, 0, 0, 0, 0, 0, 0, 0, 1], [], by decide⟩
  · intro before frame conn conn' there
    rcases taken_cons _ _ _ _ _ _ _ there with ⟨_, same, rfl⟩ | ⟨_, _, _, _, none⟩
    · cases same
      exact (by decide : (65535 : Int) + 1 < 2 ^ 31)
    · exact absurd none (taken_nil _ _ _ _ _)

-- The largest increment there is, on the window of a new connection.
theorem increment_wraps : ∃ conn, execute H2Connection.step (.new {}) [.receive (.windowUpdate 0 0x7fffffff)] = some conn ∧
    (Frame.windowUpdate 0 0x7fffffff).Parsed ∧ conn.sendWindow.toInt = -2147418114 ∧
    ¬ (H2Connection.new {}).Safe (.windowUpdate 0 0x7fffffff) := by
  refine ⟨_, rfl, ⟨[0, 0, 4, 8, 0, 0, 0, 0, 0, 0x7f, 0xff, 0xff, 0xff], [], by decide⟩, by decide, fun safe => ?_⟩
  exact absurd (safe.fits 2147549182 (by decide)) (by decide)

end Ners.H2
