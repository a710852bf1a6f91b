import Ners.Base.Signed
import Ners.H2.Session

set_option autoImplicit false

namespace Ners.H2

open Runs (Taken carried carried_snoc execute execute_snoc)
open Signed

-- The values that a SETTINGS frame gives to INITIAL_WINDOW_SIZE.
def initialValues (pairs : List (UInt16 × UInt32)) : List UInt32 :=
  pairs.filterMap fun (id, value) => if id = 0x4 then some value else none

-- What the peer has granted to a stream since it was opened.
structure Account where
  increments : Nat
  changes : Int

def H2Connection.account (id : UInt32) (conn : H2Connection) (event : Event) (account : Option Account) : Option Account :=
  match event with
  | .receive (.headers streamId _ _ headerBlock) =>
      match conn.hpackDecoder.decode headerBlock with
      | .ok (.ok _, _) => if streamId = id then some (account.getD ⟨0, 0⟩) else account
      | _ => account
  | .receive (.windowUpdate streamId increment) =>
      if streamId ≠ 0 ∧ streamId = id then account.map fun a => { a with increments := a.increments + increment.toNat }
      else account
  | .receive (.settings false pairs) =>
      let remembered := conn.remoteSettings.initialWindowSize
      account.map fun a => { a with changes := a.changes + ((latest 0x4 remembered pairs).toNat - remembered.toNat) }
  | _ => account

def accountOf (id : UInt32) (settings : H2Settings) (history : List Event) : Option Account :=
  carried H2Connection.step (H2Connection.account id) (.new settings) none history

theorem account_snoc (id : UInt32) (settings : H2Settings) (before : List Event) (conn : H2Connection) (event : Event)
    (reached : execute H2Connection.step (.new settings) before = some conn) :
    accountOf id settings (before ++ [event]) = conn.account id event (accountOf id settings before) :=
  carried_snoc _ _ conn none before event reached

theorem latest_cons (key id : UInt16) (old value : UInt32) (rest : List (UInt16 × UInt32)) :
    latest key old ((id, value) :: rest) = latest key (if id = key then value else old) rest := rfl

theorem latest_listed (remembered : UInt32) (pairs : List (UInt16 × UInt32)) :
    latest 0x4 remembered pairs ∈ remembered :: initialValues pairs := by
  induction pairs generalizing remembered with
  | nil => exact List.mem_cons_self
  | cons pair rest ih =>
      obtain ⟨key, value⟩ := pair
      rw [latest_cons, initialValues, List.filterMap_cons]
      by_cases window : key = 0x4
      · simp only [if_pos window]
        exact List.mem_cons_of_mem _ (ih value)
      · simp only [if_neg window]
        exact ih remembered

theorem latest_snoc (key : UInt16) (old value : UInt32) (front : List (UInt16 × UInt32)) :
    latest key old (front ++ [(key, value)]) = value := by
  rw [latest, List.foldl_append, List.foldl_cons, List.foldl_nil]
  exact if_pos rfl

theorem initial_values_append (front back : List (UInt16 × UInt32)) :
    initialValues (front ++ back) = initialValues front ++ initialValues back := List.filterMap_append

theorem initial_value_split (pairs : List (UInt16 × UInt32)) (value : UInt32) (member : value ∈ initialValues pairs) :
    ∃ front back, pairs = front ++ (0x4, value) :: back := by
  obtain ⟨⟨key, other⟩, listed, given⟩ := List.mem_filterMap.mp member
  simp only at given
  by_cases window : key = 0x4
  · rw [if_pos window] at given
    obtain rfl := Option.some.inj given
    exact window ▸ List.append_of_mem listed
  · rw [if_neg window] at given
    cases given

theorem receive_headers_window (stream : Stream) (headers : List Hpack.Header) (endStream : Bool) :
    (stream.receiveHeaders headers endStream).sendWindow = stream.sendWindow :=
  receive_headers_keeps Stream.sendWindow (fun _ _ => rfl) stream headers endStream fun _ => rfl

theorem update_window (stream : Stream) (delta : Int32) (exact_ : Fits32 (stream.sendWindow.toInt + delta.toInt)) :
    (stream.updateSendWindow delta).sendWindow.toInt = stream.sendWindow.toInt + delta.toInt :=
  (clamp_exact_iff _).mpr exact_

-- Sums that stay in range come out as if they were taken over the integers.
theorem settle_exact (pairs : List (UInt16 × UInt32)) (remembered : UInt32) (stream : Stream)
    (near : ∀ a ∈ remembered :: initialValues pairs, ∀ b ∈ remembered :: initialValues pairs, Fits32 (a.toNat - b.toNat))
    (fits : ∀ value ∈ initialValues pairs, Fits32 (stream.sendWindow.toInt + (value.toNat - remembered.toNat))) :
    (Stream.settle remembered pairs stream).sendWindow.toInt =
      stream.sendWindow.toInt + ((latest 0x4 remembered pairs).toNat - remembered.toNat) := by
  induction pairs generalizing remembered stream with
  | nil =>
      rw [latest, List.foldl_nil, Int.sub_self, Int.add_zero]
      rfl
  | cons pair rest ih =>
      obtain ⟨key, value⟩ := pair
      rw [initialValues, List.filterMap_cons] at near fits
      by_cases window : key = 0x4
      · simp only [if_pos window] at near fits
        have delta := difference_exact value remembered (near value (by simp) remembered (by simp))
        have moved := update_window stream _ (delta ▸ fits value List.mem_cons_self)
        rw [delta] at moved
        rw [latest_cons, if_pos window, Stream.settle, if_pos window, ih value _ ?_ ?_, moved]
        · omega
        · intro a first b second
          exact near a (List.mem_cons_of_mem _ first) b (List.mem_cons_of_mem _ second)
        · intro later member
          have whole := fits later (List.mem_cons_of_mem _ member)
          rw [moved]
          have sum : stream.sendWindow.toInt + (value.toNat - remembered.toNat) + ((later.toNat : Int) - value.toNat) =
              stream.sendWindow.toInt + (later.toNat - remembered.toNat) := by omega
          exact sum ▸ whole
      · simp only [if_neg window] at near fits
        rw [latest_cons, if_neg window, Stream.settle, if_neg window]
        exact ih remembered stream near fits

theorem same_numbers (window : Stream → Int32) (stream after : Option Stream) (same : after.map window = stream.map window) :
    (after.map fun stream => (window stream).toInt) = stream.map fun stream => (window stream).toInt := by
  have mapped := congrArg (Option.map Int32.toInt) same
  rw [Option.map_map, Option.map_map] at mapped
  exact mapped

theorem headers_undecoded (conn : H2Connection) (streamId : UInt32) (endStream endHeaders : Bool) (headerBlock : Bytes)
    (undecoded : ∀ headers decoder, conn.hpackDecoder.decode headerBlock ≠ .ok (.ok headers, decoder)) (id : UInt32)
    (a : Option Account) :
    conn.account id (.receive (.headers streamId endStream endHeaders headerBlock)) a = a ∧
      conn.streamAfter id (.headers streamId endStream endHeaders headerBlock) = conn.getStream id := by
  rcases decoded : conn.hpackDecoder.decode headerBlock with fault | ⟨e | headers, decoder⟩
  · simp only [H2Connection.account, H2Connection.streamAfter, decoded, and_self]
  · simp only [H2Connection.account, H2Connection.streamAfter, decoded, and_self]
  · exact absurd decoded (undecoded headers decoder)

-- Frames that neither open a stream nor grant anything.
theorem frame_quiet (conn : H2Connection) (frame : Frame) (id : UInt32)
    (headers : ∀ streamId endStream endHeaders headerBlock, frame ≠ .headers streamId endStream endHeaders headerBlock)
    (grant : ∀ streamId increment, frame ≠ .windowUpdate streamId increment) (settings : ∀ pairs, frame ≠ .settings false pairs) :
    (∀ a, conn.account id (.receive frame) a = a) ∧
      (conn.streamAfter id frame).map Stream.sendWindow = (conn.getStream id).map Stream.sendWindow := by
  cases frame with
  | headers streamId endStream endHeaders headerBlock => exact absurd rfl (headers _ _ _ _)
  | windowUpdate streamId increment => exact absurd rfl (grant _ _)
  | settings ack pairs =>
      cases ack with
      | true => exact ⟨fun a => rfl, rfl⟩
      | false => exact absurd rfl (settings pairs)
  | data streamId endStream bytes =>
      refine ⟨fun a => rfl, ?_⟩
      simp only [H2Connection.streamAfter]
      split
      · refine unchanged_map _ _ _ fun stream => ?_
        split
        · cases endStream with
          | false => rfl
          | true => exact half_close_remote_keeps Stream.sendWindow (fun _ _ => rfl) _
        · rfl
      · rfl
  | rstStream streamId errorCode =>
      refine ⟨fun a => rfl, ?_⟩
      simp only [H2Connection.streamAfter]
      split
      · exact unchanged_map _ _ _ fun stream => rfl
      · rfl
  | _ => exact ⟨fun a => rfl, rfl⟩

def Event.Part (part event : Event) : Prop :=
  part = event ∨ ∃ done rest, event = .receive (.settings false (done ++ rest)) ∧ part = .receive (.settings false done)

-- A run cut short behind an event, or inside a SETTINGS frame behind some of
-- its settings.
inductive Cut (events : List Event) : List Event → Prop where
  | start : Cut events []
  | behind (before : List Event) (event part : Event) (within : before ++ [event] <+: events) (cut : part.Part event) :
      Cut events (before ++ [part])

theorem part_taken (conn p : H2Connection) (part event : Event) (cut : part.Part event) (taken : conn.step part = some p) :
    ∃ conn', conn.step event = some conn' := by
  rcases cut with rfl | ⟨done, rest, rfl, rfl⟩
  · exact ⟨p, taken⟩
  · exact ⟨_, rfl⟩

theorem cuts_iff (settings : H2Settings) (events : List Event) (Good : List Event → H2Connection → Prop) :
    (∀ history conn, Cut events history → execute H2Connection.step (.new settings) history = some conn → Good history conn) ↔
      Good [] (.new settings) ∧
      ∀ before event conn conn', Taken H2Connection.step (.new settings) events before event conn conn' →
        ∀ part p, part.Part event → conn.step part = some p → Good (before ++ [part]) p := by
  constructor
  · intro every
    refine ⟨every [] _ .start rfl, fun before event conn conn' there part p cut taken => ?_⟩
    refine every _ p (.behind before event part there.within cut) ?_
    rw [execute_snoc, there.reached]
    exact taken
  · rintro ⟨first, every⟩ history conn cut executed
    cases cut with
    | start => exact Option.some.inj executed ▸ first
    | behind before event part within cut =>
        rw [execute_snoc, Option.bind_eq_some_iff] at executed
        obtain ⟨middle, reached, taken⟩ := executed
        obtain ⟨conn', also⟩ := part_taken middle conn part event cut taken
        exact every before event middle conn' ⟨within, reached, also⟩ part conn cut taken

end Ners.H2
