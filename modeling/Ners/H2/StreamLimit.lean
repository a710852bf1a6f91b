import Ners.H2.Lifecycle

set_option autoImplicit false

namespace Ners.H2

open Runs (Reached Taken each_state_and_step_iff execute)

def H2Connection.activeIds (conn : H2Connection) : List UInt32 :=
  (conn.streams.entries.filter fun entry => entry.2.state ≠ .closed).map fun entry => entry.1

-- HEADERS that make a stream.
def H2Connection.Opens (conn : H2Connection) (id : UInt32) : Event → Prop
  | .receive (.headers streamId _ _ headerBlock) =>
      streamId = id ∧ conn.getStream id = none ∧
        ∃ fields decoder, conn.hpackDecoder.decode headerBlock = .ok (.ok fields, decoder)
  | _ => False

def H2Connection.TurnsAway (conn : H2Connection) : Event → Prop
  | .receive (.headers streamId endStream endHeaders headerBlock) =>
      conn.getStream streamId = none → conn.localSettings.maxConcurrentStreams.toNat ≤ conn.activeStreamCount →
        ∃ e conn', conn.processFrame (.headers streamId endStream endHeaders headerBlock) = .ok (.error e, conn') ∧
          conn'.getStream streamId = none
  | _ => True

theorem active_count (conn : H2Connection) : conn.activeStreamCount = conn.activeIds.length := by
  rw [H2Connection.activeStreamCount, H2Connection.activeIds, List.countP_map, List.countP_eq_length_filter, List.length_map]
  rfl

theorem active_nodup (conn : H2Connection) : conn.activeIds.Nodup := by
  have keys : conn.streams.entries.keys.Nodup := conn.streams.nodupKeys
  exact keys.sublist (List.filter_sublist.map _)

theorem mem_active (conn : H2Connection) (id : UInt32) :
    id ∈ conn.activeIds ↔ ∃ stream, conn.getStream id = some stream ∧ stream.state ≠ .closed := by
  rw [H2Connection.activeIds, List.mem_map]
  constructor
  · rintro ⟨⟨key, stream⟩, member, rfl⟩
    obtain ⟨listed, live⟩ := List.mem_filter.mp member
    exact ⟨stream, AList.mem_lookup_iff.mpr listed, of_decide_eq_true live⟩
  · rintro ⟨stream, found, live⟩
    exact ⟨⟨id, stream⟩, List.mem_filter.mpr ⟨AList.mem_lookup_iff.mp found, decide_eq_true live⟩, rfl⟩

theorem headers_signal (conn : H2Connection) (id : UInt32) (event : Event) (fields : List Hpack.Header) (endStream : Bool)
    (unopened : conn.getStream id = none) (meant : conn.signal id event = some (.headers fields endStream)) :
    conn.Opens id event := by
  cases event with
  | send call =>
      simp only [H2Connection.signal] at meant
      split at meant <;> cases meant
  | receive frame =>
      cases frame with
      | headers streamId ending endHeaders headerBlock =>
          simp only [H2Connection.signal] at meant
          rcases decoded : conn.hpackDecoder.decode headerBlock with fault | ⟨e | given, decoder⟩
          · simp only [decoded] at meant
            cases meant
          · simp only [decoded] at meant
            split at meant <;> cases meant
          · simp only [decoded] at meant
            by_cases mine : streamId = id
            · exact ⟨mine, unopened, given, decoder, decoded⟩
            · rw [if_neg mine] at meant
              cases meant
      | data streamId ending bytes =>
          simp only [H2Connection.signal] at meant
          split at meant <;> cases meant
      | rstStream streamId errorCode =>
          simp only [H2Connection.signal] at meant
          split at meant <;> cases meant
      | _ => cases meant

-- A stream becomes active only where it is made.
theorem active_before (conn conn' : H2Connection) (event : Event) (id : UInt32) (taken : conn.step event = some conn')
    (active : id ∈ conn'.activeIds) : id ∈ conn.activeIds ∨ conn.Opens id event := by
  obtain ⟨after, found, live⟩ := (mem_active conn' id).mp active
  have followed := step_request conn conn' event id taken
  rw [found_request conn' id after found] at followed
  cases there : conn.getStream id with
  | some stream =>
      refine .inl ((mem_active conn id).mpr ⟨stream, there, fun closed => ?_⟩)
      rw [found_request conn id stream there] at followed
      obtain ⟨last, same, still⟩ := closed_run (conn.signal id event).toList stream.request closed
      rw [same] at followed
      exact live ((congrArg Request.state (Option.some.inj followed)).trans still)
  | none =>
      refine .inr ?_
      rw [H2Connection.request, there, Option.map_none] at followed
      cases meant : conn.signal id event with
      | none =>
          rw [meant] at followed
          cases followed
      | some signal =>
          rw [meant] at followed
          cases signal with
          | headers fields endStream => exact headers_signal conn id event fields endStream there meant
          | _ => cases followed

theorem receive_headers_live (stream : Stream) (fields : List Hpack.Header) (endStream : Bool) (state : stream.state = .idle) :
    (stream.receiveHeaders fields endStream).state ≠ .closed := by
  have result := congrArg Request.state (receive_headers_request stream fields endStream)
  have after : (stream.receiveHeaders fields endStream).state =
      if endStream then stream.state.entered.endReceive else stream.state.entered := result
  rw [after, state]
  cases endStream <;> decide

theorem opened_active (conn conn' : H2Connection) (event : Event) (id : UInt32) (taken : conn.step event = some conn')
    (opens : conn.Opens id event) : id ∈ conn'.activeIds ∧ ∀ other ∈ conn.activeIds, other ∈ conn'.activeIds := by
  cases event with
  | send call => exact opens.elim
  | receive frame =>
      cases frame with
      | headers streamId endStream endHeaders headerBlock =>
          obtain ⟨rfl, unopened, fields, decoder, decoded⟩ := opens
          have streams := (receive_effect conn conn' _ taken).streams
          simp only [H2Connection.streamAfter, decoded] at streams
          refine ⟨(mem_active conn' streamId).mpr ?_, fun other active => ?_⟩
          · have here := streams streamId
            rw [if_pos rfl, unopened, Option.getD_none] at here
            exact ⟨_, here, receive_headers_live _ fields endStream rfl⟩
          · obtain ⟨stream, found, live⟩ := (mem_active conn other).mp active
            have apart : streamId ≠ other := by
              rintro rfl
              rw [unopened] at found
              cases found
            have there := streams other
            rw [if_neg apart, found] at there
            exact (mem_active conn' other).mpr ⟨stream, there, live⟩
      | _ => exact opens.elim

theorem opens_alone (conn : H2Connection) (event : Event) (id other : UInt32) (opens : conn.Opens id event)
    (also : conn.Opens other event) : other = id := by
  cases event with
  | send call => exact opens.elim
  | receive frame =>
      cases frame with
      | headers streamId endStream endHeaders headerBlock => exact also.1.symm.trans opens.1
      | _ => exact opens.elim

theorem opened_count (conn conn' : H2Connection) (event : Event) (id : UInt32) (taken : conn.step event = some conn')
    (opens : conn.Opens id event) (unopened : conn.getStream id = none) :
    conn'.activeStreamCount = conn.activeStreamCount + 1 := by
  obtain ⟨here, others⟩ := opened_active conn conn' event id taken opens
  have fresh : id ∉ conn.activeIds := by
    intro active
    obtain ⟨stream, found, _⟩ := (mem_active conn id).mp active
    rw [unopened] at found
    cases found
  have same : (id :: conn.activeIds).Perm conn'.activeIds := by
    refine (List.perm_ext_iff_of_nodup (List.nodup_cons.mpr ⟨fresh, active_nodup conn⟩) (active_nodup conn')).mpr fun other => ?_
    constructor
    · intro member
      rcases List.mem_cons.mp member with rfl | active
      · exact here
      · exact others other active
    · intro active
      rcases active_before conn conn' event other taken active with before | also
      · exact List.mem_cons_of_mem _ before
      · exact opens_alone conn event id other opens also ▸ List.mem_cons_self
  rw [active_count, active_count, ← same.length_eq, List.length_cons]

theorem quiet_count (conn conn' : H2Connection) (event : Event) (taken : conn.step event = some conn')
    (quiet : ∀ id, ¬ conn.Opens id event) : conn'.activeStreamCount ≤ conn.activeStreamCount := by
  rw [active_count, active_count]
  refine (List.subperm_of_subset (active_nodup conn') fun id active => ?_).length_le
  rcases active_before conn conn' event id taken active with before | opens
  · exact before
  · exact absurd opens (quiet id)

theorem opens_unopened (conn : H2Connection) (event : Event) (id : UInt32) (opens : conn.Opens id event) :
    conn.getStream id = none := by
  cases event with
  | send call => exact opens.elim
  | receive frame =>
      cases frame with
      | headers streamId endStream endHeaders headerBlock => exact opens.2.1
      | _ => exact opens.elim

-- HEADERS that open no stream where there is none are an error.
theorem quiet_turns_away (conn conn' : H2Connection) (event : Event) (taken : conn.step event = some conn')
    (quiet : ∀ id, ¬ conn.Opens id event) : conn.TurnsAway event := by
  cases event with
  | send call => exact trivial
  | receive frame =>
      cases frame with
      | headers streamId endStream endHeaders headerBlock =>
          intro unopened _
          rcases decoded : conn.hpackDecoder.decode headerBlock with fault | ⟨e | fields, decoder⟩
          · simp only [H2Connection.step, H2Connection.processFrame, decoded, reduceCtorEq] at taken
          · simp only [H2Connection.processFrame, decoded]
            exact ⟨_, _, rfl, unopened⟩
          · exact absurd ⟨rfl, unopened, fields, decoder, decoded⟩ (quiet streamId)
      | _ => exact trivial

theorem turned_away_room (conn : H2Connection) (event : Event) (id : UInt32) (opens : conn.Opens id event)
    (room : conn.activeStreamCount < conn.localSettings.maxConcurrentStreams.toNat) : conn.TurnsAway event := by
  cases event with
  | send call => exact trivial
  | receive frame =>
      cases frame with
      | headers streamId endStream endHeaders headerBlock =>
          intro _ full
          omega
      | _ => exact trivial

theorem limit_kept_iff (conn conn' : H2Connection) (event : Event) (taken : conn.step event = some conn')
    (within : conn.activeStreamCount ≤ conn.localSettings.maxConcurrentStreams.toNat) :
    conn'.activeStreamCount ≤ conn'.localSettings.maxConcurrentStreams.toNat ∧ conn.TurnsAway event ↔
      ∀ id, conn.Opens id event → conn.activeStreamCount < conn.localSettings.maxConcurrentStreams.toNat := by
  rw [step_local conn conn' event taken]
  by_cases opening : ∃ id, conn.Opens id event
  · obtain ⟨id, opens⟩ := opening
    have grown := opened_count conn conn' event id taken opens (opens_unopened conn event id opens)
    constructor
    · rintro ⟨kept, _⟩ other _
      omega
    · intro every
      have room := every id opens
      exact ⟨by omega, turned_away_room conn event id opens room⟩
  · have quiet (id : UInt32) (opens : conn.Opens id event) : False := opening ⟨id, opens⟩
    refine iff_of_true ⟨?_, quiet_turns_away conn conn' event taken quiet⟩ fun id opens => (quiet id opens).elim
    exact (quiet_count conn conn' event taken quiet).trans within

theorem stream_limit_iff (settings : H2Settings) (events : List Event) :
    (∀ history conn, Reached H2Connection.step (.new settings) events history conn →
        conn.activeStreamCount ≤ conn.localSettings.maxConcurrentStreams.toNat) ∧
      (∀ before event conn conn', Taken H2Connection.step (.new settings) events before event conn conn' →
        conn.TurnsAway event) ↔
    ∀ before event conn conn', Taken H2Connection.step (.new settings) events before event conn conn' →
      ∀ id, conn.Opens id event → conn.activeStreamCount < conn.localSettings.maxConcurrentStreams.toNat := by
  have first : (H2Connection.new settings).activeStreamCount ≤ settings.maxConcurrentStreams.toNat := Nat.zero_le _
  exact each_state_and_step_iff (fun _ conn => conn.activeStreamCount ≤ conn.localSettings.maxConcurrentStreams.toNat)
    (fun _ conn event _ => conn.TurnsAway event)
    (fun _ conn event _ => ∀ id, conn.Opens id event → conn.activeStreamCount < conn.localSettings.maxConcurrentStreams.toNat)
    (.new settings) events first fun _ event conn conn' within there => limit_kept_iff conn conn' event there.taken within

-- The second of two requests where one is allowed at a time.
theorem limit_exceeded : ∃ conn, execute H2Connection.step (.new { maxConcurrentStreams := 1 })
      [.receive (.headers 1 true true [0x82]), .receive (.headers 3 true true [0x82])] = some conn ∧
    conn.localSettings.maxConcurrentStreams = 1 ∧ conn.activeStreamCount = 2 ∧
    ¬ conn.activeStreamCount ≤ conn.localSettings.maxConcurrentStreams.toNat := ⟨_, rfl, rfl, by decide, by decide⟩

end Ners.H2
