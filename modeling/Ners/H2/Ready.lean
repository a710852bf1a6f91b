import Ners.H2.Repeat

set_option autoImplicit false

namespace Ners.H2

open Hpack (Header)
open History (since_append since_snoc)
open Runs (execute execute_snoc execute_append)

def Stream.isReady (stream : Stream) : Bool :=
  stream.state = .halfClosedRemote || (stream.state = .open && !stream.requestHeaders.isEmpty)

-- In the order in which the map is iterated.
def H2Connection.readyStreams (conn : H2Connection) : List UInt32 :=
  (conn.streams.entries.filter fun entry => entry.2.isReady).map fun entry => entry.1

-- The fields of the last HEADERS that were decoded.
def lastFields (history : List Signal) : List Header := (history.filter Signal.opens).getLast?.elim [] Signal.fields

-- A request has come in, and the stream was neither reset nor answered.
structure Waiting (history : List Signal) : Prop where
  opened : sinceOpened history ≠ []
  standing : (sinceOpened history).any Signal.resets = false
  unanswered : (sinceOpened history).any Signal.endsSend = false
  asked : (sinceOpened history).any Signal.endsReceive = true ∨ lastFields history ≠ []

theorem ready_nodup (conn : H2Connection) : conn.readyStreams.Nodup := by
  have keys : conn.streams.entries.keys.Nodup := conn.streams.nodupKeys
  exact keys.sublist (List.filter_sublist.map _)

theorem mem_ready (conn : H2Connection) (id : UInt32) :
    id ∈ conn.readyStreams ↔ ∃ stream, conn.getStream id = some stream ∧ stream.isReady = true := by
  rw [H2Connection.readyStreams, List.mem_map]
  constructor
  · rintro ⟨⟨key, stream⟩, member, rfl⟩
    obtain ⟨listed, ready⟩ := List.mem_filter.mp member
    exact ⟨stream, AList.mem_lookup_iff.mpr listed, ready⟩
  · rintro ⟨stream, found, ready⟩
    exact ⟨⟨id, stream⟩, List.mem_filter.mpr ⟨AList.mem_lookup_iff.mp found, ready⟩, rfl⟩

theorem last_fields_snoc (history : List Signal) (signal : Signal) :
    lastFields (history ++ [signal]) = if signal.opens then signal.fields else lastFields history := by
  rw [lastFields, List.filter_append]
  cases opens : signal.opens with
  | true =>
      rw [List.filter_cons_of_pos opens, List.filter_nil, List.getLast?_concat, if_pos rfl]
      rfl
  | false =>
      rw [List.filter_cons_of_neg (by simp [opens]), List.filter_nil, List.append_nil, if_neg (by decide)]
      rfl

-- Each decoded HEADERS replaces the fields, and nothing else touches them.
theorem follow_fields (history : List Signal) (request : Request) (followed : follow none history = some request) :
    request.headers = lastFields history := by
  induction history using List.reverseRecOn generalizing request with
  | nil => cases followed
  | append_singleton earlier signal ih =>
      rw [follow_append] at followed
      rw [last_fields_snoc]
      change advance (follow none earlier) signal = some request at followed
      cases before : follow none earlier with
      | none =>
          rw [before] at followed
          cases signal with
          | headers fields endStream =>
              obtain rfl := Option.some.inj followed
              rfl
          | _ => cases followed
      | some held =>
          have kept := ih held before
          rw [before] at followed
          cases signal with
          | headers fields endStream =>
              obtain rfl := Option.some.inj followed
              rfl
          | data bytes endStream =>
              obtain rfl := Option.some.inj followed
              dsimp only
              split
              · exact kept
              · exact kept
          | refused | reset | sentEnd =>
              obtain rfl := Option.some.inj followed
              exact kept

theorem ready_state (reset received sent empty : Bool) :
    (decide (endState reset received sent = .halfClosedRemote) || (decide (endState reset received sent = .open) && !empty)) =
      (!reset && !sent && (received || !empty)) := by
  cases reset <;> cases received <;> cases sent <;> cases empty <;> rfl

theorem ready_iff_waiting (settings : H2Settings) (events : List Event) (conn : H2Connection) (id : UInt32)
    (executed : execute H2Connection.step (.new settings) events = some conn) :
    id ∈ conn.readyStreams ↔ Waiting (signals id (.new settings) events) := by
  rw [mem_ready]
  have followed : conn.request id = follow none (signals id (.new settings) events) := run_request _ conn events id executed
  rcases stream_described settings events conn id executed with ⟨unopened, absent⟩ | ⟨stream, opened, found, described⟩
  · refine iff_of_false ?_ fun waiting => waiting.opened unopened
    rintro ⟨stream, found, _⟩
    cases absent.symm.trans found
  · rw [found_request conn id stream found] at followed
    have fields : stream.requestHeaders = lastFields (signals id (.new settings) events) :=
      follow_fields _ stream.request followed.symm
    have state : stream.state = historyState (sinceOpened (signals id (.new settings) events)) := described.state
    have ready : stream.isReady = true ↔ Waiting (signals id (.new settings) events) := by
      rw [Stream.isReady, state, historyState, ready_state, fields]
      simp only [Bool.and_eq_true, Bool.or_eq_true, Bool.not_eq_true', List.isEmpty_eq_false_iff]
      constructor
      · rintro ⟨⟨standing, unanswered⟩, asked⟩
        exact ⟨opened, standing, unanswered, asked⟩
      · rintro ⟨_, standing, unanswered, asked⟩
        exact ⟨⟨standing, unanswered⟩, asked⟩
    rw [← ready]
    constructor
    · rintro ⟨other, also, there⟩
      obtain rfl := Option.some.inj (found.symm.trans also)
      exact there
    · intro there
      exact ⟨stream, found, there⟩

theorem signals_append (id : UInt32) (start conn : H2Connection) (early late : List Event)
    (executed : execute H2Connection.step start early = some conn) :
    signals id start (early ++ late) = signals id start early ++ signals id conn late := by
  induction early generalizing start with
  | nil =>
      obtain rfl := Option.some.inj executed
      rfl
  | cons event later ih =>
      obtain ⟨middle, taken, rest⟩ := Option.bind_eq_some_iff.mp executed
      rw [List.cons_append, signals, signals, taken]
      dsimp only
      rw [ih middle rest, List.append_assoc]

-- A stream that was answered is not offered again, whatever follows.
theorem answered_for_good (history said later : List Signal) (opened : sinceOpened history ≠ [])
    (sent : said.any Signal.endsSend = true) : ¬ Waiting (history ++ said ++ later) := by
  have extended : sinceOpened (history ++ said ++ later) = sinceOpened history ++ (said ++ later) := by
    rw [List.append_assoc]
    exact since_append Signal.opens history _ opened
  rintro ⟨_, _, unanswered, _⟩
  rw [extended, List.any_append, List.any_append, sent, Bool.true_or, Bool.or_true] at unanswered
  cases unanswered

theorem waiting_answered (history : List Signal) : ¬ Waiting (history ++ [.sentEnd]) := by
  by_cases opened : sinceOpened history = []
  · intro waiting
    refine waiting.opened ?_
    rw [sinceOpened] at opened ⊢
    rw [since_snoc, if_pos opened]
    rfl
  · rintro ⟨_, _, unanswered, _⟩
    rw [sinceOpened] at opened unanswered
    rw [since_append Signal.opens history _ opened, List.any_append, Bool.or_eq_false_iff] at unanswered
    cases unanswered.2

theorem answer_ready (settings : H2Settings) (events : List Event) (conn : H2Connection) (call : SendCall)
    (executed : execute H2Connection.step (.new settings) events = some conn) (ends : call.endStream = true) (id : UInt32) :
    id ∈ (conn.send call).readyStreams ↔ id ∈ conn.readyStreams ∧ id ≠ call.streamId := by
  have onward : execute H2Connection.step (.new settings) (events ++ [.send call]) = some (conn.send call) := by
    rw [execute_snoc, executed]
    rfl
  rw [ready_iff_waiting settings _ _ id onward, ready_iff_waiting settings _ _ id executed,
    signals_append id _ conn events [.send call] executed]
  have said : signals id conn [.send call] = if call.streamId = id then [.sentEnd] else [] := by
    by_cases mine : call.streamId = id
    · simp only [signals, H2Connection.signal, ends, mine, and_self, if_true]
      rfl
    · simp only [signals, H2Connection.signal, mine, false_and, if_false]
      rfl
  rw [said]
  by_cases mine : call.streamId = id
  · rw [if_pos mine]
    exact iff_of_false (waiting_answered _) fun both => both.2 mine.symm
  · rw [if_neg mine, List.append_nil, and_iff_left (Ne.symm mine)]

theorem answers_ready (settings : H2Settings) (answers : UInt32 → SendCall) (ends : ∀ id, (answers id).endStream = true)
    (names : ∀ id, (answers id).streamId = id) (order : List UInt32) (events : List Event) (conn : H2Connection)
    (executed : execute H2Connection.step (.new settings) events = some conn) :
    ∃ later, execute H2Connection.step conn (order.map fun id => .send (answers id)) = some later ∧
      ∀ id, id ∈ later.readyStreams ↔ id ∈ conn.readyStreams ∧ id ∉ order := by
  induction order generalizing events conn with
  | nil => exact ⟨conn, rfl, fun id => by simp⟩
  | cons first rest ih =>
      have onward : execute H2Connection.step (.new settings) (events ++ [.send (answers first)]) = some (conn.send (answers first)) := by
        rw [execute_snoc, executed]
        rfl
      obtain ⟨later, drained, left⟩ := ih (events ++ [.send (answers first)]) (conn.send (answers first)) onward
      refine ⟨later, drained, fun id => ?_⟩
      rw [left, answer_ready settings events conn (answers first) executed (ends first), names, List.mem_cons, not_or, and_assoc]

theorem answers_said (answers : UInt32 → SendCall) (ends : ∀ id, (answers id).endStream = true)
    (names : ∀ id, (answers id).streamId = id) (order : List UInt32) (conn : H2Connection) (id : UInt32) (member : id ∈ order) :
    (signals id conn (order.map fun id => .send (answers id))).any Signal.endsSend = true := by
  induction order generalizing conn with
  | nil => cases member
  | cons first rest ih =>
      rw [List.map_cons, signals, List.any_append]
      rcases List.mem_cons.mp member with rfl | later
      · have mine : conn.signal id (.send (answers id)) = some .sentEnd := if_pos ⟨names id, ends id⟩
        rw [mine]
        rfl
      · have onward := ih (conn.send (answers first)) later
        rw [Bool.or_eq_true]
        exact .inr onward

theorem ready_served_once (settings : H2Settings) (events : List Event) (conn : H2Connection)
    (executed : execute H2Connection.step (.new settings) events = some conn) :
    conn.readyStreams.Nodup ∧ (∀ id, id ∈ conn.readyStreams ↔ Waiting (signals id (.new settings) events)) ∧
      ∀ (answers : UInt32 → SendCall) (order : List UInt32), (∀ id, (answers id).streamId = id ∧ (answers id).endStream = true) →
        order.Perm conn.readyStreams → ∃ later, execute H2Connection.step conn (order.map fun id => .send (answers id)) = some later ∧
          later.readyStreams = [] ∧ ∀ more last, execute H2Connection.step later more = some last →
            ∀ id ∈ order, id ∉ last.readyStreams := by
  refine ⟨ready_nodup conn, fun id => ready_iff_waiting settings events conn id executed, fun answers order proper every => ?_⟩
  obtain ⟨later, drained, left⟩ :=
    answers_ready settings answers (fun id => (proper id).2) (fun id => (proper id).1) order events conn executed
  refine ⟨later, drained, List.eq_nil_iff_forall_not_mem.mpr fun id still => ?_, fun more last further id there again => ?_⟩
  · obtain ⟨before, unserved⟩ := (left id).mp still
    exact unserved (every.mem_iff.mpr before)
  · have waiting := (ready_iff_waiting settings events conn id executed).mp (every.mem_iff.mp there)
    have answered : execute H2Connection.step (.new settings) (events ++ order.map fun id => .send (answers id)) = some later := by
      rw [execute_append, executed]
      exact drained
    have final : execute H2Connection.step (.new settings) ((events ++ order.map fun id => .send (answers id)) ++ more) = some last := by
      rw [execute_append, answered]
      exact further
    have offered := (ready_iff_waiting settings _ last id final).mp again
    rw [signals_append id _ later _ more answered, signals_append id _ conn events _ executed] at offered
    exact answered_for_good _ _ _ waiting.opened
      (answers_said answers (fun id => (proper id).2) (fun id => (proper id).1) order conn id there) offered

-- Two requests, answered in the other order.
def plainAnswer (id : UInt32) : SendCall := .data id [0x68] true

theorem two_requests_served : ∃ conn later, execute H2Connection.step (.new {})
      [.receive (.headers 1 true true [0x82]), .receive (.headers 3 false true [0x82])] = some conn ∧ conn.readyStreams = [3, 1] ∧
    execute H2Connection.step conn [.send (plainAnswer 1), .send (plainAnswer 3)] = some later ∧ later.readyStreams = [] ∧
      ∀ more last, execute H2Connection.step later more = some last → 1 ∉ last.readyStreams := by
  obtain ⟨_, _, served⟩ := ready_served_once {}
    [.receive (.headers 1 true true [0x82]), .receive (.headers 3 false true [0x82])] _ rfl
  obtain ⟨later, drained, empty, never⟩ := served plainAnswer [1, 3] (fun id => ⟨rfl, rfl⟩) (by decide)
  exact ⟨_, later, rfl, by decide, drained, empty, fun more last further => never more last further 1 List.mem_cons_self⟩

end Ners.H2
