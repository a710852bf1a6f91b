import Ners.Base.History
import Ners.H2.Session

set_option autoImplicit false

namespace Ners.H2

open History (since since_filter since_filter_nil since_map since_snoc through through_filter through_map through_snoc)
open Runs (execute)

def Signal.opens : Signal → Bool
  | .headers _ _ => true
  | _ => false

-- END_STREAM on HEADERS that were decoded, or on DATA.
def Signal.endsReceive : Signal → Bool
  | .headers _ endStream | .data _ endStream => endStream
  | _ => false

def Signal.resets : Signal → Bool
  | .reset => true
  | _ => false

def Signal.endsSend : Signal → Bool
  | .sentEnd => true
  | _ => false

def Signal.stops (signal : Signal) : Bool := signal.resets || signal.endsReceive

def Signal.bytes : Signal → Bytes
  | .data bytes _ => bytes
  | _ => []

def sinceOpened (history : List Signal) : List Signal := since Signal.opens history

-- Which state a stream is in, by the ends that have closed.
def endState (reset received sent : Bool) : StreamState :=
  if reset || (received && sent) then .closed
  else if received then .halfClosedRemote
  else if sent then .halfClosedLocal
  else .open

def historyState (history : List Signal) : StreamState :=
  endState (history.any Signal.resets) (history.any Signal.endsReceive) (history.any Signal.endsSend)

def historyBody (history : List Signal) : Bytes := (through Signal.stops history).flatMap Signal.bytes

structure Describes (history : List Signal) (request : Request) : Prop where
  state : request.state = historyState history
  body : request.body = historyBody history

theorem end_state_receives (reset received sent : Bool) : (endState reset received sent).receives = !(reset || received) := by
  cases reset <;> cases received <;> cases sent <;> rfl

theorem end_state_entered (reset received sent : Bool) : (endState reset received sent).entered = endState reset received sent := by
  cases reset <;> cases received <;> cases sent <;> rfl

theorem end_state_receive (reset received sent : Bool) :
    (endState reset received sent).endReceive = endState reset true sent := by
  cases reset <;> cases received <;> cases sent <;> rfl

theorem end_state_send (reset received sent : Bool) : (endState reset received sent).endSend = endState reset received true := by
  cases reset <;> cases received <;> cases sent <;> rfl

theorem end_state_closed (received sent : Bool) : endState true received sent = .closed := rfl

theorem any_stops (history : List Signal) :
    history.any Signal.stops = (history.any Signal.resets || history.any Signal.endsReceive) := by
  induction history with
  | nil => rfl
  | cons signal later ih =>
      rw [List.any_cons, List.any_cons, List.any_cons, ih, Signal.stops]
      cases signal.resets <;> cases signal.endsReceive <;> simp

theorem history_state_snoc (history : List Signal) (signal : Signal) :
    historyState (history ++ [signal]) =
      endState (history.any Signal.resets || signal.resets) (history.any Signal.endsReceive || signal.endsReceive)
        (history.any Signal.endsSend || signal.endsSend) := by
  simp only [historyState, List.any_append, List.any_cons, List.any_nil, Bool.or_false]

theorem history_body_snoc (history : List Signal) (signal : Signal) :
    historyBody (history ++ [signal]) =
      if history.any Signal.stops then historyBody history else historyBody history ++ signal.bytes := by
  rw [historyBody, through_snoc]
  cases history.any Signal.stops with
  | true => rfl
  | false =>
      simp only [Bool.false_eq_true, if_false, List.flatMap_append, List.flatMap_cons, List.flatMap_nil, List.append_nil]
      rfl

theorem history_body_silent (history : List Signal) (signal : Signal) (silent : signal.bytes = []) :
    historyBody (history ++ [signal]) = historyBody history := by
  rw [history_body_snoc, silent, List.append_nil, ite_self]

-- The step lemma: what one more signal does to a stream that its history describes.
theorem describes_step (history : List Signal) (request : Request) (signal : Signal) (described : Describes history request) :
    ∃ after, advance (some request) signal = some after ∧ Describes (history ++ [signal]) after := by
  obtain ⟨state, body⟩ := described
  rw [historyState] at state
  cases signal with
  | headers fields endStream =>
      refine ⟨_, rfl, ?_, ?_⟩
      · rw [history_state_snoc]
        simp only [Option.getD_some, state, end_state_entered, end_state_receive, Signal.resets, Signal.endsReceive,
          Signal.endsSend, Bool.or_false]
        cases endStream with
        | true => rw [if_pos rfl, Bool.or_true]
        | false => rw [if_neg (by decide), Bool.or_false]
      · exact body.trans (history_body_silent history (.headers fields endStream) rfl).symm
  | refused endStream =>
      refine ⟨_, rfl, ?_, ?_⟩
      · rw [history_state_snoc]
        simp only [state, Signal.resets, Signal.endsReceive, Signal.endsSend, Bool.or_false]
      · exact body.trans (history_body_silent history (.refused endStream) rfl).symm
  | data bytes endStream =>
      refine ⟨_, rfl, ?_, ?_⟩
      · rw [history_state_snoc]
        simp only [apply_ite Request.state, state, end_state_receives, end_state_receive, Signal.resets, Signal.endsReceive,
          Signal.endsSend, Bool.or_false]
        cases history.any Signal.resets <;> cases history.any Signal.endsReceive <;> cases history.any Signal.endsSend <;>
          cases endStream <;> rfl
      · rw [history_body_snoc, any_stops]
        simp only [apply_ite Request.body, state, end_state_receives, body, Signal.bytes]
        cases history.any Signal.resets || history.any Signal.endsReceive with
        | true => rfl
        | false => rfl
  | reset =>
      refine ⟨_, rfl, ?_, ?_⟩
      · rw [history_state_snoc]
        simp only [Signal.resets, Bool.or_true, end_state_closed]
      · exact body.trans (history_body_silent history .reset rfl).symm
  | sentEnd =>
      refine ⟨_, rfl, ?_, ?_⟩
      · rw [history_state_snoc]
        simp only [state, end_state_send, Signal.resets, Signal.endsReceive, Signal.endsSend, Bool.or_false, Bool.or_true]
      · exact body.trans (history_body_silent history .sentEnd rfl).symm

theorem opened_describes (fields : List Hpack.Header) (endStream : Bool) :
    ∃ after, advance none (.headers fields endStream) = some after ∧ Describes [.headers fields endStream] after := by
  cases endStream with
  | false => exact ⟨_, rfl, rfl, rfl⟩
  | true => exact ⟨_, rfl, rfl, rfl⟩

-- The run lemma, by induction on the history from its end.
theorem follow_describes (history : List Signal) :
    (sinceOpened history = [] ∧ follow none history = none) ∨
      ∃ request, sinceOpened history ≠ [] ∧ follow none history = some request ∧ Describes (sinceOpened history) request := by
  induction history using List.reverseRecOn with
  | nil => exact .inl ⟨rfl, rfl⟩
  | append_singleton earlier signal ih =>
      rw [follow_append, sinceOpened, since_snoc]
      rcases ih with ⟨unopened, absent⟩ | ⟨request, opened, present, described⟩
      · rw [sinceOpened] at unopened
        rw [if_pos unopened, absent]
        cases signal with
        | headers fields endStream =>
            obtain ⟨after, advanced, described⟩ := opened_describes fields endStream
            exact .inr ⟨after, List.cons_ne_nil _ _, advanced, described⟩
        | _ => exact .inl ⟨rfl, rfl⟩
      · rw [sinceOpened] at opened
        obtain ⟨after, advanced, also⟩ := describes_step _ request signal described
        rw [if_neg opened, present]
        exact .inr ⟨after, List.append_ne_nil_of_left_ne_nil opened _, advanced, also⟩

theorem stream_described (settings : H2Settings) (events : List Event) (conn : H2Connection) (id : UInt32)
    (executed : execute H2Connection.step (.new settings) events = some conn) :
    (sinceOpened (signals id (.new settings) events) = [] ∧ conn.getStream id = none) ∨
      ∃ stream, sinceOpened (signals id (.new settings) events) ≠ [] ∧ conn.getStream id = some stream ∧
        Describes (sinceOpened (signals id (.new settings) events)) stream.request := by
  have followed : conn.request id = follow none (signals id (.new settings) events) := run_request _ conn events id executed
  rcases follow_describes (signals id (.new settings) events) with ⟨unopened, absent⟩ | ⟨request, opened, present, described⟩
  · rw [absent, H2Connection.request, Option.map_eq_none_iff] at followed
    exact .inl ⟨unopened, followed⟩
  · rw [present, H2Connection.request, Option.map_eq_some_iff] at followed
    obtain ⟨stream, found, rfl⟩ := followed
    exact .inr ⟨stream, opened, found, described⟩

theorem closed_step (request : Request) (signal : Signal) (closed : request.state = .closed) :
    ∃ after, advance (some request) signal = some after ∧ after.state = .closed := by
  cases signal with
  | headers fields endStream =>
      refine ⟨_, rfl, ?_⟩
      simp only [Option.getD_some, closed]
      cases endStream <;> rfl
  | refused endStream => exact ⟨request, rfl, closed⟩
  | data bytes endStream =>
      have silent : request.state.receives = false := by
        rw [closed]
        rfl
      refine ⟨_, rfl, ?_⟩
      simp only [silent, Bool.false_eq_true, if_false]
      exact closed
  | reset => exact ⟨_, rfl, rfl⟩
  | sentEnd =>
      refine ⟨_, rfl, ?_⟩
      simp only [closed]
      rfl

theorem closed_run (history : List Signal) (request : Request) (closed : request.state = .closed) :
    ∃ after, follow (some request) history = some after ∧ after.state = .closed := by
  induction history generalizing request with
  | nil => exact ⟨request, rfl, closed⟩
  | cons signal later ih =>
      obtain ⟨middle, advanced, still⟩ := closed_step request signal closed
      rw [follow, List.foldl_cons, advanced]
      exact ih middle still

theorem history_state_real (history : List Signal) :
    historyState history ≠ .idle ∧ historyState history ≠ .reservedLocal ∧ historyState history ≠ .reservedRemote := by
  rw [historyState]
  cases history.any Signal.resets <;> cases history.any Signal.endsReceive <;> cases history.any Signal.endsSend <;> decide

theorem state_follows_history (settings : H2Settings) (events : List Event) (conn : H2Connection) (id : UInt32)
    (executed : execute H2Connection.step (.new settings) events = some conn) :
    (∀ stream, conn.getStream id = some stream →
      sinceOpened (signals id (.new settings) events) ≠ [] ∧
      stream.state = historyState (sinceOpened (signals id (.new settings) events)) ∧
      stream.state ≠ .idle ∧ stream.state ≠ .reservedLocal ∧ stream.state ≠ .reservedRemote) ∧
    ∀ more later stream, execute H2Connection.step conn more = some later → conn.getStream id = some stream →
      stream.state = .closed → ∃ after, later.getStream id = some after ∧ after.state = .closed := by
  refine ⟨fun stream found => ?_, fun more later stream further found closed => ?_⟩
  · rcases stream_described settings events conn id executed with ⟨_, absent⟩ | ⟨other, opened, also, described⟩
    · cases absent.symm.trans found
    · obtain rfl := Option.some.inj (also.symm.trans found)
      have real := history_state_real (sinceOpened (signals id (.new settings) events))
      rw [← described.state] at real
      exact ⟨opened, described.state, real⟩
  · have followed := run_request conn later more id further
    have present : conn.request id = some stream.request := by rw [H2Connection.request, found, Option.map_some]
    obtain ⟨request, still, closed'⟩ := closed_run (signals id conn more) stream.request closed
    rw [present, still, H2Connection.request, Option.map_eq_some_iff] at followed
    obtain ⟨after, there, rfl⟩ := followed
    exact ⟨after, there, closed'⟩

theorem exchange_closes : ∃ conn, execute H2Connection.step (.new {})
      [.receive (.headers 1 true true [0x82]), .send (.data 1 [0x68] true)] = some conn ∧
    ∀ more later, execute H2Connection.step conn more = some later →
      ∃ stream, later.getStream 1 = some stream ∧ stream.state = .closed := by
  refine ⟨_, rfl, fun more later further => ?_⟩
  have follows := state_follows_history {} [.receive (.headers 1 true true [0x82]), .send (.data 1 [0x68] true)] _ 1 rfl
  exact follows.2 more later _ further rfl rfl

-- END_STREAM arrives on HEADERS whose block names index 0 of the table.
theorem undecoded_end_leaves_open : ∃ conn stream, execute H2Connection.step (.new {})
      [.receive (.headers 1 false true [0x82]), .receive (.headers 1 true true [0x80])] = some conn ∧
    conn.getStream 1 = some stream ∧ stream.state = .open := ⟨_, _, rfl, rfl, rfl⟩

def Signal.received : Signal → Bool
  | .headers _ _ | .data _ _ | .reset => true
  | .refused _ | .sentEnd => false

def Signal.unnamed : Signal → Signal
  | .headers _ endStream => .headers [] endStream
  | signal => signal

-- What can matter to the body of a request: how the stream is opened, filled
-- and closed by what arrives, whatever fields the HEADERS carry.
def bodyHistory (history : List Signal) : List Signal := (history.filter Signal.received).map Signal.unnamed

theorem opens_received (signal : Signal) (opens : signal.opens = true) : signal.received = true := by
  cases signal <;> first | rfl | cases opens

theorem stops_received (signal : Signal) (stops : signal.stops = true) : signal.received = true := by
  cases signal <;> first | rfl | cases stops

theorem unnamed_opens (signal : Signal) : signal.unnamed.opens = signal.opens := by
  cases signal <;> rfl

theorem unnamed_stops (signal : Signal) : signal.unnamed.stops = signal.stops := by
  cases signal <;> rfl

theorem since_opened_body (history : List Signal) : sinceOpened (bodyHistory history) = bodyHistory (sinceOpened history) := by
  rw [sinceOpened, bodyHistory, since_map _ _ _ unnamed_opens, since_filter _ _ _ opens_received]
  rfl

theorem body_of_body_history (history : List Signal) : historyBody (bodyHistory history) = historyBody history := by
  rw [historyBody, historyBody, bodyHistory, through_map _ _ _ unnamed_stops, through_filter _ _ _ stops_received]
  induction through Signal.stops history with
  | nil => rfl
  | cons signal later ih =>
      rw [List.flatMap_cons, ← ih]
      cases signal <;> rfl

theorem body_history_unopened (history : List Signal) :
    bodyHistory (sinceOpened history) = [] ↔ sinceOpened history = [] := by
  rw [← since_opened_body, sinceOpened, bodyHistory, since_map _ _ _ unnamed_opens, List.map_eq_nil_iff,
    since_filter_nil _ _ _ opens_received]
  rfl

theorem body_described (settings : H2Settings) (events : List Event) (conn : H2Connection) (id : UInt32)
    (executed : execute H2Connection.step (.new settings) events = some conn) :
    (conn.getStream id).map Stream.requestBody =
      if sinceOpened (bodyHistory (signals id (.new settings) events)) = [] then none
      else some (historyBody (sinceOpened (bodyHistory (signals id (.new settings) events)))) := by
  rw [since_opened_body, body_of_body_history]
  rcases stream_described settings events conn id executed with ⟨unopened, absent⟩ | ⟨stream, opened, found, described⟩
  · rw [if_pos ((body_history_unopened _).mpr unopened), absent]
    rfl
  · rw [if_neg fun empty => opened ((body_history_unopened _).mp empty), found]
    exact congrArg _ described.body

theorem bodies_do_not_mix (settings : H2Settings) (events : List Event) (conn : H2Connection) (id : UInt32)
    (executed : execute H2Connection.step (.new settings) events = some conn) :
    (∀ stream, conn.getStream id = some stream →
      stream.requestBody = historyBody (sinceOpened (signals id (.new settings) events))) ∧
    ∀ settings' events' conn', execute H2Connection.step (.new settings') events' = some conn' →
      bodyHistory (signals id (.new settings') events') = bodyHistory (signals id (.new settings) events) →
      (conn'.getStream id).map Stream.requestBody = (conn.getStream id).map Stream.requestBody := by
  refine ⟨fun stream found => ?_, fun settings' events' conn' executed' same => ?_⟩
  · rcases stream_described settings events conn id executed with ⟨_, absent⟩ | ⟨other, _, also, described⟩
    · cases absent.symm.trans found
    · obtain rfl := Option.some.inj (also.symm.trans found)
      exact described.body
  · rw [body_described settings events conn id executed, body_described settings' events' conn' id executed', same]

theorem turns_do_not_mix : ∃ conn stream, execute H2Connection.step (.new {})
      [.receive (.headers 1 false true [0x82]), .receive (.headers 3 false true [0x82]), .receive (.data 1 false [0x61]),
        .receive (.data 3 true [0x62]), .receive (.data 1 true [0x63])] = some conn ∧
    conn.getStream 1 = some stream ∧ stream.requestBody = [0x61, 0x63] := by
  refine ⟨_, _, rfl, rfl, ?_⟩
  exact (bodies_do_not_mix {} [.receive (.headers 1 false true [0x82]), .receive (.headers 3 false true [0x82]),
    .receive (.data 1 false [0x61]), .receive (.data 3 true [0x62]), .receive (.data 1 true [0x63])] _ 1 rfl).1 _ rfl

theorem data_after_undecoded_end : ∃ conn stream, execute H2Connection.step (.new {})
      [.receive (.headers 1 false true [0x82]), .receive (.headers 1 true true [0x80]), .receive (.data 1 false [0x61])] =
        some conn ∧
    conn.getStream 1 = some stream ∧ stream.requestBody = [0x61] := ⟨_, _, rfl, rfl, rfl⟩

end Ners.H2
