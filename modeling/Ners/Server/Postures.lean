import Ners.Server.Journal
import Ners.Server.Sending

set_option autoImplicit false

namespace Ners.Server

-- What a stage's queue may hold of a connection, by the bytes that came from its
-- socket and went to it.
inductive Posture (site : Site) (socket : Socket) : StageId → Bytes → Bytes → ConnState → Prop where
  | waiting (received : Bytes) (parse : Http.parse received = .ok (.error .incomplete)) :
      Posture site socket .parse received [] { ConnState.new socket with readBuf := received }
  | parsed (received : Bytes) (request : Http.HttpRequest) (n : Nat) (parse : Http.parse received = .ok (.ok (request, n))) :
      Posture site socket .route received [] (parsedConn socket request)
  | routed (received : Bytes) (request : Http.HttpRequest) (n : Nat) (parse : Http.parse received = .ok (.ok (request, n))) :
      Posture site socket .app received [] (routedConn socket request)
  | answered (received : Bytes) (request : Http.HttpRequest) (n : Nat) (parse : Http.parse received = .ok (.ok (request, n))) :
      Posture site socket .encode received [] (answeredConn site socket request)
  | sending (received : Bytes) (request : Http.HttpRequest) (n count : Nat)
      (parse : Http.parse received = .ok (.ok (request, n))) (within : count ≤ (responseTo site request.path).length) :
      Posture site socket .netOut received ((responseTo site request.path).take count)
        { answeredConn site socket request with bytesWritten := count }

theorem posture_stream (site : Site) (socket : Socket) (stage : StageId) (received sent : Bytes) (conn : ConnState)
    (posture : Posture site socket stage received sent conn) : conn.stream = some socket := by
  cases posture <;> rfl

theorem posture_open (site : Site) (socket : Socket) (stage : StageId) (received sent : Bytes) (conn : ConnState)
    (posture : Posture site socket stage received sent conn) : conn.state ≠ .closed := by
  cases posture <;> nofun

theorem posture_accepted (site : Site) (socket : Socket) (stage : StageId) (received sent : Bytes) (conn : ConnState)
    (posture : Posture site socket stage received sent conn) (reason : String) :
    Http.parse received ≠ .ok (.error (.invalid reason)) := by
  intro invalid
  cases posture with
  | waiting _ parse => cases parse.symm.trans invalid
  | parsed _ request n parse => cases parse.symm.trans invalid
  | routed _ request n parse => cases parse.symm.trans invalid
  | answered _ request n parse => cases parse.symm.trans invalid
  | sending _ request n count parse within => cases parse.symm.trans invalid

-- All that a body can make of a connection that its stage may hold.
inductive Handles (site : Site) (socket : Socket) (stage : StageId) (io : Io) (received sent : Bytes) (handled : Handled) : Prop where
  | moves (queue : StageId) (gauge : String) (after : ConnState) (next : handled.next = .ok (some (queue, gauge)))
      (conn : handled.conn = some after)
      (posture : Posture site socket queue (received ++ handled.received) (sent ++ handled.sent) after)
  | rejects (reason : String) (after : ConnState) (next : handled.next = .ok none) (conn : handled.conn = some after)
      (stream : after.stream = some socket) (closed : after.state = .closed)
      (parse : Http.parse (received ++ handled.received) = .ok (.error (.invalid reason))) (unsent : sent ++ handled.sent = [])
  | delivers (request : Http.HttpRequest) (n : Nat) (parse : Http.parse (received ++ handled.received) = .ok (.ok (request, n)))
      (next : handled.next = .ok none) (conn : handled.conn = none) (whole : sent ++ handled.sent = responseTo site request.path)
  | severs (request : Http.HttpRequest) (n : Nat) (parse : Http.parse (received ++ handled.received) = .ok (.ok (request, n)))
      (next : handled.next = .ok none) (conn : handled.conn = none)
      (part : sent ++ handled.sent <+: responseTo site request.path) (out : stage = .netOut)
      (error : ∃ e, writeAll io (responseTo site request.path) sent.length = .ok (handled.sent, .error e))
  | unwinds (fault : Fault) (next : handled.next = .error fault)

theorem read_loop_appends (results : List ReadResult) (front buf : Bytes) (total more : Nat) :
    (readLoop results (front ++ buf) total).1 = front ++ (readLoop results buf more).1 := by
  induction results generalizing buf total more with
  | nil => rfl
  | cons result later ih =>
      rcases result with bytes | _ | _
      · cases bytes with
        | nil => rfl
        | cons b bytes =>
            rw [readLoop, readLoop, List.append_assoc]
            exact ih _ _ _
      · rfl
      · rfl

theorem read_appends (io : Io) (buf : Bytes) : (readAll io buf).1 = buf ++ bytesRead io := by
  have appended := read_loop_appends io.reads buf [] 0 0
  rwa [List.append_nil] at appended

theorem parse_handles (site : Site) (socket : Socket) (io : Io) (received sent : Bytes) (conn : ConnState)
    (metrics : MetricsCollector) (posture : Posture site socket .parse received sent conn) :
    Handles site socket .parse io received sent (parseStage io conn metrics) := by
  cases posture
  simp only [parseStage, ConnState.new, Option.isSome_some, if_true, read_appends]
  rcases parsed : Http.parse (received ++ bytesRead io) with fault | error | ⟨request, n⟩
  · exact .unwinds fault rfl
  · cases error with
    | incomplete => exact .moves .parse "parse" _ rfl rfl (.waiting _ parsed)
    | invalid reason => exact .rejects reason _ rfl rfl rfl rfl parsed rfl
  · exact .moves .route "route" _ rfl rfl (.parsed _ request n parsed)

theorem route_handles (site : Site) (socket : Socket) (io : Io) (received sent : Bytes) (conn : ConnState)
    (metrics : MetricsCollector) (posture : Posture site socket .route received sent conn) :
    Handles site socket .route io received sent (routeStage conn metrics) := by
  cases posture with
  | parsed _ request n parse =>
      have none : received ++ [] = received := List.append_nil received
      exact .moves .app "app" (routedConn socket request) rfl rfl (none.symm ▸ .routed received request n parse)

theorem app_handles (site : Site) (socket : Socket) (io : Io) (received sent : Bytes) (conn : ConnState)
    (metrics : MetricsCollector) (posture : Posture site socket .app received sent conn) :
    Handles site socket .app io received sent (appStage site conn metrics) := by
  cases posture with
  | routed _ request n parse =>
      have none : received ++ [] = received := List.append_nil received
      refine .moves .encode "net_out" (answeredConn site socket request) rfl ?_ (none.symm ▸ .answered received request n parse)
      simp only [appStage, handler_appends]
      rfl

theorem net_out_handles (site : Site) (socket : Socket) (io : Io) (received sent : Bytes) (conn : ConnState)
    (metrics : MetricsCollector) (posture : Posture site socket .netOut received sent conn) :
    Handles site socket .netOut io received sent (netOutStage io conn metrics) := by
  cases posture with
  | sending _ request n count parse within =>
      have silent : (netOutStage io { answeredConn site socket request with bytesWritten := count } metrics).received = [] := by
        unfold netOutStage
        split
        · split
          · rfl
          · dsimp only
            split <;> rfl
          · rfl
        · rfl
      have more (written : Nat) (bytes : Bytes) (same : bytes = ((responseTo site request.path).drop count).take written) :
          (responseTo site request.path).take count ++ bytes = (responseTo site request.path).take (count + written) := by
        rw [same, List.take_add]
      have parsed : Http.parse (received ++ (netOutStage io { answeredConn site socket request with bytesWritten := count }
          metrics).received) = .ok (.ok (request, n)) := by rw [silent, List.append_nil, parse]
      cases net_out_turn io { answeredConn site socket request with bytesWritten := count } metrics rfl within with
      | finished written end' next after bytes fine =>
          refine .delivers request n parsed next after ?_
          rw [more written _ bytes]
          exact List.take_of_length_le (Nat.le_of_eq end'.symm)
      | short written room next after bytes fine =>
          refine .moves .netOut "net_out" _ next after ?_
          rw [more written _ bytes, silent, List.append_nil]
          exact .sending received request n (count + written) parse (Nat.le_of_lt room)
      | failed written next after bytes error =>
          refine .severs request n parsed next after ?_ rfl ?_
          · rw [more written _ bytes]
            exact List.take_prefix _ _
          · rw [List.length_take, Nat.min_eq_left within]
            exact error

end Ners.Server
