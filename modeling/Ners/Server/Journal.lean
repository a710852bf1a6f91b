import Ners.Server.Places

set_option autoImplicit false

namespace Ners.Server

-- What one socket saw: the stages that visited it with the outcomes it had for
-- them, and the bytes that went in and out.
def journal (socket : Socket) (log : List Visit) : List (StageId × Io) :=
  (log.filter fun visit => visit.socket = socket).map fun visit => (visit.stage, visit.io)

def receivedOn (socket : Socket) (log : List Visit) : Bytes :=
  (log.filter fun visit => visit.socket = socket).flatMap Visit.received

def sentOn (socket : Socket) (log : List Visit) : Bytes :=
  (log.filter fun visit => visit.socket = socket).flatMap Visit.sent

theorem journal_append (socket : Socket) (log more : List Visit) :
    journal socket (log ++ more) = journal socket log ++ journal socket more := by
  simp [journal]

theorem received_append (socket : Socket) (log more : List Visit) :
    receivedOn socket (log ++ more) = receivedOn socket log ++ receivedOn socket more := by
  simp [receivedOn]

theorem sent_append (socket : Socket) (log more : List Visit) :
    sentOn socket (log ++ more) = sentOn socket log ++ sentOn socket more := by
  simp [sentOn]

theorem visit_elsewhere (socket : Socket) (visit : Visit) (other : visit.socket ≠ socket) :
    journal socket [visit] = [] ∧ receivedOn socket [visit] = [] ∧ sentOn socket [visit] = [] := by
  simp [journal, receivedOn, sentOn, other]

theorem visit_here (visit : Visit) :
    journal visit.socket [visit] = [(visit.stage, visit.io)] ∧ receivedOn visit.socket [visit] = visit.received ∧
      sentOn visit.socket [visit] = visit.sent := by
  simp [journal, receivedOn, sentOn]

theorem unvisited (socket : Socket) (log : List Visit) (never : ∀ visit ∈ log, visit.socket ≠ socket) :
    journal socket log = [] := by
  rw [journal, List.filter_eq_nil_iff.mpr (by simpa using never), List.map_nil]

def responseTo (site : Site) (path : String) : Bytes := handlerBytes site (some (routeFor (some path)))

def delivered (io : Io) (response : Bytes) : Bytes :=
  match writeAll io response 0 with
  | .ok (sent, _) => sent
  | .error _ => []

def expectedReceived : List (StageId × Io) → Bytes
  | (.parse, read) :: _ => bytesRead read
  | _ => []

def expectedSent (site : Site) : List (StageId × Io) → Bytes
  | [(.parse, read), (.route, _), (.app, _), (.netOut, write)] =>
      match Http.parse (bytesRead read) with
      | .ok (.ok (request, _)) => delivered write (responseTo site request.path)
      | _ => []
  | _ => []

def Io.usedBy (io : Io) : StageId → Io
  | .parse => ⟨io.reads, []⟩
  | .netOut => ⟨[], io.writes⟩
  | _ => ⟨[], []⟩

def used (visit : StageId × Io) : StageId × Io := (visit.1, visit.2.usedBy visit.1)

theorem expected_sent_used (site : Site) (visits : List (StageId × Io)) :
    expectedSent site (visits.map used) = expectedSent site visits := by
  by_cases whole : ∃ read route app write, visits = [(.parse, read), (.route, route), (.app, app), (.netOut, write)]
  · obtain ⟨read, route, app, write, rfl⟩ := whole
    rfl
  · have none : expectedSent site visits = [] := by
      unfold expectedSent
      split
      · rename_i read route app write
        exact absurd ⟨read, route, app, write, rfl⟩ whole
      · rfl
    rw [none]
    unfold expectedSent
    split
    · rename_i read route app write shape
      simp only [List.map_eq_cons_iff, List.map_eq_nil_iff, used, Prod.mk.injEq] at shape
      obtain ⟨⟨_, read⟩, _, rfl, ⟨rfl, _⟩, ⟨_, route⟩, _, rfl, ⟨rfl, _⟩, ⟨_, app⟩, _, rfl, ⟨rfl, _⟩, ⟨_, write⟩, _, rfl, ⟨rfl, _⟩, rfl⟩ :=
        shape
      exact absurd ⟨read, route, app, write, rfl⟩ whole
    · rfl

theorem delivered_front (io : Io) (response : Bytes) : delivered io response <+: response := by
  obtain ⟨count, result, written⟩ := write_all_ok io response 0 (Nat.zero_le _)
  rw [delivered, written]
  exact List.take_prefix _ _

theorem expected_sent_front (site : Site) (visits : List (StageId × Io)) :
    expectedSent site visits = [] ∨ ∃ request n, Http.parse (expectedReceived visits) = .ok (.ok (request, n)) ∧
      expectedSent site visits <+: responseTo site request.path := by
  unfold expectedSent
  split
  · rename_i read route app write
    split
    · rename_i request n parsed
      exact .inr ⟨request, n, parsed, delivered_front write _⟩
    · exact .inl rfl
  · exact .inl rfl

-- How far a connection has come, by the place of its id. None is ended: net_out
-- gives no id back.
inductive Phase where
  | fresh
  | parsed
  | routed
  | answered
  | ended
deriving DecidableEq

def Place.phase : Place → Phase
  | .acceptor | .queue .parse | .popped .parse => .fresh
  | .passing .parse | .queue .route | .popped .route => .parsed
  | .passing .route | .queue .app | .popped .app => .routed
  | .passing .app | .queue .encode | .popped .encode | .passing .encode => .answered
  | .queue .netOut | .popped .netOut => .answered
  | .passing .netOut => .ended

theorem moved_phase (a : Action) (p q : Place) (source : a.source = some p) (target : a.target = some q)
    (locked : ∀ stage io, a ≠ .process stage io) : q.phase = p.phase := by
  cases a with
  | accept count => cases source
  | insert => cases source
  | acceptorGauge => cases source
  | unlock stage => cases source
  | process stage io => exact absurd rfl (locked stage io)
  | acceptorPush =>
      cases source
      cases target
      rfl
  | pop stage =>
      cases source
      cases target
      cases stage <;> rfl
  | push stage =>
      cases source
      cases stage <;> cases target <;> rfl

def parsedConn (socket : Socket) (request : Http.HttpRequest) : ConnState :=
  { ConnState.new socket with
    requestMethod := some request.method
    requestPath := some request.path
    state := .routed }

def routedConn (socket : Socket) (request : Http.HttpRequest) : ConnState :=
  { parsedConn socket request with routeId := some (routeFor (some request.path)), state := .processing }

def answeredConn (site : Site) (socket : Socket) (request : Http.HttpRequest) : ConnState :=
  { routedConn socket request with writeBuf := responseTo site request.path, state := .sending }

-- The journal of a connection in flight, and all of its state.
inductive Standing (site : Site) (socket : Socket) : Phase → List (StageId × Io) → ConnState → Prop where
  | fresh : Standing site socket .fresh [] (.new socket)
  | parsed (read : Io) (request : Http.HttpRequest) (n : Nat)
      (parse : Http.parse (bytesRead read) = .ok (.ok (request, n))) :
      Standing site socket .parsed [(.parse, read)] (parsedConn socket request)
  | routed (read route : Io) (request : Http.HttpRequest) (n : Nat)
      (parse : Http.parse (bytesRead read) = .ok (.ok (request, n))) :
      Standing site socket .routed [(.parse, read), (.route, route)] (routedConn socket request)
  | answered (read route app : Io) (request : Http.HttpRequest) (n : Nat)
      (parse : Http.parse (bytesRead read) = .ok (.ok (request, n))) :
      Standing site socket .answered [(.parse, read), (.route, route), (.app, app)] (answeredConn site socket request)

theorem standing_stream (site : Site) (socket : Socket) (phase : Phase) (visits : List (StageId × Io)) (conn : ConnState)
    (standing : Standing site socket phase visits conn) : conn.stream = some socket := by
  cases standing <;> rfl

-- A body of process_one run on a connection in flight: the socket's accounts
-- stay those of its journal, and an id that goes on stands in the next phase.
structure ServedWell (site : Site) (socket : Socket) (stage : StageId) (io : Io) (visits : List (StageId × Io))
    (served : Served) : Prop where
  received : expectedReceived (visits ++ [(stage, io)]) = expectedReceived visits ++ served.received
  sent : expectedSent site (visits ++ [(stage, io)]) = expectedSent site visits ++ served.sent
  goesOn : served.next = .ok true → ∃ conn, served.conn = some conn ∧
    Standing site socket (Place.passing stage).phase (visits ++ [(stage, io)]) conn

theorem parse_served (site : Site) (socket : Socket) (io : Io) (visits : List (StageId × Io)) (conn : ConnState)
    (metrics : MetricsCollector) (standing : Standing site socket .fresh visits conn) :
    ServedWell site socket .parse io visits (parseStageMulti io conn metrics) := by
  cases standing
  have buffer : (readAll io []).1 = bytesRead io := rfl
  simp only [parseStageMulti, ConnState.new, Option.isSome_some, if_true, buffer]
  rcases parsed : Http.parse (bytesRead io) with fault | error | ⟨request, n⟩
  · exact ⟨rfl, rfl, by simp⟩
  · cases error with
    | incomplete => exact ⟨rfl, rfl, by simp⟩
    | invalid reason => exact ⟨rfl, rfl, by simp⟩
  · exact ⟨rfl, rfl, fun _ => ⟨parsedConn socket request, rfl, .parsed io request n parsed⟩⟩

theorem route_served (site : Site) (socket : Socket) (io : Io) (visits : List (StageId × Io)) (conn : ConnState)
    (metrics : MetricsCollector) (standing : Standing site socket .parsed visits conn) :
    ServedWell site socket .route io visits (routeStageMulti conn metrics) := by
  cases standing with
  | parsed read request n parse =>
      exact ⟨(List.append_nil _).symm, rfl, fun _ => ⟨routedConn socket request, rfl, .routed read io request n parse⟩⟩

theorem app_served (site : Site) (socket : Socket) (io : Io) (visits : List (StageId × Io)) (conn : ConnState)
    (metrics : MetricsCollector) (standing : Standing site socket .routed visits conn) :
    ServedWell site socket .app io visits (appStageMulti site conn metrics) := by
  cases standing with
  | routed read route request n parse =>
      refine ⟨(List.append_nil _).symm, rfl, fun _ => ⟨answeredConn site socket request, ?_, .answered read route io request n parse⟩⟩
      simp only [appStageMulti, handler_appends]
      rfl

theorem net_out_served (site : Site) (socket : Socket) (io : Io) (visits : List (StageId × Io)) (conn : ConnState)
    (metrics : MetricsCollector) (standing : Standing site socket .answered visits conn) :
    ServedWell site socket .netOut io visits (netOutStageMulti io conn metrics) := by
  cases standing with
  | answered read route app request n parse =>
      have sent : expectedSent site ([(.parse, read), (.route, route), (.app, app)] ++ [(.netOut, io)]) =
          delivered io (responseTo site request.path) := by
        simp only [List.cons_append, List.nil_append, expectedSent, parse]
      obtain ⟨count, result, written⟩ := write_all_ok io (responseTo site request.path) 0 (Nat.zero_le _)
      have stream : (answeredConn site socket request).stream.isSome = true := rfl
      have buffer : (answeredConn site socket request).writeBuf = responseTo site request.path := rfl
      have start : (answeredConn site socket request).bytesWritten = 0 := rfl
      simp only [netOutStageMulti, stream, if_true, buffer, start, written]
      rw [delivered, written] at sent
      cases result with
      | error e => exact ⟨(List.append_nil _).symm, sent, by simp⟩
      | ok n =>
          simp only
          split
          · exact ⟨(List.append_nil _).symm, sent, by simp⟩
          · exact ⟨(List.append_nil _).symm, sent, by simp⟩

end Ners.Server
