import Ners.Server.Stage
import Mathlib.Logic.Function.Basic

set_option autoImplicit false

namespace Ners.Server

open Function (update)

-- What the body of a loop does to its connection: the queue its id is pushed
-- to and the gauge raised for that, if any, the connection it leaves (none once
-- the slot is removed), and the bytes it took from the socket and gave to it.
structure Handled where
  next : Except Fault (Option (StageId × String))
  conn : Option ConnState
  metrics : MetricsCollector
  received : Bytes
  sent : Bytes

-- ParseStage::process past slab.get_mut(id). An incomplete request goes back to
-- the end of its queue.
def parseStage (io : Io) (conn : ConnState) (metrics : MetricsCollector) : Handled :=
  let received := if conn.stream.isSome then bytesRead io else []
  let conn := if conn.stream.isSome then { conn with readBuf := (readAll io conn.readBuf).1 } else conn
  match Http.parse conn.readBuf with
  | .error fault => ⟨.error fault, some conn, metrics, received, []⟩
  | .ok (.ok (request, _)) =>
      ⟨.ok (some (.route, "route")), some { conn with
        requestMethod := some request.method
        requestPath := some request.path
        state := .routed
        readBuf := [] }, metrics, received, []⟩
  | .ok (.error .incomplete) => ⟨.ok (some (.parse, "parse")), some conn, metrics, received, []⟩
  | .ok (.error (.invalid _)) => ⟨.ok none, some { conn with state := .closed }, metrics.incErrors "parse", received, []⟩

def routeStage (conn : ConnState) (metrics : MetricsCollector) : Handled :=
  ⟨.ok (some (.app, "app")), some { conn with routeId := some (routeFor conn.requestPath), state := .processing }, metrics, [], []⟩

def appStage (site : Site) (conn : ConnState) (metrics : MetricsCollector) : Handled :=
  ⟨.ok (some (.encode, "net_out")), some { handlerFor site conn.routeId conn with state := .sending },
    metrics.incTotalRequests, [], []⟩

-- NetOutStage::process past slab.get_mut(id). A slot without a stream is freed
-- and not counted down.
def netOutStage (io : Io) (conn : ConnState) (metrics : MetricsCollector) : Handled :=
  if conn.stream.isSome then
    match writeAll io conn.writeBuf conn.bytesWritten with
    | .error fault => ⟨.error fault, some conn, metrics, [], []⟩
    | .ok (sent, .ok written) =>
        let conn := { conn with bytesWritten := conn.bytesWritten + written }
        if conn.writeBuf.length ≤ conn.bytesWritten then ⟨.ok none, none, metrics.decTotalConns, [], sent⟩
        else ⟨.ok (some (.netOut, "net_out")), some conn, metrics, [], sent⟩
    | .ok (sent, .error _) => ⟨.ok none, none, metrics.decTotalConns.incErrors "net_out", [], sent⟩
  else ⟨.ok none, none, metrics, [], []⟩

-- The six stages of one thread, each with the queue it takes its ids from.
structure Pipeline where
  slab : ConnSlab
  metrics : MetricsCollector
  queues : StageId → RingQueue
  accepted : Nat
  log : List Visit

-- RingQueue::new asks for eight bytes a cell in one Vec, which holds at most
-- isize::MAX bytes.
structure PipelineConfig where
  slabCapacity : Nat
  queueCapacity : StageId → Nat
  word : slabCapacity < 2 ^ 64
  cells : ∀ stage, 8 * queueCapacity stage < 2 ^ 63

def Pipeline.new (config : PipelineConfig) : Pipeline where
  slab := .new config.slabCapacity
  metrics := .new
  queues := fun stage => .new (config.queueCapacity stage)
  accepted := 0
  log := []

-- if queue.push(id).is_ok() { metrics.inc_queue_len(gauge) }
def Pipeline.push (p : Pipeline) (queue : StageId) (gauge : Option String) (id : ConnId) : Except Fault Pipeline :=
  match (p.queues queue).push id with
  | .error fault => .error fault
  | .ok (.error _, _) => .ok p
  | .ok (.ok _, longer) =>
      .ok { p with
        queues := update p.queues queue longer
        metrics := gauge.elim p.metrics p.metrics.incQueueLen }

def Pipeline.take (p : Pipeline) (stage : StageId) (shorter : RingQueue) (gauge : Option String) : Pipeline :=
  { p with
    queues := update p.queues stage shorter
    metrics := gauge.elim p.metrics p.metrics.decQueueLen }

def Pipeline.store (p : Pipeline) (stage : StageId) (io : Io) (id : ConnId) (conn : ConnState) (handled : Handled) : Pipeline :=
  { p with
    slab := match handled.conn with
      | some conn => p.slab.put id (some conn)
      | none => p.slab.remove id
    metrics := handled.metrics
    log := p.log ++ (conn.stream.map fun socket => ⟨socket, stage, io, handled.received, handled.sent⟩).toList }

-- let conn = match slab.get_mut(id) { None => continue, .. }, then a body on
-- that connection.
def Pipeline.withConn (p : Pipeline) (stage : StageId) (io : Io) (id : ConnId)
    (body : ConnState → MetricsCollector → Handled) : Except Fault Pipeline :=
  match p.slab.get id with
  | none => .ok p
  | some conn =>
      let handled := body conn p.metrics
      let stored := p.store stage io id conn handled
      match handled.next with
      | .error fault => .error fault
      | .ok none => .ok stored
      | .ok (some (queue, gauge)) => stored.push queue (some gauge) id

-- What a call comes to, and the values its decrements of queue gauges met.
structure Round where
  result : Except Fault Pipeline
  met : List UInt64

def Pipeline.meets (p : Pipeline) (gauge : Option String) : List UInt64 := (gauge.bind p.metrics.currentQueueLen).toList

-- The loop of a stage, with what its sockets have in store for each turn.
def Pipeline.loop (stage : StageId) (gauge : Option String) (serve : Io → ConnId → Pipeline → Except Fault Pipeline) :
    List Io → Pipeline → Round
  | [], p => ⟨.ok p, []⟩
  | io :: later, p =>
      match (p.queues stage).pop with
      | (none, queue) => ⟨.ok { p with queues := update p.queues stage queue }, []⟩
      | (some id, queue) =>
          match serve io id (p.take stage queue gauge) with
          | .error fault => ⟨.error fault, p.meets gauge⟩
          | .ok p' =>
              let rest := loop stage gauge serve later p'
              ⟨rest.result, p.meets gauge ++ rest.met⟩

-- for _ in 0..100
def turns (ios : Nat → Io) : List Io := (List.range 100).map ios

def parseServe (io : Io) (id : ConnId) (p : Pipeline) : Except Fault Pipeline := p.withConn .parse io id (parseStage io)

def parseProcess (ios : Nat → Io) (p : Pipeline) : Round := p.loop .parse (some "parse") parseServe (turns ios)

def routeServe (io : Io) (id : ConnId) (p : Pipeline) : Except Fault Pipeline := p.withConn .route io id routeStage

def routeProcess (ios : Nat → Io) (p : Pipeline) : Round := p.loop .route (some "route") routeServe (turns ios)

def appServe (site : Site) (io : Io) (id : ConnId) (p : Pipeline) : Except Fault Pipeline := p.withConn .app io id (appStage site)

def appProcess (site : Site) (ios : Nat → Io) (p : Pipeline) : Round := p.loop .app (some "app") (appServe site) (turns ios)

-- let _ = self.output_queue.push(id)
def encodeServe (_ : Io) (id : ConnId) (p : Pipeline) : Except Fault Pipeline := p.push .netOut none id

def encodeProcess (ios : Nat → Io) (p : Pipeline) : Round := p.loop .encode none encodeServe (turns ios)

def netOutServe (io : Io) (id : ConnId) (p : Pipeline) : Except Fault Pipeline := p.withConn .netOut io id (netOutStage io)

def netOutProcess (ios : Nat → Io) (p : Pipeline) : Round := p.loop .netOut (some "net_out") netOutServe (turns ios)

-- One stream of accept_all. A connection without a slot is dropped.
def Pipeline.accept (p : Pipeline) : Except Fault Pipeline :=
  match p.slab.insert (.new p.accepted) with
  | (none, slab) => .ok { p with slab := slab, accepted := p.accepted + 1 }
  | (some id, slab) =>
      Pipeline.push { p with slab := slab, metrics := p.metrics.incTotalConns, accepted := p.accepted + 1 } .parse (some "parse") id

def netInProcess : Nat → Pipeline → Except Fault Pipeline
  | 0, p => .ok p
  | streams + 1, p => p.accept.bind (netInProcess streams)

inductive StageCall where
  | netIn (streams : Nat)
  | process (stage : StageId) (ios : Nat → Io)

def Pipeline.round (site : Site) (p : Pipeline) : StageCall → Round
  | .netIn streams => ⟨netInProcess streams p, []⟩
  | .process .parse ios => parseProcess ios p
  | .process .route ios => routeProcess ios p
  | .process .app ios => appProcess site ios p
  | .process .encode ios => encodeProcess ios p
  | .process .netOut ios => netOutProcess ios p

-- A panic leaves no pipeline.
def Pipeline.step (site : Site) (p : Pipeline) (call : StageCall) : Option Pipeline := (p.round site call).result.toOption

theorem push_ok (p p' : Pipeline) (queue : StageId) (gauge : Option String) (id : ConnId) (pushed : p.push queue gauge id = .ok p') :
    ((p.queues queue).contents.length = (p.queues queue).capacity - 1 ∧ p' = p) ∨
      ((p.queues queue).contents.length < (p.queues queue).capacity - 1 ∧
        ∃ longer : RingQueue, longer.contents = (p.queues queue).contents ++ [id] ∧ longer.capacity = (p.queues queue).capacity ∧
          p' = { p with queues := update p.queues queue longer, metrics := gauge.elim p.metrics p.metrics.incQueueLen }) := by
  unfold Pipeline.push at pushed
  by_cases zero : (p.queues queue).capacity = 0
  · simp only [push_panics _ id zero] at pushed
    cases pushed
  · by_cases full : (p.queues queue).contents.length = (p.queues queue).capacity - 1
    · simp only [push_full _ id zero full] at pushed
      exact .inl ⟨full, (Except.ok.inj pushed).symm⟩
    · obtain ⟨longer, stored, contents, capacity⟩ := push_room _ id zero full
      simp only [stored] at pushed
      have bound := len_bound (p.queues queue)
      rw [← contents_length] at bound
      exact .inr ⟨by omega, longer, contents, capacity, (Except.ok.inj pushed).symm⟩

theorem returned_of_option (result : Except Fault Pipeline) (p : Pipeline) (there : result.toOption = some p) : result = .ok p := by
  cases result with
  | error fault => cases there
  | ok p' => exact congrArg Except.ok (Option.some.inj there)

end Ners.Server
