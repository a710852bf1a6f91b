import Ners.Http.Response
import Ners.Server.Conn
import Ners.Server.Metrics
import Ners.Server.Net

set_option autoImplicit false

namespace Ners.Server

open Http (HeaderOrder HttpResponse)
open Utf8 (asBytes)

-- The text of static/index.html, which the build includes, and the iteration
-- order of header maps.
structure Site where
  landingPage : String
  order : HeaderOrder

def helloResponse (site : Site) : HttpResponse := (HttpResponse.ok (asBytes site.landingPage)).html

def jsonResponse : HttpResponse :=
  (HttpResponse.ok (asBytes "\x7b\"status\": \"ok\", \"message\": \"NERS - High Performance Web Server\"\x7d")).json

def respond (site : Site) (response : HttpResponse) (conn : ConnState) : ConnState :=
  { conn with writeBuf := conn.writeBuf ++ response.toBytes site.order }

def handleHello (site : Site) : ConnState → ConnState := respond site (helloResponse site)

def handleJson (site : Site) : ConnState → ConnState := respond site jsonResponse

def handleNotFound (site : Site) : ConnState → ConnState := respond site .notFound

inductive StageId where
  | parse
  | route
  | app
  | encode
  | netOut
deriving DecidableEq

-- What a body of process_one does to its connection: whether the id goes on,
-- the connection it leaves (none once the slot is removed), and the bytes it
-- took from the socket and gave to it.
structure Served where
  next : Except Fault Bool
  conn : Option ConnState
  metrics : MetricsCollector
  received : Bytes
  sent : Bytes

-- ParseStageMulti::process_one behind slab.get_mut(conn_id)?. An unwinding
-- parser leaves what was read.
def parseStageMulti (io : Io) (conn : ConnState) (metrics : MetricsCollector) : Served :=
  let received := if conn.stream.isSome then bytesRead io else []
  let conn := if conn.stream.isSome then { conn with readBuf := (readAll io conn.readBuf).1 } else conn
  match Http.parse conn.readBuf with
  | .error fault => ⟨.error fault, some conn, metrics, received, []⟩
  | .ok (.ok (request, _)) =>
      ⟨.ok true, some { conn with
        requestMethod := some request.method
        requestPath := some request.path
        state := .routed
        readBuf := [] }, metrics, received, []⟩
  | .ok (.error .incomplete) => ⟨.ok false, some conn, metrics, received, []⟩
  | .ok (.error (.invalid _)) =>
      ⟨.ok false, some { conn with state := .closed }, metrics.incErrors "parse", received, []⟩

def routeFor (requestPath : Option String) : RouteId :=
  if requestPath = some "/" then 0
  else if requestPath = some "/api/test" then 1
  else 999

-- RouteStageMulti::process_one behind get_mut.
def routeStageMulti (conn : ConnState) (metrics : MetricsCollector) : Served :=
  ⟨.ok true, some { conn with routeId := some (routeFor conn.requestPath), state := .processing }, metrics, [], []⟩

def handlerFor (site : Site) (routeId : Option RouteId) : ConnState → ConnState :=
  if routeId = some 0 then handleHello site
  else if routeId = some 1 then handleJson site
  else handleNotFound site

def handlerBytes (site : Site) (routeId : Option RouteId) : Bytes :=
  if routeId = some 0 then (helloResponse site).toBytes site.order
  else if routeId = some 1 then jsonResponse.toBytes site.order
  else HttpResponse.notFound.toBytes site.order

theorem handler_appends (site : Site) (routeId : Option RouteId) (conn : ConnState) :
    handlerFor site routeId conn = { conn with writeBuf := conn.writeBuf ++ handlerBytes site routeId } := by
  unfold handlerFor handlerBytes
  by_cases hello : routeId = some 0
  · rw [if_pos hello, if_pos hello]
    rfl
  · rw [if_neg hello, if_neg hello]
    by_cases json : routeId = some 1
    · rw [if_pos json, if_pos json]
      rfl
    · rw [if_neg json, if_neg json]
      rfl

-- AppStageMulti::process_one behind get_mut.
def appStageMulti (site : Site) (conn : ConnState) (metrics : MetricsCollector) : Served :=
  ⟨.ok true, some { handlerFor site conn.routeId conn with state := .sending }, metrics.incTotalRequests, [], []⟩

-- NetOutStageMulti::process_one behind get_mut. A short write keeps the
-- connection in its slot and gives no id back.
def netOutStageMulti (io : Io) (conn : ConnState) (metrics : MetricsCollector) : Served :=
  if conn.stream.isSome then
    match writeAll io conn.writeBuf conn.bytesWritten with
    | .error fault => ⟨.error fault, some conn, metrics, [], []⟩
    | .ok (sent, .ok written) =>
        let conn := { conn with bytesWritten := conn.bytesWritten + written }
        if conn.writeBuf.length ≤ conn.bytesWritten then ⟨.ok false, none, metrics.decTotalConns, [], sent⟩
        else ⟨.ok false, some conn, metrics, [], sent⟩
    | .ok (sent, .error _) => ⟨.ok false, none, metrics.decTotalConns.incErrors "net_out", [], sent⟩
  else ⟨.ok false, some conn, metrics, [], []⟩

structure Visit where
  socket : Socket
  stage : StageId
  io : Io
  received : Bytes
  sent : Bytes

structure Turn where
  next : Except Fault (Option ConnId)
  slab : ConnSlab
  metrics : MetricsCollector
  visits : List Visit

-- let conn = slab.get_mut(conn_id)?, then a body on that connection.
def withConn (stage : StageId) (io : Io) (connId : ConnId) (slab : ConnSlab) (metrics : MetricsCollector)
    (body : ConnState → MetricsCollector → Served) : Turn :=
  match slab.get connId with
  | none => ⟨.ok none, slab, metrics, []⟩
  | some conn =>
      let served := body conn metrics
      ⟨served.next.map fun goesOn => if goesOn then some connId else none,
        match served.conn with
        | some conn => slab.put connId (some conn)
        | none => slab.remove connId,
        served.metrics,
        (conn.stream.map fun socket => ⟨socket, stage, io, served.received, served.sent⟩).toList⟩

-- EncodeStageMulti passes every id through without a look at the slab.
def processOne (site : Site) (stage : StageId) (io : Io) (connId : ConnId) (slab : ConnSlab) (metrics : MetricsCollector) : Turn :=
  match stage with
  | .parse => withConn .parse io connId slab metrics (parseStageMulti io)
  | .route => withConn .route io connId slab metrics routeStageMulti
  | .app => withConn .app io connId slab metrics (appStageMulti site)
  | .encode => ⟨.ok (some connId), slab, metrics, []⟩
  | .netOut => withConn .netOut io connId slab metrics (netOutStageMulti io)

end Ners.Server
