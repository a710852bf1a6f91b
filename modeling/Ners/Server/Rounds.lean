import Ners.Server.Courses

set_option autoImplicit false

namespace Ners.Server

open Function (update)
open Placement (Apart)
open Runs (Run anyStep execute)

variable {refusals : List Socket}

-- What a peer does that holds nothing up: its bytes complete the request, and
-- it takes the response to its end.
def Obliging (stage : StageId) (io : Io) (conn : ConnState) : Prop :=
  match stage with
  | .parse => ∃ request n, Http.parse (conn.readBuf ++ bytesRead io) = .ok (.ok (request, n))
  | .netOut => ∃ sent written, writeAll io conn.writeBuf conn.bytesWritten = .ok (sent, .ok written) ∧
      conn.writeBuf.length ≤ conn.bytesWritten + written
  | _ => True

-- What a body makes of a connection whose peer is obliging.
inductive Proceeds (site : Site) (socket : Socket) (stage : StageId) (received sent : Bytes) (handled : Handled) : Prop where
  | moves (queue : StageId) (gauge : String) (after : ConnState) (output : stage.output = some queue)
      (next : handled.next = .ok (some (queue, gauge))) (conn : handled.conn = some after)
      (posture : Posture site socket queue (received ++ handled.received) (sent ++ handled.sent) after)
  | delivers (request : Http.HttpRequest) (n : Nat) (output : stage.output = none)
      (parse : Http.parse (received ++ handled.received) = .ok (.ok (request, n)))
      (next : handled.next = .ok none) (conn : handled.conn = none) (whole : sent ++ handled.sent = responseTo site request.path)

theorem proceeds_handles (site : Site) (socket : Socket) (stage : StageId) (io : Io) (received sent : Bytes) (handled : Handled)
    (proceeds : Proceeds site socket stage received sent handled) :
    Handles site socket stage io received sent handled ∧ ∀ fault, handled.next ≠ .error fault := by
  cases proceeds with
  | moves queue gauge after output next conn posture =>
      exact ⟨.moves queue gauge after next conn posture, fun fault error => by cases next.symm.trans error⟩
  | delivers request n output parse next conn whole =>
      exact ⟨.delivers request n parse next conn whole, fun fault error => by cases next.symm.trans error⟩

theorem handles_proceeds (site : Site) (socket : Socket) (stage queue : StageId) (gauge : String) (io : Io) (received sent : Bytes)
    (handled : Handled) (handles : Handles site socket stage io received sent handled) (output : stage.output = some queue)
    (next : handled.next = .ok (some (queue, gauge))) : Proceeds site socket stage received sent handled := by
  cases handles with
  | moves queue' gauge' after goes left posture =>
      obtain ⟨rfl, rfl⟩ := Prod.mk.inj (Option.some.inj (Except.ok.inj (goes.symm.trans next)))
      exact .moves queue' gauge' after output next left posture
  | rejects reason after ends => cases ends.symm.trans next
  | delivers request n parse ends => cases ends.symm.trans next
  | severs request n parse ends => cases ends.symm.trans next
  | unwinds fault ends => cases ends.symm.trans next

theorem parse_proceeds (site : Site) (socket : Socket) (io : Io) (received sent : Bytes) (conn : ConnState)
    (metrics : MetricsCollector) (posture : Posture site socket .parse received sent conn) (obliging : Obliging .parse io conn) :
    Proceeds site socket .parse received sent (parseStage io conn metrics) := by
  obtain ⟨request, n, parsed⟩ := obliging
  refine handles_proceeds site socket .parse .route "route" io received sent _
    (parse_handles site socket io received sent conn metrics posture) rfl ?_
  cases posture
  simp only [parseStage, ConnState.new, Option.isSome_some, if_true, read_appends, parsed]

theorem net_out_proceeds (site : Site) (socket : Socket) (io : Io) (received sent : Bytes) (conn : ConnState)
    (metrics : MetricsCollector) (posture : Posture site socket .netOut received sent conn) (obliging : Obliging .netOut io conn) :
    Proceeds site socket .netOut received sent (netOutStage io conn metrics) := by
  obtain ⟨bytes, written, accepted, whole⟩ := obliging
  have stream : conn.stream.isSome = true := by rw [posture_stream _ _ _ _ _ _ posture, Option.isSome_some]
  have handled : netOutStage io conn metrics = ⟨.ok none, none, metrics.decTotalConns, [], bytes⟩ := by
    simp only [netOutStage, stream, if_true, accepted, if_pos whole]
  have handles := net_out_handles site socket io received sent conn metrics posture
  rw [handled] at handles ⊢
  cases handles with
  | moves queue gauge after next => cases next
  | rejects reason after next left => cases left
  | delivers request n parse next left whole => exact .delivers request n rfl parse rfl rfl whole
  | severs request n parse next left part out error =>
      -- The error would be one of the same call.
      cases posture with
      | sending _ request' n' count parse' within =>
          obtain ⟨e, error⟩ := error
          obtain rfl : request = request' := by
            rw [List.append_nil, parse'] at parse
            exact (Prod.mk.inj (Except.ok.inj (Except.ok.inj parse))).1.symm
          rw [List.length_take, Nat.min_eq_left within] at error
          cases accepted.symm.trans error
  | unwinds fault next => cases next

-- Its id left the stage for the next, or for good.
structure Passed (site : Site) (p p' : Pipeline) (stage : StageId) (id : ConnId) : Prop where
  ids : p'.ids = stage.output.elim p.ids fun queue => Placement.enter queue id p.ids
  roomy : p'.Roomy
  others : ∀ other, other ≠ id → p'.slab.get other = p.slab.get other
  served : ∀ socket, p.Serving site socket ∨ p.Delivered site socket → p'.Serving site socket ∨ p'.Delivered site socket

theorem push_enters (site : Site) (p : Pipeline) (queue : StageId) (gauge : Option String) (id : ConnId)
    (roster : Roster site refusals p (some id)) (within : id < p.slab.capacity) (roomy : p.Roomy) :
    ∃ p', p.push queue gauge id = .ok p' ∧ p'.ids = Placement.enter queue id p.ids ∧ p'.slab = p.slab ∧ p'.log = p.log ∧ p'.Roomy := by
  have room := room_left site p queue id roster within
  have wide := roomy queue
  have short : (p.queues queue).contents.length ≠ (p.queues queue).capacity - 1 := by
    rw [Pipeline.ids] at room
    omega
  obtain ⟨longer, stored, contents, capacity⟩ := push_room (p.queues queue) id (by omega) short
  refine ⟨{ p with queues := update p.queues queue longer, metrics := gauge.elim p.metrics p.metrics.incQueueLen },
    by simp only [Pipeline.push, stored], pushed_ids p queue longer _ id contents, rfl, rfl, fun other => ?_⟩
  by_cases same : other = queue
  · subst same
    simp only [Function.update_self, capacity]
    exact roomy other
  · simp only [Function.update_of_ne same]
    exact roomy other

theorem with_conn_passed (site : Site) (p : Pipeline) (stage : StageId) (io : Io) (id : ConnId) (conn : ConnState) (socket : Socket)
    (body : ConnState → MetricsCollector → Handled) (roster : Roster site refusals p (some id)) (roomy : p.Roomy)
    (holds : p.Holds socket id conn)
    (proceeds : Proceeds site socket stage (receivedOn socket p.log) (sentOn socket p.log) (body conn p.metrics)) :
    ∃ p', p.withConn stage io id body = .ok p' ∧ Passed site p p' stage id := by
  obtain ⟨handles, returns⟩ := proceeds_handles site socket stage io _ _ _ proceeds
  have stored := store_stored p stage io id conn (body conn p.metrics) roster.whole holds.1
  have kept := store_roster site p stage io id conn socket (body conn p.metrics) roster holds handles returns
  obtain ⟨got, gave⟩ := store_history p stage io id conn socket (body conn p.metrics) holds.2
  have passes := fun other => store_passes site p stage io id conn socket other _ roster holds handles returns
  have roomy' : (p.store stage io id conn (body conn p.metrics)).Roomy := fun queue => stored.capacity ▸ roomy queue
  have elsewhere (other : Socket) (differ : socket ≠ other) (before : p.Serving site other ∨ p.Delivered site other) :
      Pipeline.Serving site (p.store stage io id conn (body conn p.metrics)) other ∨
        Pipeline.Delivered site (p.store stage io id conn (body conn p.metrics)) other :=
    before.imp (serving_kept site p _ other (passes other differ)) (delivered_kept site p _ other (passes other differ))
  simp only [Pipeline.withConn, holds.1]
  cases proceeds with
  | moves queue gauge after output next left posture =>
      rw [← got, ← gave] at posture
      have within := get_within _ id after (stored.here.trans left)
      obtain ⟨p', pushed, ids, slab, log, wide⟩ := push_enters site _ queue (some gauge) id kept within roomy'
      refine ⟨p', by simp only [next, pushed], ?_, wide, fun other differ => slab ▸ stored.others other differ, fun other before => ?_⟩
      · rw [output]
        exact ids
      · have same := passes_same (p.store stage io id conn (body conn p.metrics)) p' other slab log
        refine Or.imp (serving_kept site _ p' other same) (delivered_kept site _ p' other same) ?_
        by_cases mine : socket = other
        · subst mine
          exact .inl ⟨id, after, queue, stored.here.trans left, posture⟩
        · exact elsewhere other mine before
  | delivers request n output parse next left whole =>
      refine ⟨_, by simp only [next], ?_, roomy', stored.others, fun other before => ?_⟩
      · rw [output]
        rfl
      · by_cases mine : socket = other
        · subst mine
          rw [← got] at parse
          refine .inr ⟨request, n, ?_, parse, gave.trans whole⟩
          rintro i x ⟨there, stream⟩
          by_cases same : i = id
          · subst same
            cases (stored.here.trans left).symm.trans there
          · exact same (roster.homes i id x conn socket ⟨(stored.others i same).symm.trans there, stream⟩ holds)
        · exact elsewhere other mine before

def Pipeline.serve (site : Site) : StageId → Io → ConnId → Pipeline → Except Fault Pipeline
  | .parse => parseServe
  | .route => routeServe
  | .app => appServe site
  | .encode => encodeServe
  | .netOut => netOutServe

theorem serve_serves (site : Site) (stage : StageId) : Serves site refusals stage (Pipeline.serve site stage) := by
  cases stage with
  | parse => exact parse_serves site
  | route => exact route_serves site
  | app => exact app_serves site
  | encode => exact encode_serves site
  | netOut => exact net_out_serves site

theorem serve_passed (site : Site) (p : Pipeline) (stage : StageId) (io : Io) (id : ConnId) (conn : ConnState)
    (roster : Roster site refusals p (some id)) (roomy : p.Roomy) (stands : p.Stands site stage id) (found : p.slab.get id = some conn)
    (obliging : Obliging stage io conn) : ∃ p', Pipeline.serve site stage io id p = .ok p' ∧ Passed site p p' stage id := by
  obtain ⟨conn', socket, there, posture⟩ := stands
  obtain rfl := Option.some.inj (found.symm.trans there)
  have holds : p.Holds socket id conn := ⟨found, posture_stream _ _ _ _ _ _ posture⟩
  cases stage with
  | parse =>
      exact with_conn_passed site p .parse io id conn socket (parseStage io) roster roomy holds
        (parse_proceeds site socket io _ _ conn p.metrics posture obliging)
  | route =>
      exact with_conn_passed site p .route io id conn socket routeStage roster roomy holds
        (handles_proceeds site socket .route .app "app" io _ _ _ (route_handles site socket io _ _ conn p.metrics posture) rfl rfl)
  | app =>
      exact with_conn_passed site p .app io id conn socket (appStage site) roster roomy holds
        (handles_proceeds site socket .app .encode "net_out" io _ _ _ (app_handles site socket io _ _ conn p.metrics posture) rfl rfl)
  | netOut =>
      exact with_conn_passed site p .netOut io id conn socket (netOutStage io) roster roomy holds
        (net_out_proceeds site socket io _ _ conn p.metrics posture obliging)
  | encode =>
      obtain ⟨p', pushed, ids, slab, log, wide⟩ :=
        push_enters site p .netOut none id roster (get_within p.slab id conn found) roomy
      refine ⟨p', pushed, ids, wide, fun other _ => by rw [slab], fun other before => ?_⟩
      have same := passes_same p p' other slab log
      exact before.imp (serving_kept site p p' other same) (delivered_kept site p p' other same)

-- What a stage's loop has done for as many turns.
structure Worked (site : Site) (p p' : Pipeline) (stage : StageId) (turns : Nat) : Prop where
  here : (p'.ids stage).length = (p.ids stage).length - turns
  next : ∀ queue, stage.output = some queue → (p'.ids queue).length = (p.ids queue).length + min turns (p.ids stage).length
  elsewhere : ∀ queue, queue ≠ stage → stage.output ≠ some queue → p'.ids queue = p.ids queue
  roomy : p'.Roomy
  served : ∀ socket, p.Serving site socket ∨ p.Delivered site socket → p'.Serving site socket ∨ p'.Delivered site socket

theorem output_differs (stage queue : StageId) (output : stage.output = some queue) : queue ≠ stage := by
  rintro rfl
  cases queue <;> cases output

theorem idle_worked (site : Site) (p : Pipeline) (stage : StageId) (turns : Nat) (roomy : p.Roomy)
    (idle : turns = 0 ∨ p.ids stage = []) : Worked site p p stage turns := by
  have none : min turns (p.ids stage).length = 0 := by
    rcases idle with rfl | empty
    · exact Nat.zero_min _
    · rw [empty, List.length_nil, Nat.min_zero]
  exact ⟨by omega, fun queue _ => by rw [none, Nat.add_zero], fun _ _ _ => rfl, roomy, fun _ before => before⟩

theorem turn_worked (site : Site) (p taken middle p' : Pipeline) (stage : StageId) (id : ConnId) (rest : List ConnId) (turns : Nat)
    (front : p.ids stage = id :: rest) (ids : taken.ids = Placement.leave stage p.ids) (slab : taken.slab = p.slab)
    (log : taken.log = p.log) (passed : Passed site taken middle stage id) (worked : Worked site middle p' stage turns) :
    Worked site p p' stage (turns + 1) := by
  have left : (middle.ids stage).length = (p.ids stage).length - 1 := by
    have stays : middle.ids stage = Placement.leave stage p.ids stage := by
      rw [passed.ids, ids]
      cases output : stage.output with
      | none => rfl
      | some queue => exact Function.update_of_ne (Ne.symm (output_differs stage queue output)) _ _
    rw [stays, Placement.leave, Function.update_self, List.length_tail]
  have first : (p.ids stage).length = rest.length + 1 := by rw [front, List.length_cons]
  refine ⟨?_, fun queue output => ?_, fun queue differ other => ?_, worked.roomy, fun socket before => worked.served socket ?_⟩
  · rw [worked.here, left]
    omega
  · have gained : (middle.ids queue).length = (p.ids queue).length + 1 := by
      rw [passed.ids, output, Option.elim_some, Placement.enter, Function.update_self, ids,
        Placement.leave_elsewhere stage queue p.ids (output_differs stage queue output), List.length_append, List.length_singleton]
    rw [worked.next queue output, gained, left]
    omega
  · rw [worked.elsewhere queue differ other, passed.ids, ids]
    cases output : stage.output with
    | none => exact Placement.leave_elsewhere stage queue p.ids differ
    | some next =>
        have apart : queue ≠ next := fun same => other (same ▸ output)
        exact (Function.update_of_ne apart _ _).trans (Placement.leave_elsewhere stage queue p.ids differ)
  · have same := passes_same p taken socket slab log
    exact passed.served socket (before.imp (serving_kept site p taken socket same) (delivered_kept site p taken socket same))

theorem take_roomy (p : Pipeline) (stage : StageId) (queue : RingQueue) (gauge : Option String) (roomy : p.Roomy)
    (capacity : queue.capacity = (p.queues stage).capacity) : (p.take stage queue gauge).Roomy := by
  intro other
  have room := roomy other
  by_cases same : other = stage
  · subst same
    simpa [Pipeline.take, capacity] using room
  · simpa [Pipeline.take, Function.update_of_ne same] using room

theorem loop_worked (site : Site) (stage : StageId) (gauge : Option String) (ios : List Io) (p : Pipeline)
    (roster : Roster site refusals p none) (roomy : p.Roomy)
    (obliging : ∀ (k : Nat) io id conn, ios[k]? = some io → (p.ids stage)[k]? = some id → p.slab.get id = some conn →
      Obliging stage io conn) :
    ∃ p', (p.loop stage gauge (Pipeline.serve site stage) ios).result = .ok p' ∧ Worked site p p' stage ios.length := by
  induction ios generalizing p with
  | nil => exact ⟨p, rfl, idle_worked site p stage 0 roomy (.inl rfl)⟩
  | cons io later ih =>
      cases contents : p.ids stage with
      | nil =>
          refine ⟨p, ?_, idle_worked site p stage _ roomy (.inr contents)⟩
          simp only [Pipeline.loop, pop_empty _ contents, Function.update_eq_self]
      | cons id rest =>
          obtain ⟨queue, popped, shorter, capacity⟩ := roster_front site p stage id rest roster contents
          have front : p.ids stage = id :: queue.contents := shorter ▸ contents
          obtain ⟨inHand, stands⟩ := take_roster site p stage queue gauge id roster front capacity
          have ids := take_ids p stage queue gauge id front
          obtain ⟨conn, socket, found, posture⟩ := stands
          obtain ⟨middle, served, passed⟩ := serve_passed site _ stage io id conn inHand (take_roomy p stage queue gauge roomy capacity)
            ⟨conn, socket, found, posture⟩ found (obliging 0 io id conn rfl (by rw [contents]; rfl) found)
          have kept := serve_serves site stage io id _ middle inHand ⟨conn, socket, found, posture⟩ served
          have waits : middle.ids stage = rest := by
            rw [passed.ids, ids]
            cases output : stage.output with
            | none => rw [Option.elim_none, Placement.leave, Function.update_self, contents, List.tail_cons]
            | some next =>
                rw [Option.elim_some, Placement.enter, Function.update_of_ne (Ne.symm (output_differs stage next output)),
                  Placement.leave, Function.update_self, contents, List.tail_cons]
          obtain ⟨p', looped, worked⟩ := ih middle kept passed.roomy fun k io' id' conn' there queued held => by
            rw [waits] at queued
            have distinct := roster.apart.each stage
            rw [contents, List.map_id, List.nodup_cons] at distinct
            have other : id' ≠ id := fun same => distinct.1 (same ▸ List.mem_of_getElem? queued)
            refine obliging (k + 1) io' id' conn' there (by rw [contents]; exact queued) ?_
            exact (passed.others id' other).symm.trans held
          refine ⟨p', ?_, turn_worked site p _ middle p' stage id rest _ contents ids rfl rfl passed worked⟩
          simp only [Pipeline.loop, popped, served]
          exact looped

-- Each peer whose connection the call serves is obliging.
def Pipeline.Obliged (p : Pipeline) : StageCall → Prop
  | .netIn _ => True
  | .process stage ios => ∀ turn id conn, turn < 100 → (p.ids stage)[turn]? = some id → p.slab.get id = some conn →
      Obliging stage (ios turn) conn

theorem call_worked (site : Site) (p : Pipeline) (stage : StageId) (ios : Nat → Io) (roster : Roster site refusals p none)
    (roomy : p.Roomy) (obliged : p.Obliged (.process stage ios)) :
    ∃ p', p.step site (.process stage ios) = some p' ∧ Roster site refusals p' none ∧ Worked site p p' stage 100 := by
  have each : ∀ (k : Nat) io id conn, (turns ios)[k]? = some io → (p.ids stage)[k]? = some id → p.slab.get id = some conn →
      Obliging stage io conn := by
    intro k io id conn there queued found
    rw [turns, List.getElem?_map, Option.map_eq_some_iff] at there
    obtain ⟨turn, ranged, rfl⟩ := there
    obtain ⟨within, same⟩ := List.getElem?_eq_some_iff.mp ranged
    rw [List.getElem_range] at same
    subst same
    exact obliged k id conn (by rwa [List.length_range] at within) queued found
  have loops (gauge : Option String) := loop_worked site stage gauge (turns ios) p roster roomy each
  have long : (turns ios).length = 100 := by rw [turns, List.length_map, List.length_range]
  rw [long] at loops
  have returned (result : Except Fault Pipeline) (same : (p.round site (.process stage ios)).result = result) :
      p.step site (.process stage ios) = result.toOption := congrArg Except.toOption same
  have stepped : ∃ p', p.step site (.process stage ios) = some p' ∧ Worked site p p' stage 100 := by
    cases stage with
    | encode =>
        obtain ⟨p', looped, worked⟩ := loops none
        exact ⟨p', returned _ looped, worked⟩
    | _ =>
        obtain ⟨p', looped, worked⟩ := loops (some _)
        exact ⟨p', returned _ looped, worked⟩
  obtain ⟨p', taken, worked⟩ := stepped
  exact ⟨p', taken, step_roster site p p' _ roster taken, worked⟩

-- Each call of a run finds obliging peers in the state it is taken in.
def ObligedAlong (site : Site) (p : Pipeline) (calls : List StageCall) : Prop :=
  ∀ before call middle, before ++ [call] <+: calls → execute (Pipeline.step site) p before = some middle → middle.Obliged call

theorem obliged_first (site : Site) (p : Pipeline) (call : StageCall) (later : List StageCall)
    (obliged : ObligedAlong site p (call :: later)) : p.Obliged call :=
  obliged [] call p (List.prefix_append [call] later) rfl

theorem obliged_later (site : Site) (p p' : Pipeline) (call : StageCall) (later : List StageCall)
    (obliged : ObligedAlong site p (call :: later)) (taken : p.step site call = some p') : ObligedAlong site p' later := by
  intro before next middle within reached
  refine obliged (call :: before) next middle (List.cons_prefix_cons.mpr ⟨rfl, within⟩) ?_
  rw [execute, taken]
  exact reached

-- Each stage once, in the order of the pipeline.
def lap (ios : StageId → Nat → Io) : List StageCall := StageId.all.map fun stage => .process stage (ios stage)

def Pipeline.load (p : Pipeline) : Nat := (StageId.all.flatMap p.ids).length

theorem load_sum (p : Pipeline) : p.load = (p.ids .parse).length + ((p.ids .route).length + ((p.ids .app).length +
    ((p.ids .encode).length + (p.ids .netOut).length))) := by
  simp only [Pipeline.load, StageId.all, List.flatMap_cons, List.flatMap_nil, List.append_nil, List.length_append]

theorem lap_lightens (site : Site) (p : Pipeline) (ios : StageId → Nat → Io) (later : List StageCall)
    (roster : Roster site refusals p none) (roomy : p.Roomy) (obliged : ObligedAlong site p (lap ios ++ later)) :
    ∃ p', execute (Pipeline.step site) p (lap ios ++ later) = execute (Pipeline.step site) p' later ∧ Roster site refusals p' none ∧
      p'.Roomy ∧ ObligedAlong site p' later ∧ p'.load = p.load - 100 ∧
      ∀ socket, p.Serving site socket ∨ p.Delivered site socket → p'.Serving site socket ∨ p'.Delivered site socket := by
  obtain ⟨p₁, parse, roster₁, worked₁⟩ := call_worked site p .parse _ roster roomy (obliged_first site p _ _ obliged)
  have obliged₁ := obliged_later site p p₁ _ _ obliged parse
  obtain ⟨p₂, route, roster₂, worked₂⟩ := call_worked site p₁ .route _ roster₁ worked₁.roomy (obliged_first site p₁ _ _ obliged₁)
  have obliged₂ := obliged_later site p₁ p₂ _ _ obliged₁ route
  obtain ⟨p₃, app, roster₃, worked₃⟩ := call_worked site p₂ .app _ roster₂ worked₂.roomy (obliged_first site p₂ _ _ obliged₂)
  have obliged₃ := obliged_later site p₂ p₃ _ _ obliged₂ app
  obtain ⟨p₄, encode, roster₄, worked₄⟩ := call_worked site p₃ .encode _ roster₃ worked₃.roomy (obliged_first site p₃ _ _ obliged₃)
  have obliged₄ := obliged_later site p₃ p₄ _ _ obliged₃ encode
  obtain ⟨p₅, netOut, roster₅, worked₅⟩ := call_worked site p₄ .netOut _ roster₄ worked₄.roomy (obliged_first site p₄ _ _ obliged₄)
  refine ⟨p₅, ?_, roster₅, worked₅.roomy, obliged_later site p₄ p₅ _ _ obliged₄ netOut, ?_, fun socket before => ?_⟩
  · simp only [lap, StageId.all, List.map_cons, List.map_nil, List.cons_append, List.nil_append, execute, parse, route, app, encode,
      netOut, Option.bind_some]
  · -- Ids that a lap passes over stand behind a hundred others.
    have fromParse := worked₁.next .route rfl
    have fromRoute := worked₂.next .app rfl
    have fromApp := worked₃.next .encode rfl
    have fromEncode := worked₄.next .netOut rfl
    have atParse := worked₁.here
    have atRoute := worked₂.here
    have atApp := worked₃.here
    have atEncode := worked₄.here
    have atNetOut := worked₅.here
    rw [worked₁.elsewhere .app (by decide) (by decide)] at fromRoute
    rw [worked₂.elsewhere .encode (by decide) (by decide), worked₁.elsewhere .encode (by decide) (by decide)] at fromApp
    rw [worked₃.elsewhere .netOut (by decide) (by decide), worked₂.elsewhere .netOut (by decide) (by decide),
      worked₁.elsewhere .netOut (by decide) (by decide)] at fromEncode
    rw [load_sum, load_sum, worked₅.elsewhere .parse (by decide) (by decide), worked₄.elsewhere .parse (by decide) (by decide),
      worked₃.elsewhere .parse (by decide) (by decide), worked₂.elsewhere .parse (by decide) (by decide),
      worked₅.elsewhere .route (by decide) (by decide), worked₄.elsewhere .route (by decide) (by decide),
      worked₃.elsewhere .route (by decide) (by decide), worked₅.elsewhere .app (by decide) (by decide),
      worked₄.elsewhere .app (by decide) (by decide), worked₅.elsewhere .encode (by decide) (by decide)]
    omega
  · exact worked₅.served _ (worked₄.served _ (worked₃.served _ (worked₂.served _ (worked₁.served _ before))))

theorem laps_lighten (site : Site) (p : Pipeline) (laps : List (StageId → Nat → Io)) (roster : Roster site refusals p none)
    (roomy : p.Roomy) (obliged : ObligedAlong site p (laps.flatMap lap)) :
    ∃ p', execute (Pipeline.step site) p (laps.flatMap lap) = some p' ∧ Roster site refusals p' none ∧ p'.Roomy ∧
      p'.load = p.load - 100 * laps.length ∧
      ∀ socket, p.Serving site socket ∨ p.Delivered site socket → p'.Serving site socket ∨ p'.Delivered site socket := by
  induction laps generalizing p with
  | nil => exact ⟨p, rfl, roster, roomy, rfl, fun _ before => before⟩
  | cons ios later ih =>
      rw [List.flatMap_cons] at obliged ⊢
      obtain ⟨middle, onward, kept, wide, rest, lighter, served⟩ := lap_lightens site p ios _ roster roomy obliged
      obtain ⟨p', executed, last, roomy', load, served'⟩ := ih middle kept wide rest
      refine ⟨p', onward.trans executed, last, roomy', ?_, fun socket before => served' socket (served socket before)⟩
      rw [load, lighter, List.length_cons]
      omega

theorem served_clients_delivered (site : Site) (config : PipelineConfig) (p : Pipeline) (laps : List (StageId → Nat → Io))
    (roomy : config.Roomy) (run : Run (Pipeline.step site) anyStep (.new config) p) (enough : p.load ≤ 100 * laps.length)
    (obliged : ObligedAlong site p (laps.flatMap lap)) :
    ∃ p', execute (Pipeline.step site) p (laps.flatMap lap) = some p' ∧ (∀ stage, p'.ids stage = []) ∧
      ∀ socket, p.Serving site socket → p'.Delivered site socket := by
  have wide := run_roomy site config p roomy run
  obtain ⟨_, start⟩ := run_roster site config p run
  obtain ⟨p', executed, roster, roomy', load, served⟩ := laps_lighten site p laps start wide obliged
  have empty (stage : StageId) : p'.ids stage = [] := by
    have zero : p'.load = 0 := by omega
    have none : StageId.all.flatMap p'.ids = [] := List.eq_nil_of_length_eq_zero zero
    exact List.flatMap_eq_nil_iff.mp none stage (by cases stage <;> decide)
  refine ⟨p', executed, empty, fun socket serving => (served socket (.inl serving)).resolve_left ?_⟩
  rintro ⟨id, conn, stage, found, posture⟩
  obtain ⟨other, member⟩ := (roster.placed roomy' id conn found (posture_open _ _ _ _ _ _ posture)).resolve_left nofun
  rw [empty] at member
  cases member

theorem obliged_nil (site : Site) (p : Pipeline) : ObligedAlong site p [] := by
  intro before call middle within
  have short := within.length_le
  rw [List.length_append, List.length_singleton, List.length_nil] at short
  omega

theorem obliged_cons (site : Site) (p p' : Pipeline) (call : StageCall) (later : List StageCall) (first : p.Obliged call)
    (taken : p.step site call = some p') (rest : ObligedAlong site p' later) : ObligedAlong site p (call :: later) := by
  intro before next middle within reached
  cases before with
  | nil =>
      obtain ⟨rfl, _⟩ := List.cons_prefix_cons.mp within
      exact Option.some.inj reached ▸ first
  | cons head before =>
      obtain ⟨rfl, inside⟩ := List.cons_prefix_cons.mp within
      rw [execute, taken] at reached
      exact rest before next middle inside reached

theorem obliged_one (p : Pipeline) (stage : StageId) (ios : Nat → Io) (id : ConnId) (conn : ConnState) (ids : p.ids stage = [id])
    (found : p.slab.get id = some conn) (obliging : Obliging stage (ios 0) conn) : p.Obliged (.process stage ios) := by
  intro turn id' conn' _ queued held
  rw [ids, List.getElem?_singleton] at queued
  split at queued
  · rename_i first
    obtain rfl := Option.some.inj queued
    obtain rfl := Option.some.inj (held.symm.trans found)
    exact first ▸ obliging
  · cases queued

def waitingClient : Pipeline := ((Pipeline.new oneQueue).step plainSite (.netIn 1)).getD (.new oneQueue)

def promptPeer : StageId → Nat → Io
  | .parse, _ => readOnce "GET / HTTP/1.1\r\na:b\r\n\r\n"
  | _, _ => ⟨[], [.accepted 1000]⟩

set_option maxRecDepth 4000 in
theorem waiting_client_delivered : ∃ p', execute (Pipeline.step plainSite) waitingClient ([promptPeer].flatMap lap) = some p' ∧
    (∀ stage, p'.ids stage = []) ∧ p'.Delivered plainSite 0 := by
  have obliged : ObligedAlong plainSite waitingClient ([promptPeer].flatMap lap) := by
    refine obliged_cons plainSite _ _ _ _ (obliged_one _ .parse _ 0 _ rfl rfl ⟨_, _, rfl⟩) rfl ?_
    refine obliged_cons plainSite _ _ _ _ (obliged_one _ .route _ 0 _ rfl rfl trivial) rfl ?_
    refine obliged_cons plainSite _ _ _ _ (obliged_one _ .app _ 0 _ rfl rfl trivial) rfl ?_
    refine obliged_cons plainSite _ _ _ _ (obliged_one _ .encode _ 0 _ rfl rfl trivial) rfl ?_
    refine obliged_cons plainSite _ _ _ _ (obliged_one _ .netOut _ 0 _ rfl rfl ⟨_, _, rfl, by decide⟩) rfl ?_
    exact obliged_nil plainSite _
  obtain ⟨p', executed, empty, delivered⟩ := served_clients_delivered plainSite oneQueue waitingClient [promptPeer]
    (fun _ => Nat.lt_succ_self 1) (Runs.execute_run _ _ _ [.netIn 1] .start rfl) (by decide) obliged
  exact ⟨p', executed, empty, delivered 0 ⟨0, _, .parse, rfl, .waiting [] parse_empty⟩⟩

end Ners.Server
