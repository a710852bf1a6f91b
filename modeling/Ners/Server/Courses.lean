import Ners.Server.PipelineGauges
import Ners.Server.Postures

set_option autoImplicit false

namespace Ners.Server

open Function (update)
open Placement (Apart)
open Runs (Run anyStep execute)

def Pipeline.Gone (p : Pipeline) (socket : Socket) : Prop := ∀ id conn, ¬ p.Holds socket id conn

-- In a visit of net_out write_all returned an error, at the offset that the
-- bytes sent before it make.
def Severed (response : Bytes) (socket : Socket) (log : List Visit) : Prop :=
  ∃ before visit after, log = before ++ visit :: after ∧ visit.socket = socket ∧ visit.stage = .netOut ∧
    ∃ sent e, writeAll visit.io response (sentOn socket before).length = .ok (sent, .error e)

-- The connection of a socket is at work in a slot.
def Pipeline.Serving (site : Site) (p : Pipeline) (socket : Socket) : Prop :=
  ∃ id conn stage, p.slab.get id = some conn ∧ Posture site socket stage (receivedOn socket p.log) (sentOn socket p.log) conn

def Pipeline.Delivered (site : Site) (p : Pipeline) (socket : Socket) : Prop :=
  ∃ request n, p.Gone socket ∧ Http.parse (receivedOn socket p.log) = .ok (.ok (request, n)) ∧
    sentOn socket p.log = responseTo site request.path

-- No slot, and no byte to or from the socket.
structure Pipeline.Unhoused (p : Pipeline) (socket : Socket) : Prop where
  gone : p.Gone socket
  unread : receivedOn socket p.log = []
  unsent : sentOn socket p.log = []

-- What has become of a connection that was taken up, in a run whose refused
-- streams are listed.
inductive Course (site : Site) (refusals : List Socket) (p : Pipeline) (socket : Socket) : Prop where
  | refused (listed : socket ∈ refusals) (unhoused : p.Unhoused socket)
  | held (serving : p.Serving site socket)
  | rejected (id : ConnId) (conn : ConnState) (reason : String) (holds : p.Holds socket id conn) (closed : conn.state = .closed)
      (parse : Http.parse (receivedOn socket p.log) = .ok (.error (.invalid reason))) (unsent : sentOn socket p.log = [])
  | delivered (whole : p.Delivered site socket)
  | severed (request : Http.HttpRequest) (n : Nat) (gone : p.Gone socket)
      (parse : Http.parse (receivedOn socket p.log) = .ok (.ok (request, n)))
      (part : sentOn socket p.log <+: responseTo site request.path)
      (error : Severed (responseTo site request.path) socket p.log)

def Pipeline.ids (p : Pipeline) (stage : StageId) : List ConnId := (p.queues stage).contents

def Pipeline.Roomy (p : Pipeline) : Prop := ∀ stage, p.slab.capacity < (p.queues stage).capacity

def Pipeline.Stands (site : Site) (p : Pipeline) (stage : StageId) (id : ConnId) : Prop :=
  ∃ conn socket, p.slab.get id = some conn ∧ Posture site socket stage (receivedOn socket p.log) (sentOn socket p.log) conn

-- The invariant, with the id that the loop at work has in hand.
structure Roster (site : Site) (refusals : List Socket) (p : Pipeline) (hand : Option ConnId) : Prop where
  word : p.slab.capacity < 2 ^ 64
  whole : p.slab.Exact
  apart : Apart id p.ids
  homes : ∀ i j x y socket, p.Holds socket i x → p.Holds socket j y → i = j
  known : ∀ i x, p.slab.get i = some x → ∃ socket, x.stream = some socket ∧ socket < p.accepted
  logged : ∀ visit ∈ p.log, visit.socket < p.accepted
  queued : ∀ stage, ∀ i ∈ p.ids stage, p.Stands site stage i
  courses : ∀ socket, socket < p.accepted → Course site refusals p socket
  turned : ∀ socket ∈ refusals, socket < p.accepted ∧ p.Unhoused socket
  inHand : ∀ i, hand = some i → ∀ stage, i ∉ p.ids stage
  placed : p.Roomy → ∀ i x, p.slab.get i = some x → x.state ≠ .closed → hand = some i ∨ ∃ stage, i ∈ p.ids stage

variable {refusals : List Socket}

theorem severed_append (response : Bytes) (socket : Socket) (log more : List Visit) (severed : Severed response socket log) :
    Severed response socket (log ++ more) := by
  obtain ⟨before, visit, after, rfl, mine, out, error⟩ := severed
  exact ⟨before, visit, after ++ more, by simp, mine, out, error⟩

-- A step that leaves a socket's own slot alone, gives the socket to no other
-- and does not visit it.
structure Passes (p p' : Pipeline) (socket : Socket) : Prop where
  kept : ∀ i x, p.Holds socket i x → p'.slab.get i = some x
  old : ∀ i x, p'.Holds socket i x → ∃ j y, p.Holds socket j y
  received : receivedOn socket p'.log = receivedOn socket p.log
  sent : sentOn socket p'.log = sentOn socket p.log
  more : ∃ added, p'.log = p.log ++ added

theorem gone_kept (p p' : Pipeline) (socket : Socket) (passes : Passes p p' socket) (gone : p.Gone socket) : p'.Gone socket := by
  intro i x there
  obtain ⟨j, y, before⟩ := passes.old i x there
  exact gone j y before

theorem serving_kept (site : Site) (p p' : Pipeline) (socket : Socket) (passes : Passes p p' socket)
    (serving : p.Serving site socket) : p'.Serving site socket := by
  obtain ⟨id, conn, stage, found, posture⟩ := serving
  rw [← passes.received, ← passes.sent] at posture
  exact ⟨id, conn, stage, passes.kept id conn ⟨found, posture_stream _ _ _ _ _ _ posture⟩, posture⟩

theorem delivered_kept (site : Site) (p p' : Pipeline) (socket : Socket) (passes : Passes p p' socket)
    (whole : p.Delivered site socket) : p'.Delivered site socket := by
  obtain ⟨request, n, gone, parse, sent⟩ := whole
  rw [← passes.received] at parse
  exact ⟨request, n, gone_kept p p' socket passes gone, parse, passes.sent.trans sent⟩

theorem unhoused_kept (p p' : Pipeline) (socket : Socket) (passes : Passes p p' socket) (unhoused : p.Unhoused socket) :
    p'.Unhoused socket :=
  ⟨gone_kept p p' socket passes unhoused.gone, passes.received.trans unhoused.unread, passes.sent.trans unhoused.unsent⟩

theorem course_kept (site : Site) (p p' : Pipeline) (socket : Socket) (passes : Passes p p' socket)
    (course : Course site refusals p socket) : Course site refusals p' socket := by
  obtain ⟨added, log⟩ := passes.more
  cases course with
  | refused listed unhoused => exact .refused listed (unhoused_kept p p' socket passes unhoused)
  | held serving => exact .held (serving_kept site p p' socket passes serving)
  | rejected id conn reason holds closed parse unsent =>
      rw [← passes.received] at parse
      exact .rejected id conn reason ⟨passes.kept id conn holds, holds.2⟩ closed parse (passes.sent.trans unsent)
  | delivered whole => exact .delivered (delivered_kept site p p' socket passes whole)
  | severed request n gone parse part error =>
      rw [← passes.received] at parse
      rw [← passes.sent] at part
      exact .severed request n (gone_kept p p' socket passes gone) parse part (log ▸ severed_append _ _ _ added error)

theorem passes_same (p p' : Pipeline) (socket : Socket) (slab : p'.slab = p.slab) (log : p'.log = p.log) : Passes p p' socket := by
  refine ⟨fun i x there => slab ▸ there.1, fun i x there => ?_, by rw [log], by rw [log], ⟨[], by rw [log, List.append_nil]⟩⟩
  unfold Pipeline.Holds at there ⊢
  rw [slab] at there
  exact ⟨i, x, there⟩

theorem roster_queues (site : Site) (p p' : Pipeline) (hand hand' : Option ConnId) (roster : Roster site refusals p hand)
    (slab : p'.slab = p.slab) (log : p'.log = p.log) (accepted : p'.accepted = p.accepted) (apart : Apart id p'.ids)
    (queued : ∀ stage, ∀ i ∈ p'.ids stage, i ∈ p.ids stage ∨ p.Stands site stage i)
    (inHand : ∀ i, hand' = some i → ∀ stage, i ∉ p'.ids stage)
    (placed : p'.Roomy → ∀ i x, p.slab.get i = some x → x.state ≠ .closed → hand' = some i ∨ ∃ stage, i ∈ p'.ids stage) :
    Roster site refusals p' hand' := by
  have stands (stage : StageId) (i : ConnId) (there : p.Stands site stage i) : p'.Stands site stage i := by
    obtain ⟨conn, socket, found, posture⟩ := there
    exact ⟨conn, socket, slab ▸ found, log ▸ posture⟩
  refine ⟨slab ▸ roster.word, slab ▸ roster.whole, apart, ?_, ?_, ?_, fun stage i member => ?_, fun socket older => ?_,
    fun socket listed => ?_, inHand, ?_⟩
  · unfold Pipeline.Holds
    rw [slab]
    exact roster.homes
  · rw [slab, accepted]
    exact roster.known
  · rw [log, accepted]
    exact roster.logged
  · exact (queued stage i member).elim (fun old => stands stage i (roster.queued stage i old)) (stands stage i)
  · exact course_kept site p p' socket (passes_same p p' socket slab log) (roster.courses socket (accepted ▸ older))
  · obtain ⟨older, unhoused⟩ := roster.turned socket listed
    exact ⟨accepted ▸ older, unhoused_kept p p' socket (passes_same p p' socket slab log) unhoused⟩
  · rw [slab]
    exact placed

theorem take_ids (p : Pipeline) (stage : StageId) (queue : RingQueue) (gauge : Option String) (id : ConnId)
    (front : p.ids stage = id :: queue.contents) : (p.take stage queue gauge).ids = Placement.leave stage p.ids := by
  funext other
  rw [Placement.leave, front, List.tail_cons, Pipeline.ids, Pipeline.take]
  by_cases same : other = stage
  · subst same
    simp only [Function.update_self]
  · simp only [Function.update_of_ne same]
    rfl

theorem take_roster (site : Site) (p : Pipeline) (stage : StageId) (queue : RingQueue) (gauge : Option String) (id : ConnId)
    (roster : Roster site refusals p none) (front : p.ids stage = id :: queue.contents)
    (capacity : queue.capacity = (p.queues stage).capacity) :
    Roster site refusals (p.take stage queue gauge) (some id) ∧ (p.take stage queue gauge).Stands site stage id := by
  have ids := take_ids p stage queue gauge id front
  have gone (other : StageId) (i : ConnId) (member : i ∈ (p.take stage queue gauge).ids other) : i ≠ id :=
    Placement.left_apart _ stage other p.ids id i queue.contents front roster.apart (by rwa [ids] at member)
  refine ⟨roster_queues site p _ none (some id) roster rfl rfl rfl ?_ (fun other i member => .inl ?_) ?_ ?_,
    roster.queued stage id (front ▸ List.mem_cons_self)⟩
  · rw [ids]
    exact Placement.apart_leave _ stage p.ids roster.apart
  · rw [ids] at member
    exact Placement.mem_leave stage other p.ids i member
  · intro i same other member
    exact gone other i member (Option.some.inj same).symm
  · intro roomy i x found going
    by_cases mine : i = id
    · exact .inl (congrArg some mine.symm)
    · have roomy' : p.Roomy := fun other => by
        have room := roomy other
        by_cases same : other = stage
        · subst same
          rw [← capacity]
          simpa [Pipeline.take] using room
        · simpa [Pipeline.take, Function.update_of_ne same] using room
      obtain ⟨other, member⟩ := (roster.placed roomy' i x found going).resolve_left fun none => by cases none
      refine .inr ⟨other, ?_⟩
      rw [ids]
      exact Placement.stays_leave stage other p.ids id i queue.contents front member mine

theorem stands_within (site : Site) (p : Pipeline) (stage : StageId) (id : ConnId) (stands : p.Stands site stage id) :
    id < p.slab.capacity := by
  obtain ⟨conn, _, found, _⟩ := stands
  exact get_within p.slab id conn found

-- The ids in a queue and the one in hand are different slots.
theorem room_left (site : Site) (p : Pipeline) (queue : StageId) (id : ConnId) (roster : Roster site refusals p (some id))
    (within : id < p.slab.capacity) : (p.ids queue).length + 1 ≤ p.slab.capacity := by
  have distinct : (id :: p.ids queue).Nodup := by
    refine List.nodup_cons.mpr ⟨roster.inHand id rfl queue, ?_⟩
    have each := roster.apart.each queue
    rwa [List.map_id] at each
  have slots : id :: p.ids queue ⊆ List.range p.slab.capacity := by
    intro i member
    rw [List.mem_range]
    rcases List.mem_cons.mp member with rfl | queued
    · exact within
    · exact stands_within site p queue i (roster.queued queue i queued)
  have short := (List.subperm_of_subset distinct slots).length_le
  rwa [List.length_range, List.length_cons] at short

theorem pushed_ids (p : Pipeline) (queue : StageId) (longer : RingQueue) (metrics : MetricsCollector) (id : ConnId)
    (contents : longer.contents = p.ids queue ++ [id]) :
    Pipeline.ids { p with queues := update p.queues queue longer, metrics := metrics } = Placement.enter queue id p.ids := by
  funext other
  rw [Placement.enter, Pipeline.ids]
  by_cases same : other = queue
  · subst same
    simp only [Function.update_self]
    exact contents
  · simp only [Function.update_of_ne same]
    rfl

theorem push_roster (site : Site) (p p' : Pipeline) (queue : StageId) (gauge : Option String) (id : ConnId)
    (roster : Roster site refusals p (some id)) (stands : p.Stands site queue id) (pushed : p.push queue gauge id = .ok p') :
    Roster site refusals p' none := by
  rcases push_ok p p' queue gauge id pushed with ⟨full, rfl⟩ | ⟨_, longer, contents, capacity, rfl⟩
  · refine roster_queues site p' p' (some id) none roster rfl rfl rfl roster.apart (fun _ _ member => .inl member) nofun
      fun roomy _ _ _ _ => ?_
    have room := room_left site p' queue id roster (stands_within site p' queue id stands)
    have wide := roomy queue
    rw [Pipeline.ids] at room
    omega
  · have ids := pushed_ids p queue longer (gauge.elim p.metrics p.metrics.incQueueLen) id contents
    refine roster_queues site p _ (some id) none roster rfl rfl rfl ?_ (fun stage i member => ?_) nofun fun roomy i x found going => ?_
    · rw [ids]
      refine Placement.apart_enter _ queue id p.ids roster.apart fun stage i member same => ?_
      obtain rfl : i = id := same
      exact roster.inHand i rfl stage member
    · rw [ids] at member
      rcases Placement.mem_enter queue stage p.ids id i member with old | ⟨rfl, rfl⟩
      · exact .inl old
      · exact .inr stands
    · have roomy' : p.Roomy := fun other => by
        have room := roomy other
        by_cases same : other = queue
        · subst same
          rw [← capacity]
          simpa using room
        · simpa [Function.update_of_ne same] using room
      right
      rw [ids]
      rcases roster.placed roomy' i x found going with mine | ⟨stage, member⟩
      · obtain rfl := Option.some.inj mine
        refine ⟨queue, ?_⟩
        rw [Placement.enter, Function.update_self]
        exact List.mem_append_right _ List.mem_cons_self
      · exact ⟨stage, Placement.stays_enter queue stage p.ids id i member⟩

theorem release_roster (site : Site) (p : Pipeline) (id : ConnId) (roster : Roster site refusals p (some id))
    (ended : ∀ x, p.slab.get id = some x → x.state = .closed) : Roster site refusals p none := by
  refine roster_queues site p p (some id) none roster rfl rfl rfl roster.apart (fun _ _ member => .inl member) nofun
    fun roomy i x found going => ?_
  rcases roster.placed roomy i x found going with mine | queued
  · obtain rfl := Option.some.inj mine
    exact absurd (ended x found) going
  · exact .inr queued

-- A slab after a body's connection went back to its slot, or the slot was freed.
structure Stored (slab slab' : ConnSlab) (id : ConnId) (after : Option ConnState) : Prop where
  capacity : slab'.capacity = slab.capacity
  whole : slab'.Exact
  here : slab'.get id = after
  others : ∀ other, other ≠ id → slab'.get other = slab.get other

theorem store_stored (p : Pipeline) (stage : StageId) (io : Io) (id : ConnId) (conn : ConnState) (handled : Handled)
    (whole : p.slab.Exact) (found : p.slab.get id = some conn) :
    Stored p.slab (p.store stage io id conn handled).slab id handled.conn := by
  have within := get_within p.slab id conn found
  cases left : handled.conn with
  | none =>
      rw [Pipeline.store, left]
      exact ⟨remove_capacity p.slab id, remove_exact p.slab id conn found whole, remove_get_same p.slab id within,
        remove_get_other p.slab id⟩
  | some after =>
      rw [Pipeline.store, left]
      exact ⟨rfl, put_exact p.slab id conn after found whole, put_get_same p.slab id _ within,
        fun other differ => put_get_other p.slab id other _ differ⟩

theorem store_log (p : Pipeline) (stage : StageId) (io : Io) (id : ConnId) (conn : ConnState) (socket : Socket) (handled : Handled)
    (stream : conn.stream = some socket) :
    (p.store stage io id conn handled).log = p.log ++ [⟨socket, stage, io, handled.received, handled.sent⟩] := by
  rw [Pipeline.store, stream]
  rfl

theorem store_history (p : Pipeline) (stage : StageId) (io : Io) (id : ConnId) (conn : ConnState) (socket : Socket)
    (handled : Handled) (stream : conn.stream = some socket) :
    receivedOn socket (p.store stage io id conn handled).log = receivedOn socket p.log ++ handled.received ∧
      sentOn socket (p.store stage io id conn handled).log = sentOn socket p.log ++ handled.sent := by
  obtain ⟨_, got, gave⟩ := visit_here ⟨socket, stage, io, handled.received, handled.sent⟩
  rw [store_log p stage io id conn socket handled stream, received_append, sent_append]
  exact ⟨congrArg _ got, congrArg _ gave⟩

theorem handled_stream (site : Site) (socket : Socket) (stage : StageId) (io : Io) (received sent : Bytes) (handled : Handled)
    (x : ConnState) (handles : Handles site socket stage io received sent handled)
    (returns : ∀ fault, handled.next ≠ .error fault) (left : handled.conn = some x) : x.stream = some socket := by
  cases handles with
  | moves queue gauge after next conn posture =>
      obtain rfl := Option.some.inj (conn.symm.trans left)
      exact posture_stream _ _ _ _ _ _ posture
  | rejects reason after next conn stream closed parse unsent =>
      obtain rfl := Option.some.inj (conn.symm.trans left)
      exact stream
  | delivers request n parse next conn whole => cases conn.symm.trans left
  | severs request n parse next conn part out error => cases conn.symm.trans left
  | unwinds fault next => exact absurd next (returns fault)

-- What the visited connection has come to.
theorem handled_course (site : Site) (p : Pipeline) (stage : StageId) (io : Io) (id : ConnId) (conn : ConnState) (socket : Socket)
    (handled : Handled) (roster : Roster site refusals p (some id)) (holds : p.Holds socket id conn)
    (handles : Handles site socket stage io (receivedOn socket p.log) (sentOn socket p.log) handled)
    (returns : ∀ fault, handled.next ≠ .error fault) : Course site refusals (p.store stage io id conn handled) socket := by
  have stored := store_stored p stage io id conn handled roster.whole holds.1
  have log := store_log p stage io id conn socket handled holds.2
  obtain ⟨received, sent⟩ := store_history p stage io id conn socket handled holds.2
  have freed (none : handled.conn = none) : Pipeline.Gone (p.store stage io id conn handled) socket := by
    rintro i x ⟨there, stream⟩
    by_cases same : i = id
    · subst same
      cases (stored.here.trans none).symm.trans there
    · exact same (roster.homes i id x conn socket ⟨(stored.others i same).symm.trans there, stream⟩ holds)
  cases handles with
  | moves queue gauge after next left posture =>
      rw [← received, ← sent] at posture
      exact .held ⟨id, after, queue, stored.here.trans left, posture⟩
  | rejects reason after next left stream closed parse unsent =>
      rw [← received] at parse
      exact .rejected id after reason ⟨stored.here.trans left, stream⟩ closed parse (sent.trans unsent)
  | delivers request n parse next left whole =>
      rw [← received] at parse
      exact .delivered ⟨request, n, freed left, parse, sent.trans whole⟩
  | severs request n parse next left part out error =>
      rw [← received] at parse
      rw [← sent] at part
      obtain ⟨e, error⟩ := error
      exact .severed request n (freed left) parse part ⟨p.log, _, [], log, rfl, out, _, e, error⟩
  | unwinds fault next => exact absurd next (returns fault)

-- The connections in the slab are those of before, each on its own socket.
theorem store_before (site : Site) (p : Pipeline) (stage : StageId) (io : Io) (id : ConnId) (conn : ConnState) (socket : Socket)
    (handled : Handled) (roster : Roster site refusals p (some id)) (holds : p.Holds socket id conn)
    (handles : Handles site socket stage io (receivedOn socket p.log) (sentOn socket p.log) handled)
    (returns : ∀ fault, handled.next ≠ .error fault) (i : ConnId) (x : ConnState)
    (there : (p.store stage io id conn handled).slab.get i = some x) : ∃ y, p.slab.get i = some y ∧ y.stream = x.stream := by
  have stored := store_stored p stage io id conn handled roster.whole holds.1
  by_cases same : i = id
  · subst same
    have stream := handled_stream site socket stage io _ _ handled x handles returns (stored.here.symm.trans there)
    exact ⟨conn, holds.1, holds.2.trans stream.symm⟩
  · exact ⟨x, (stored.others i same).symm.trans there, rfl⟩

theorem store_passes (site : Site) (p : Pipeline) (stage : StageId) (io : Io) (id : ConnId) (conn : ConnState)
    (socket other : Socket) (handled : Handled) (roster : Roster site refusals p (some id)) (holds : p.Holds socket id conn)
    (handles : Handles site socket stage io (receivedOn socket p.log) (sentOn socket p.log) handled)
    (returns : ∀ fault, handled.next ≠ .error fault) (differ : socket ≠ other) :
    Passes p (p.store stage io id conn handled) other := by
  have stored := store_stored p stage io id conn handled roster.whole holds.1
  have log := store_log p stage io id conn socket handled holds.2
  obtain ⟨_, got, gave⟩ := visit_elsewhere other ⟨socket, stage, io, handled.received, handled.sent⟩ differ
  refine ⟨fun i x there => ?_, fun i x there => ?_, ?_, ?_, ⟨_, log⟩⟩
  · have apart : i ≠ id := by
      rintro rfl
      obtain rfl := Option.some.inj (there.1.symm.trans holds.1)
      exact differ (Option.some.inj (holds.2.symm.trans there.2))
    exact (stored.others i apart).trans there.1
  · obtain ⟨y, found, stream⟩ := store_before site p stage io id conn socket handled roster holds handles returns i x there.1
    exact ⟨i, y, found, stream.trans there.2⟩
  · rw [log, received_append, got, List.append_nil]
  · rw [log, sent_append, gave, List.append_nil]

theorem store_roster (site : Site) (p : Pipeline) (stage : StageId) (io : Io) (id : ConnId) (conn : ConnState) (socket : Socket)
    (handled : Handled) (roster : Roster site refusals p (some id)) (holds : p.Holds socket id conn)
    (handles : Handles site socket stage io (receivedOn socket p.log) (sentOn socket p.log) handled)
    (returns : ∀ fault, handled.next ≠ .error fault) : Roster site refusals (p.store stage io id conn handled) (some id) := by
  have stored := store_stored p stage io id conn handled roster.whole holds.1
  have log := store_log p stage io id conn socket handled holds.2
  have before := store_before site p stage io id conn socket handled roster holds handles returns
  have passes := fun other => store_passes site p stage io id conn socket other handled roster holds handles returns
  refine ⟨stored.capacity ▸ roster.word, stored.whole, roster.apart, fun i j x y other one also => ?_, fun i x there => ?_,
    fun visit member => ?_, fun queue i member => ?_, fun other older => ?_, fun other listed => ?_, roster.inHand,
    fun roomy i x there going => ?_⟩
  · obtain ⟨x', found, stream⟩ := before i x one.1
    obtain ⟨y', earlier, stream'⟩ := before j y also.1
    exact roster.homes i j x' y' other ⟨found, stream.trans one.2⟩ ⟨earlier, stream'.trans also.2⟩
  · obtain ⟨y, found, stream⟩ := before i x there
    obtain ⟨other, mine, older⟩ := roster.known i y found
    exact ⟨other, stream ▸ mine, older⟩
  · rw [log, List.mem_append, List.mem_singleton] at member
    rcases member with old | rfl
    · exact roster.logged visit old
    · obtain ⟨other, mine, older⟩ := roster.known id conn holds.1
      obtain rfl := Option.some.inj (holds.2.symm.trans mine)
      exact older
  · obtain ⟨x, other, found, posture⟩ := roster.queued queue i member
    have apart : i ≠ id := fun same => roster.inHand id rfl queue (same ▸ member)
    have differ : socket ≠ other := by
      rintro rfl
      exact apart (roster.homes i id x conn socket ⟨found, posture_stream _ _ _ _ _ _ posture⟩ holds)
    rw [← (passes other differ).received, ← (passes other differ).sent] at posture
    exact ⟨x, other, (stored.others i apart).trans found, posture⟩
  · by_cases mine : socket = other
    · subst mine
      exact handled_course site p stage io id conn socket handled roster holds handles returns
    · exact course_kept site p _ other (passes other mine) (roster.courses other older)
  · obtain ⟨older, unhoused⟩ := roster.turned other listed
    have differ : socket ≠ other := by
      rintro rfl
      exact unhoused.gone id conn holds
    exact ⟨older, unhoused_kept p _ other (passes other differ) unhoused⟩
  · by_cases same : i = id
    · exact .inl (congrArg some same.symm)
    · have roomy' : p.Roomy := fun stage => stored.capacity ▸ roomy stage
      exact roster.placed roomy' i x ((stored.others i same).symm.trans there) going

theorem with_conn_roster (site : Site) (p p' : Pipeline) (stage : StageId) (io : Io) (id : ConnId)
    (body : ConnState → MetricsCollector → Handled) (roster : Roster site refusals p (some id)) (stands : p.Stands site stage id)
    (handles : ∀ socket received sent conn metrics, Posture site socket stage received sent conn →
      Handles site socket stage io received sent (body conn metrics))
    (served : p.withConn stage io id body = .ok p') : Roster site refusals p' none := by
  obtain ⟨conn, socket, found, posture⟩ := stands
  have holds : p.Holds socket id conn := ⟨found, posture_stream _ _ _ _ _ _ posture⟩
  have handles := handles socket _ _ conn p.metrics posture
  have stored := store_stored p stage io id conn (body conn p.metrics) roster.whole found
  have kept := store_roster site p stage io id conn socket (body conn p.metrics) roster holds handles
  obtain ⟨got, gave⟩ := store_history p stage io id conn socket (body conn p.metrics) holds.2
  simp only [Pipeline.withConn, found] at served
  cases handles with
  | moves queue gauge after next left posture =>
      simp only [next] at served
      rw [← got, ← gave] at posture
      exact push_roster site _ p' queue (some gauge) id (kept fun fault error => by cases next.symm.trans error)
        ⟨after, socket, stored.here.trans left, posture⟩ served
  | rejects reason after next left stream closed parse unsent =>
      simp only [next] at served
      refine Except.ok.inj served ▸ release_roster site _ id (kept fun fault error => by cases next.symm.trans error) fun x there => ?_
      obtain rfl := Option.some.inj ((stored.here.trans left).symm.trans there)
      exact closed
  | delivers request n parse next left whole =>
      simp only [next] at served
      refine Except.ok.inj served ▸ release_roster site _ id (kept fun fault error => by cases next.symm.trans error) fun x there => ?_
      cases (stored.here.trans left).symm.trans there
  | severs request n parse next left part out error =>
      simp only [next] at served
      refine Except.ok.inj served ▸ release_roster site _ id (kept fun fault error => by cases next.symm.trans error) fun x there => ?_
      cases (stored.here.trans left).symm.trans there
  | unwinds fault next =>
      simp only [next] at served
      cases served

theorem encode_posture (site : Site) (socket : Socket) (received sent : Bytes) (conn : ConnState)
    (posture : Posture site socket .encode received sent conn) : Posture site socket .netOut received sent conn := by
  cases posture with
  | answered _ request n parse => exact .sending received request n 0 parse (Nat.zero_le _)

-- One turn of a stage's loop past its pop.
def Serves (site : Site) (refusals : List Socket) (stage : StageId) (serve : Io → ConnId → Pipeline → Except Fault Pipeline) : Prop :=
  ∀ io id p p', Roster site refusals p (some id) → p.Stands site stage id → serve io id p = .ok p' → Roster site refusals p' none

theorem parse_serves (site : Site) : Serves site refusals .parse parseServe := fun io id p p' roster stands served =>
  with_conn_roster site p p' .parse io id _ roster stands
    (fun socket received sent conn metrics => parse_handles site socket io received sent conn metrics) served

theorem route_serves (site : Site) : Serves site refusals .route routeServe := fun io id p p' roster stands served =>
  with_conn_roster site p p' .route io id _ roster stands
    (fun socket received sent conn metrics => route_handles site socket io received sent conn metrics) served

theorem app_serves (site : Site) : Serves site refusals .app (appServe site) := fun io id p p' roster stands served =>
  with_conn_roster site p p' .app io id _ roster stands
    (fun socket received sent conn metrics => app_handles site socket io received sent conn metrics) served

theorem net_out_serves (site : Site) : Serves site refusals .netOut netOutServe := fun io id p p' roster stands served =>
  with_conn_roster site p p' .netOut io id _ roster stands
    (fun socket received sent conn metrics => net_out_handles site socket io received sent conn metrics) served

theorem encode_serves (site : Site) : Serves site refusals .encode encodeServe := by
  intro _ id p p' roster ⟨conn, socket, found, posture⟩ served
  exact push_roster site p p' .netOut none id roster ⟨conn, socket, found, encode_posture _ _ _ _ _ posture⟩ served

theorem roster_front (site : Site) (p : Pipeline) (stage : StageId) (id : ConnId) (rest : List ConnId)
    (roster : Roster site refusals p none) (contents : p.ids stage = id :: rest) :
    ∃ queue, (p.queues stage).pop = (some id, queue) ∧ queue.contents = rest ∧ queue.capacity = (p.queues stage).capacity := by
  have within := stands_within site p stage id (roster.queued stage id (contents ▸ List.mem_cons_self))
  have slot := Nat.ne_of_lt (Nat.lt_of_lt_of_le within (Nat.le_sub_one_of_lt roster.word))
  exact pop_front _ id rest contents slot

theorem loop_roster (site : Site) (stage : StageId) (gauge : Option String) (serve : Io → ConnId → Pipeline → Except Fault Pipeline)
    (serves : Serves site refusals stage serve) (ios : List Io) (p p' : Pipeline) (roster : Roster site refusals p none)
    (looped : (p.loop stage gauge serve ios).result = .ok p') : Roster site refusals p' none := by
  induction ios generalizing p with
  | nil => exact Except.ok.inj looped ▸ roster
  | cons io later ih =>
      unfold Pipeline.loop at looped
      cases contents : p.ids stage with
      | nil =>
          simp only [pop_empty _ contents, Function.update_eq_self] at looped
          exact Except.ok.inj looped ▸ roster
      | cons id rest =>
          obtain ⟨queue, popped, shorter, capacity⟩ := roster_front site p stage id rest roster contents
          obtain ⟨inHand, stands⟩ := take_roster site p stage queue gauge id roster (shorter ▸ contents) capacity
          simp only [popped] at looped
          cases served : serve io id (p.take stage queue gauge) with
          | error fault =>
              simp only [served] at looped
              cases looped
          | ok middle =>
              simp only [served] at looped
              exact ih middle (serves io id _ middle inHand stands served) looped

-- The socket of the next stream has not been seen before.
theorem roster_unseen (site : Site) (p : Pipeline) (hand : Option ConnId) (roster : Roster site refusals p hand) :
    p.Unhoused p.accepted := by
  have never : (p.log.filter fun visit => visit.socket = p.accepted) = [] := by
    rw [List.filter_eq_nil_iff]
    exact fun visit member here => absurd (of_decide_eq_true here) (Nat.ne_of_lt (roster.logged visit member))
  refine ⟨?_, by rw [receivedOn, never, List.flatMap_nil], by rw [sentOn, never, List.flatMap_nil]⟩
  rintro i x ⟨there, stream⟩
  obtain ⟨socket, mine, older⟩ := roster.known i x there
  obtain rfl := Option.some.inj (stream.symm.trans mine)
  exact Nat.lt_irrefl _ older

theorem course_listed (site : Site) (more : List Socket) (p : Pipeline) (socket : Socket) (course : Course site refusals p socket) :
    Course site (refusals ++ more) p socket := by
  cases course with
  | refused listed unhoused => exact .refused (List.mem_append_left _ listed) unhoused
  | held serving => exact .held serving
  | rejected id conn reason holds closed parse unsent => exact .rejected id conn reason holds closed parse unsent
  | delivered whole => exact .delivered whole
  | severed request n gone parse part error => exact .severed request n gone parse part error

theorem parse_empty : Http.parse [] = .ok (.error .incomplete) := rfl

theorem refused_roster (site : Site) (p : Pipeline) (roster : Roster site refusals p none) :
    Roster site (refusals ++ [p.accepted]) { p with accepted := p.accepted + 1 } none := by
  have unseen := roster_unseen site p none roster
  have passes (socket : Socket) : Passes p { p with accepted := p.accepted + 1 } socket := passes_same p _ socket rfl rfl
  refine ⟨roster.word, roster.whole, roster.apart, roster.homes, fun i x there => ?_,
    fun visit member => Nat.lt_succ_of_lt (roster.logged visit member), roster.queued, fun socket older => ?_,
    fun socket listed => ?_, roster.inHand, roster.placed⟩
  · obtain ⟨socket, mine, older⟩ := roster.known i x there
    exact ⟨socket, mine, Nat.lt_succ_of_lt older⟩
  · rcases Nat.lt_succ_iff_lt_or_eq.mp older with before | rfl
    · exact course_listed site _ _ socket (course_kept site p _ socket (passes socket) (roster.courses socket before))
    · exact .refused (List.mem_append_right _ List.mem_cons_self) (unhoused_kept p _ _ (passes _) unseen)
  · rcases List.mem_append.mp listed with before | last
    · obtain ⟨older, unhoused⟩ := roster.turned socket before
      exact ⟨Nat.lt_succ_of_lt older, unhoused_kept p _ socket (passes socket) unhoused⟩
    · obtain rfl := List.mem_singleton.mp last
      exact ⟨Nat.lt_succ_self _, unhoused_kept p _ _ (passes _) unseen⟩

theorem inserted_roster (site : Site) (p : Pipeline) (slab : ConnSlab) (new : ConnId) (metrics : MetricsCollector)
    (roster : Roster site refusals p none) (inserted : p.slab.insert (.new p.accepted) = (some new, slab)) :
    Roster site refusals { p with slab := slab, metrics := metrics, accepted := p.accepted + 1 } (some new) ∧
      Pipeline.Stands site { p with slab := slab, metrics := metrics, accepted := p.accepted + 1 } .parse new := by
  obtain ⟨capacity, exact_, empty, stored, others⟩ := insert_issues p.slab slab _ new roster.whole inserted
  obtain ⟨gone, unread, unsent⟩ := roster_unseen site p none roster
  have old (i : ConnId) (x : ConnState) (there : slab.get i = some x) :
      (i = new ∧ x = .new p.accepted) ∨ (i ≠ new ∧ p.slab.get i = some x) := by
    by_cases same : i = new
    · subst same
      exact .inl ⟨rfl, Option.some.inj (there.symm.trans stored)⟩
    · exact .inr ⟨same, (others i same).symm.trans there⟩
  have kept (i : ConnId) (x : ConnState) (there : p.slab.get i = some x) : slab.get i = some x := by
    have differ : i ≠ new := by
      rintro rfl
      cases empty.symm.trans there
    exact (others i differ).trans there
  have posture : Posture site p.accepted .parse (receivedOn p.accepted p.log) (sentOn p.accepted p.log) (.new p.accepted) := by
    rw [unread, unsent]
    exact .waiting [] parse_empty
  have passes (socket : Socket) (older : socket < p.accepted) :
      Passes p { p with slab := slab, metrics := metrics, accepted := p.accepted + 1 } socket := by
    refine ⟨fun i x there => kept i x there.1, fun i x there => ?_, rfl, rfl, ⟨[], (List.append_nil _).symm⟩⟩
    rcases old i x there.1 with ⟨rfl, rfl⟩ | ⟨_, earlier⟩
    · exact absurd (Option.some.inj there.2).symm (Nat.ne_of_lt older)
    · exact ⟨i, x, earlier, there.2⟩
  refine ⟨⟨capacity ▸ roster.word, exact_, roster.apart, fun i j x y socket one also => ?_, fun i x there => ?_,
    fun visit member => Nat.lt_succ_of_lt (roster.logged visit member), fun stage i member => ?_, fun socket older => ?_,
    fun socket listed => ?_, fun i same stage member => ?_, fun roomy i x there going => ?_⟩, ⟨_, p.accepted, stored, posture⟩⟩
  · rcases old i x one.1 with ⟨rfl, rfl⟩ | ⟨_, before⟩
    · rcases old j y also.1 with ⟨rfl, rfl⟩ | ⟨_, earlier⟩
      · rfl
      · obtain rfl := Option.some.inj one.2
        exact absurd ⟨earlier, also.2⟩ (gone j y)
    · rcases old j y also.1 with ⟨rfl, rfl⟩ | ⟨_, earlier⟩
      · obtain rfl := Option.some.inj also.2
        exact absurd ⟨before, one.2⟩ (gone i x)
      · exact roster.homes i j x y socket ⟨before, one.2⟩ ⟨earlier, also.2⟩
  · rcases old i x there with ⟨rfl, rfl⟩ | ⟨_, before⟩
    · exact ⟨p.accepted, rfl, Nat.lt_succ_self _⟩
    · obtain ⟨socket, mine, older⟩ := roster.known i x before
      exact ⟨socket, mine, Nat.lt_succ_of_lt older⟩
  · obtain ⟨conn, socket, found, posture⟩ := roster.queued stage i member
    exact ⟨conn, socket, kept i conn found, posture⟩
  · rcases Nat.lt_succ_iff_lt_or_eq.mp older with before | rfl
    · exact course_kept site p _ socket (passes socket before) (roster.courses socket before)
    · exact .held ⟨new, _, .parse, stored, posture⟩
  · obtain ⟨earlier, unhoused⟩ := roster.turned socket listed
    exact ⟨Nat.lt_succ_of_lt earlier, unhoused_kept p _ socket (passes socket earlier) unhoused⟩
  · obtain rfl := Option.some.inj same
    obtain ⟨conn, socket, found, _⟩ := roster.queued stage new member
    cases empty.symm.trans found
  · rcases old i x there with ⟨rfl, _⟩ | ⟨_, before⟩
    · exact .inl rfl
    · exact .inr ((roster.placed (fun stage => capacity ▸ roomy stage) i x before going).resolve_left nofun)

-- The stream of accept that insert finds no slot for.
def Pipeline.turnedAway (p : Pipeline) : List Socket := if (p.slab.insert (.new p.accepted)).1 = none then [p.accepted] else []

theorem accept_roster (site : Site) (p p' : Pipeline) (roster : Roster site refusals p none) (accepted : p.accept = .ok p') :
    Roster site (refusals ++ p.turnedAway) p' none := by
  unfold Pipeline.accept at accepted
  unfold Pipeline.turnedAway
  rcases inserted : p.slab.insert (.new p.accepted) with ⟨_ | new, slab⟩
  · obtain rfl := insert_none p.slab slab _ inserted
    simp only [inserted] at accepted
    rw [if_pos rfl]
    exact Except.ok.inj accepted ▸ refused_roster site p roster
  · obtain ⟨inHand, stands⟩ := inserted_roster site p slab new p.metrics.incTotalConns roster inserted
    simp only [inserted] at accepted
    rw [if_neg (Option.some_ne_none new), List.append_nil]
    exact push_roster site _ p' .parse (some "parse") new inHand stands accepted

-- Those of a call of process in net_in, one after the other.
def netInRefuses : Nat → Pipeline → List Socket
  | 0, _ => []
  | streams + 1, p => p.turnedAway ++ (p.accept.toOption.elim [] (netInRefuses streams))

theorem net_in_roster (site : Site) (streams : Nat) (p p' : Pipeline) (roster : Roster site refusals p none)
    (processed : netInProcess streams p = .ok p') : Roster site (refusals ++ netInRefuses streams p) p' none := by
  induction streams generalizing p refusals with
  | zero => exact (List.append_nil refusals).symm ▸ Except.ok.inj processed ▸ roster
  | succ streams ih =>
      rw [netInProcess] at processed
      cases accepted : p.accept with
      | error fault => cases accepted ▸ processed
      | ok middle =>
          rw [accepted] at processed
          rw [netInRefuses, accepted, ← List.append_assoc]
          exact ih middle (accept_roster site p middle roster accepted) processed

def Pipeline.refusal (p : Pipeline) : StageCall → List Socket → List Socket
  | .netIn streams, refusals => refusals ++ netInRefuses streams p
  | .process _ _, refusals => refusals

theorem step_roster (site : Site) (p p' : Pipeline) (call : StageCall) (roster : Roster site refusals p none)
    (taken : p.step site call = some p') : Roster site (p.refusal call refusals) p' none := by
  have processed := returned_of_option _ p' taken
  match call with
  | .netIn streams => exact net_in_roster site streams p p' roster processed
  | .process .parse ios => exact loop_roster site .parse _ _ (parse_serves site) _ p p' roster processed
  | .process .route ios => exact loop_roster site .route _ _ (route_serves site) _ p p' roster processed
  | .process .app ios => exact loop_roster site .app _ _ (app_serves site) _ p p' roster processed
  | .process .encode ios => exact loop_roster site .encode _ _ (encode_serves site) _ p p' roster processed
  | .process .netOut ios => exact loop_roster site .netOut _ _ (net_out_serves site) _ p p' roster processed

theorem new_roster (site : Site) (config : PipelineConfig) : Roster site [] (.new config) none := by
  have empty (i : ConnId) (x : ConnState) (there : (Pipeline.new config).slab.get i = some x) : False := by
    cases (new_get config.slabCapacity i).symm.trans there
  refine ⟨config.word, new_exact config.slabCapacity, ⟨fun stage => ?_, fun stage other _ i member => ?_⟩,
    fun i j x y socket one => (empty i x one.1).elim, fun i x there => (empty i x there).elim, nofun, fun stage i member => ?_, nofun,
    nofun, nofun, fun _ i x there => (empty i x there).elim⟩
  · exact List.nodup_nil
  · cases member
  · cases member

theorem run_roster (site : Site) (config : PipelineConfig) (p : Pipeline)
    (run : Run (Pipeline.step site) anyStep (.new config) p) : ∃ refusals, Roster site refusals p none :=
  Runs.run_invariant (fun p => ∃ refusals, Roster site refusals p none) _ p run ⟨[], new_roster site config⟩
    fun p call p' ⟨refusals, roster⟩ _ taken => ⟨p.refusal call refusals, step_roster site p p' call roster taken⟩

theorem calls_roster (site : Site) (calls : List StageCall) (p p' : Pipeline) (roster : Roster site refusals p none)
    (executed : execute (Pipeline.step site) p calls = some p') :
    Roster site (Runs.carried (Pipeline.step site) Pipeline.refusal p refusals calls) p' none := by
  induction calls generalizing p refusals with
  | nil => exact Option.some.inj executed ▸ roster
  | cons call later ih =>
      obtain ⟨middle, taken, rest⟩ := Option.bind_eq_some_iff.mp executed
      rw [Runs.carried, taken]
      exact ih middle (step_roster site p middle call roster taken) rest

-- Queues and the slab keep the sizes they were made with.
structure Pipeline.Sized (config : PipelineConfig) (p : Pipeline) : Prop where
  slab : p.slab.capacity = config.slabCapacity
  queues : ∀ stage, (p.queues stage).capacity = config.queueCapacity stage

theorem replaced_sized (config : PipelineConfig) (p : Pipeline) (stage : StageId) (queue : RingQueue) (metrics : MetricsCollector)
    (sized : p.Sized config) (capacity : queue.capacity = (p.queues stage).capacity) :
    Pipeline.Sized config { p with queues := update p.queues stage queue, metrics := metrics } := by
  refine ⟨sized.slab, fun other => ?_⟩
  by_cases same : other = stage
  · subst same
    simp only [Function.update_self, capacity]
    exact sized.queues other
  · simp only [Function.update_of_ne same]
    exact sized.queues other

theorem push_sized (config : PipelineConfig) (p p' : Pipeline) (queue : StageId) (gauge : Option String) (id : ConnId)
    (sized : p.Sized config) (pushed : p.push queue gauge id = .ok p') : p'.Sized config := by
  rcases push_ok p p' queue gauge id pushed with ⟨_, rfl⟩ | ⟨_, longer, _, capacity, rfl⟩
  · exact sized
  · exact replaced_sized config p queue longer _ sized capacity

theorem with_conn_sized (config : PipelineConfig) (p p' : Pipeline) (stage : StageId) (io : Io) (id : ConnId)
    (body : ConnState → MetricsCollector → Handled) (sized : p.Sized config) (served : p.withConn stage io id body = .ok p') :
    p'.Sized config := by
  unfold Pipeline.withConn at served
  cases found : p.slab.get id with
  | none =>
      simp only [found] at served
      exact Except.ok.inj served ▸ sized
  | some conn =>
      have stored : Pipeline.Sized config (p.store stage io id conn (body conn p.metrics)) :=
        ⟨(store_capacity p stage io id conn _).trans sized.slab, sized.queues⟩
      simp only [found] at served
      rcases next : (body conn p.metrics).next with fault | _ | ⟨queue, gauge⟩
      · simp only [next] at served
        cases served
      · simp only [next] at served
        exact Except.ok.inj served ▸ stored
      · simp only [next] at served
        exact push_sized config _ p' queue _ id stored served

theorem pop_capacity (q : RingQueue) : q.pop.2.capacity = q.capacity := by
  unfold RingQueue.pop
  split <;> rfl

theorem loop_sized (config : PipelineConfig) (stage : StageId) (gauge : Option String)
    (serve : Io → ConnId → Pipeline → Except Fault Pipeline)
    (keeps : ∀ io id p p', p.Sized config → serve io id p = .ok p' → p'.Sized config) (ios : List Io) (p p' : Pipeline)
    (sized : p.Sized config) (looped : (p.loop stage gauge serve ios).result = .ok p') : p'.Sized config := by
  induction ios generalizing p with
  | nil => exact Except.ok.inj looped ▸ sized
  | cons io later ih =>
      unfold Pipeline.loop at looped
      have capacity := pop_capacity (p.queues stage)
      rcases popped : (p.queues stage).pop with ⟨_ | id, queue⟩
      · simp only [popped] at looped
        rw [popped] at capacity
        exact Except.ok.inj looped ▸ replaced_sized config p stage queue p.metrics sized capacity
      · rw [popped] at capacity
        simp only [popped] at looped
        cases served : serve io id (p.take stage queue gauge) with
        | error fault =>
            simp only [served] at looped
            cases looped
        | ok middle =>
            simp only [served] at looped
            exact ih middle (keeps io id _ middle (replaced_sized config p stage queue _ sized capacity) served) looped

theorem accept_sized (config : PipelineConfig) (p p' : Pipeline) (sized : p.Sized config) (accepted : p.accept = .ok p') :
    p'.Sized config := by
  unfold Pipeline.accept at accepted
  split at accepted <;> rename_i slab inserted
  · obtain rfl := insert_none _ _ _ inserted
    exact Except.ok.inj accepted ▸ ⟨sized.slab, sized.queues⟩
  · obtain ⟨_, capacity, _⟩ := insert_some _ _ _ _ inserted
    have larger : Pipeline.Sized config { p with slab := slab, metrics := p.metrics.incTotalConns, accepted := p.accepted + 1 } :=
      ⟨capacity.trans sized.slab, sized.queues⟩
    exact push_sized config _ p' .parse _ _ larger accepted

theorem net_in_sized (config : PipelineConfig) (streams : Nat) (p p' : Pipeline) (sized : p.Sized config)
    (processed : netInProcess streams p = .ok p') : p'.Sized config := by
  induction streams generalizing p with
  | zero => exact Except.ok.inj processed ▸ sized
  | succ streams ih =>
      rw [netInProcess] at processed
      cases accepted : p.accept with
      | error fault => cases accepted ▸ processed
      | ok middle =>
          rw [accepted] at processed
          exact ih middle (accept_sized config p middle sized accepted) processed

theorem step_sized (site : Site) (config : PipelineConfig) (p p' : Pipeline) (call : StageCall) (sized : p.Sized config)
    (taken : p.step site call = some p') : p'.Sized config := by
  have processed := returned_of_option _ p' taken
  have bodies (stage : StageId) (body : Io → ConnState → MetricsCollector → Handled) (io : Io) (id : ConnId) (p p' : Pipeline)
      (sized : p.Sized config) (served : p.withConn stage io id (body io) = .ok p') : p'.Sized config :=
    with_conn_sized config p p' stage io id (body io) sized served
  match call with
  | .netIn streams => exact net_in_sized config streams p p' sized processed
  | .process .parse ios => exact loop_sized config .parse _ _ (bodies .parse parseStage) _ p p' sized processed
  | .process .route ios => exact loop_sized config .route _ _ (bodies .route fun _ => routeStage) _ p p' sized processed
  | .process .app ios => exact loop_sized config .app _ _ (bodies .app fun _ => appStage site) _ p p' sized processed
  | .process .encode ios =>
      exact loop_sized config .encode _ _ (fun _ id p p' => push_sized config p p' .netOut none id) _ p p' sized processed
  | .process .netOut ios => exact loop_sized config .netOut _ _ (bodies .netOut netOutStage) _ p p' sized processed

theorem run_sized (site : Site) (config : PipelineConfig) (p : Pipeline)
    (run : Run (Pipeline.step site) anyStep (.new config) p) : p.Sized config :=
  Runs.run_invariant (fun p => p.Sized config) _ p run ⟨rfl, fun _ => rfl⟩
    fun p call p' sized _ taken => step_sized site config p p' call sized taken

def PipelineConfig.Roomy (config : PipelineConfig) : Prop := ∀ stage, config.slabCapacity < config.queueCapacity stage

theorem run_roomy (site : Site) (config : PipelineConfig) (p : Pipeline) (roomy : config.Roomy)
    (run : Run (Pipeline.step site) anyStep (.new config) p) : p.Roomy := by
  have sized := run_sized site config p run
  intro stage
  rw [sized.slab, sized.queues]
  exact roomy stage

theorem refused_iff_unread (site : Site) (p : Pipeline) (socket : Socket) (roster : Roster site refusals p none)
    (older : socket < p.accepted) : socket ∈ refusals ↔ p.Gone socket ∧ receivedOn socket p.log = [] := by
  constructor
  · intro listed
    obtain ⟨_, unhoused⟩ := roster.turned socket listed
    exact ⟨unhoused.gone, unhoused.unread⟩
  · rintro ⟨gone, unread⟩
    have incomplete : Http.parse (receivedOn socket p.log) = .ok (.error .incomplete) := unread ▸ parse_empty
    cases roster.courses socket older with
    | refused listed unhoused => exact listed
    | held serving =>
        obtain ⟨id, conn, stage, found, posture⟩ := serving
        exact absurd ⟨found, posture_stream _ _ _ _ _ _ posture⟩ (gone id conn)
    | rejected id conn reason holds closed parse unsent => exact absurd holds (gone id conn)
    | delivered whole =>
        obtain ⟨request, n, _, parse, _⟩ := whole
        cases incomplete.symm.trans parse
    | severed request n _ parse part error => cases incomplete.symm.trans parse

-- The sockets that insert returned no id for, in a run from the start.
def Pipeline.refused (site : Site) (config : PipelineConfig) (calls : List StageCall) : List Socket :=
  Runs.carried (Pipeline.step site) Pipeline.refusal (.new config) [] calls

theorem clients_accounted (site : Site) (config : PipelineConfig) (calls : List StageCall) (p : Pipeline) (socket : Socket)
    (executed : execute (Pipeline.step site) (.new config) calls = some p) (older : socket < p.accepted) :
    Course site (Pipeline.refused site config calls) p socket ∧
      (socket ∈ Pipeline.refused site config calls ↔ p.Gone socket ∧ receivedOn socket p.log = []) := by
  have roster := calls_roster site calls (.new config) p (new_roster site config) executed
  exact ⟨roster.courses socket older, refused_iff_unread site p socket roster older⟩

def twoSlots : PipelineConfig := ⟨2, fun _ => 3, smallConfig.word, fun _ => by decide⟩

-- The second client sends no request, and the third finds no slot.
def threeClients : List StageCall :=
  [.netIn 3, .process .parse fun turn => readOnce (if turn = 0 then "GET / HTTP/1.1\r\na:b\r\n\r\n" else "GET"),
    .process .route fun _ => ⟨[], []⟩, .process .app fun _ => ⟨[], []⟩, .process .encode fun _ => ⟨[], []⟩,
    .process .netOut fun _ => ⟨[], [.accepted 1000]⟩]

set_option maxRecDepth 4000 in
theorem three_clients_accounted : ∃ p, execute (Pipeline.step plainSite) (.new twoSlots) threeClients = some p ∧
    p.accepted = 3 ∧ Pipeline.refused plainSite twoSlots threeClients = [2] ∧
    Course plainSite [2] p 0 ∧ Course plainSite [2] p 1 ∧ p.Gone 2 ∧ receivedOn 2 p.log = [] := by
  have last : Pipeline.refused plainSite twoSlots threeClients = [2] := by decide
  obtain ⟨p, executed, three⟩ : ∃ p, execute (Pipeline.step plainSite) (.new twoSlots) threeClients = some p ∧ p.accepted = 3 :=
    ⟨_, rfl, rfl⟩
  have first := clients_accounted plainSite twoSlots threeClients p 0 executed (three ▸ by decide)
  have second := clients_accounted plainSite twoSlots threeClients p 1 executed (three ▸ by decide)
  have third := clients_accounted plainSite twoSlots threeClients p 2 executed (three ▸ by decide)
  rw [last] at first second third
  exact ⟨p, executed, three, last, first.1, second.1, third.2.mp (.head [])⟩

-- Closed is the mark of a request that the parser refused.
theorem closed_iff_rejected (site : Site) (p : Pipeline) (socket : Socket) (id : ConnId) (conn : ConnState)
    (roster : Roster site refusals p none) (holds : p.Holds socket id conn) :
    conn.state = .closed ↔ ∃ reason, Http.parse (receivedOn socket p.log) = .ok (.error (.invalid reason)) := by
  obtain ⟨socket', mine, older⟩ := roster.known id conn holds.1
  obtain rfl := Option.some.inj (holds.2.symm.trans mine)
  have alone (id' : ConnId) (conn' : ConnState) (there : p.Holds socket id' conn') : conn' = conn := by
    obtain rfl := roster.homes id' id conn' conn socket there holds
    exact Option.some.inj (there.1.symm.trans holds.1)
  cases roster.courses socket older with
  | refused listed unhoused => exact absurd holds (unhoused.gone id conn)
  | held serving =>
      obtain ⟨id', conn', stage, found, posture⟩ := serving
      obtain rfl := alone id' conn' ⟨found, posture_stream _ _ _ _ _ _ posture⟩
      exact iff_of_false (posture_open _ _ _ _ _ _ posture) fun ⟨reason, invalid⟩ => posture_accepted _ _ _ _ _ _ posture reason invalid
  | rejected id' conn' reason there closed parse unsent => exact iff_of_true (alone id' conn' there ▸ closed) ⟨reason, parse⟩
  | delivered whole => exact absurd holds (whole.elim fun _ rest => rest.elim fun _ ended => ended.1 id conn)
  | severed request n gone parse part error => exact absurd holds (gone id conn)

theorem clients_queued_once (site : Site) (config : PipelineConfig) (p : Pipeline)
    (run : Run (Pipeline.step site) anyStep (.new config) p) :
    (StageId.all.flatMap p.ids).Nodup ∧ (∀ stage, ∀ id ∈ p.ids stage, p.Stands site stage id) ∧
      (config.Roomy → ∀ id conn, p.slab.get id = some conn → (conn.state ≠ .closed ↔ ∃ stage, id ∈ p.ids stage)) ∧
      ∀ id conn, p.slab.get id = some conn → ∃ socket, conn.stream = some socket ∧
        (conn.state = .closed ↔ ∃ reason, Http.parse (receivedOn socket p.log) = .ok (.error (.invalid reason))) := by
  obtain ⟨_, roster⟩ := run_roster site config p run
  refine ⟨Placement.apart_nodup p.ids StageId.all (by decide) roster.apart, roster.queued, fun roomy id conn found => ?_,
    fun id conn found => ?_⟩
  · constructor
    · intro going
      exact (roster.placed (run_roomy site config p roomy run) id conn found going).resolve_left nofun
    · rintro ⟨stage, member⟩
      obtain ⟨conn', socket, there, posture⟩ := roster.queued stage id member
      obtain rfl := Option.some.inj (found.symm.trans there)
      exact posture_open _ _ _ _ _ _ posture
  · obtain ⟨socket, stream, _⟩ := roster.known id conn found
    exact ⟨socket, stream, closed_iff_rejected site p socket id conn roster ⟨found, stream⟩⟩

set_option maxRecDepth 4000 in
theorem second_client_queued : ∃ p, execute (Pipeline.step plainSite) (.new twoSlots) threeClients = some p ∧
    (StageId.all.flatMap p.ids).Nodup ∧ p.ids .parse = [1] ∧ p.Stands plainSite .parse 1 ∧ p.slab.get 0 = none := by
  refine ⟨_, rfl, ?_, rfl, ?_, rfl⟩
  · exact (clients_queued_once plainSite twoSlots _ (Runs.execute_run _ _ _ threeClients .start rfl)).1
  · exact (clients_queued_once plainSite twoSlots _ (Runs.execute_run _ _ _ threeClients .start rfl)).2.1 .parse 1 (.head _)

end Ners.Server
