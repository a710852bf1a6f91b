import Ners.Base.Meters
import Ners.Base.Unsigned
import Ners.Server.Pipeline
import Ners.Server.Slots

set_option autoImplicit false

namespace Ners.Server

open Function (update)
open Runs (Reached Taken execute)
open Meters (reading)
open Unsigned

-- The gauge that counts the ids of a queue. One gauge spans the last two.
def StageId.meter : StageId → String
  | .parse => "parse"
  | .route => "route"
  | .app => "app"
  | .encode => "net_out"
  | .netOut => "net_out"

def Pipeline.shown (p : Pipeline) (gauge : String) : Option Nat := (p.metrics.currentQueueLen gauge).map UInt64.toNat

structure Pipeline.GaugesMatch (p : Pipeline) : Prop where
  parse : p.shown "parse" = some (p.queues .parse).len
  route : p.shown "route" = some (p.queues .route).len
  app : p.shown "app" = some (p.queues .app).len
  netOut : p.shown "net_out" = some ((p.queues .encode).len + (p.queues .netOut).len)

def waiting (queues : StageId → RingQueue) (gauge : String) : Nat :=
  reading StageId.all StageId.meter (fun stage => (queues stage).len) gauge

-- Ids that were lost without their gauge being lowered: the net_out gauge shows
-- them still.
def excess (lost : Nat) (gauge : String) : Nat := if gauge = "net_out" then lost else 0

def Pipeline.Shows (p : Pipeline) (lost : Nat) : Prop :=
  ∀ stage : StageId, p.shown stage.meter = some (waiting p.queues stage.meter + excess lost stage.meter)

structure Pipeline.Wired (p : Pipeline) : Prop where
  word : p.slab.capacity < 2 ^ 64
  cells : ∀ stage, (p.queues stage).capacity < 2 ^ 60
  real : ∀ stage, ∀ id ∈ (p.queues stage).contents, id < p.slab.capacity

theorem gauges_match_iff (p : Pipeline) : p.GaugesMatch ↔ p.Shows 0 := by
  have sums : waiting p.queues "parse" = (p.queues .parse).len ∧ waiting p.queues "route" = (p.queues .route).len ∧
      waiting p.queues "app" = (p.queues .app).len ∧
      waiting p.queues "net_out" = (p.queues .encode).len + (p.queues .netOut).len := by
    simp [waiting, reading, StageId.all, StageId.meter]
  obtain ⟨parse, route, app, netOut⟩ := sums
  constructor
  · rintro ⟨onParse, onRoute, onApp, onNetOut⟩ stage
    cases stage <;> simp only [StageId.meter, excess, ite_self, Nat.add_zero, parse, route, app, netOut] <;> assumption
  · intro shows
    have each (stage : StageId) := shows stage
    simp only [excess, ite_self, Nat.add_zero] at each
    refine ⟨?_, ?_, ?_, ?_⟩
    · rw [← parse]
      exact each .parse
    · rw [← route]
      exact each .route
    · rw [← app]
      exact each .app
    · rw [← netOut]
      exact each .netOut

theorem waiting_update (queues : StageId → RingQueue) (stage : StageId) (queue : RingQueue) (gauge : String) :
    waiting (update queues stage queue) gauge + (if stage.meter = gauge then (queues stage).contents.length else 0) =
      waiting queues gauge + (if stage.meter = gauge then queue.contents.length else 0) := by
  have loads : (fun other => (update queues stage queue other).len) = update (fun other => (queues other).len) stage queue.len := by
    funext other
    by_cases same : other = stage
    · subst same
      simp only [Function.update_self]
    · simp only [Function.update_of_ne same]
  rw [waiting, loads, contents_length, contents_length]
  exact Meters.reading_update _ _ _ stage _ gauge (by decide) (by cases stage <;> decide)

theorem waiting_word (p : Pipeline) (wired : p.Wired) (gauge : String) : waiting p.queues gauge + 1 < 2 ^ 64 := by
  have bound := Meters.reading_bound StageId.all StageId.meter (fun stage => (p.queues stage).len) (2 ^ 60) gauge fun stage => by
    have short := len_bound (p.queues stage)
    have cells := wired.cells stage
    omega
  have five : StageId.all.length = 5 := rfl
  rw [five] at bound
  unfold waiting
  omega

theorem shown_iff (p : Pipeline) (gauge : String) (k : Nat) :
    p.shown gauge = some k ↔ ∃ n, p.metrics.currentQueueLen gauge = some n ∧ n.toNat = k := Option.map_eq_some_iff

theorem replaced_wired (p : Pipeline) (wired : p.Wired) (stage : StageId) (queue : RingQueue) (metrics : MetricsCollector)
    (capacity : queue.capacity = (p.queues stage).capacity) (real : ∀ id ∈ queue.contents, id < p.slab.capacity) :
    Pipeline.Wired { p with queues := update p.queues stage queue, metrics := metrics } := by
  refine ⟨wired.word, fun other => ?_, fun other id member => ?_⟩
  · by_cases same : other = stage
    · subst same
      simp only [Function.update_self, capacity]
      exact wired.cells other
    · simp only [Function.update_of_ne same]
      exact wired.cells other
  · by_cases same : other = stage
    · subst same
      simp only [Function.update_self] at member
      exact real id member
    · simp only [Function.update_of_ne same] at member
      exact wired.real other id member

-- An id is popped and its gauge lowered.
theorem take_shows (p : Pipeline) (stage : StageId) (id : ConnId) (queue : RingQueue) (shows : p.Shows 0)
    (front : (p.queues stage).contents = id :: queue.contents) :
    (p.take stage queue (some stage.meter)).Shows 0 ∧ ∀ value ∈ p.meets (some stage.meter), value ≠ 0 := by
  obtain ⟨n, gauge, sum⟩ := (shown_iff p _ _).mp (shows stage)
  have some : (p.queues stage).contents.length ≤ waiting p.queues stage.meter := by
    rw [contents_length]
    exact Meters.load_le_reading StageId.all StageId.meter (fun stage => (p.queues stage).len) stage (by cases stage <;> decide)
  have long : (p.queues stage).contents.length = queue.contents.length + 1 := by rw [front, List.length_cons]
  have above : 0 < n.toNat := by omega
  constructor
  · intro other
    have fewer := waiting_update p.queues stage queue other.meter
    refine (shown_iff _ _ _).mpr ?_
    have lowered := dec_queue_len p.metrics stage.meter other.meter
    by_cases same : stage.meter = other.meter
    · rw [if_pos same, if_pos same] at fewer
      rw [if_pos same, ← same, gauge, Option.map_some] at lowered
      refine ⟨n - 1, same ▸ lowered, ?_⟩
      rw [dec_exact n above]
      simp only [Pipeline.take, excess, ite_self, ← same] at fewer sum ⊢
      omega
    · rw [if_neg same, if_neg same] at fewer
      rw [if_neg same] at lowered
      obtain ⟨m, there, total⟩ := (shown_iff p _ _).mp (shows other)
      refine ⟨m, lowered.trans there, ?_⟩
      simp only [Pipeline.take]
      omega
  · intro value member zero
    rw [Pipeline.meets, Option.bind_some, gauge, Option.toList_some, List.mem_singleton] at member
    rw [← member, zero] at above
    exact absurd above (by decide)

-- An id is pushed, where there is room, and its gauge raised.
theorem push_shows (p p' : Pipeline) (queue : StageId) (id : ConnId) (wired : p.Wired) (shows : p.Shows 0)
    (within : id < p.slab.capacity) (pushed : p.push queue (some queue.meter) id = .ok p') : p'.Wired ∧ p'.Shows 0 := by
  rcases push_ok p p' queue _ id pushed with ⟨_, rfl⟩ | ⟨_, longer, contents, capacity, rfl⟩
  · exact ⟨wired, shows⟩
  · constructor
    · refine replaced_wired p wired queue longer _ capacity fun other member => ?_
      rw [contents, List.mem_append, List.mem_singleton] at member
      exact member.elim (wired.real queue other) fun same => same ▸ within
    · intro other
      obtain ⟨n, gauge, sum⟩ := (shown_iff p _ _).mp (shows other)
      have more := waiting_update p.queues queue longer other.meter
      have word := waiting_word p wired other.meter
      have raised := inc_queue_len p.metrics queue.meter other.meter
      rw [contents, List.length_append, List.length_singleton] at more
      refine (shown_iff _ _ _).mpr ?_
      simp only [excess, ite_self, Option.elim_some] at sum ⊢
      by_cases same : queue.meter = other.meter
      · rw [if_pos same, if_pos same] at more
        rw [if_pos same, gauge, Option.map_some] at raised
        refine ⟨n + 1, raised, ?_⟩
        rw [inc_exact n (by omega)]
        omega
      · rw [if_neg same, if_neg same] at more
        rw [if_neg same] at raised
        exact ⟨n, raised.trans gauge, by omega⟩

-- A body leaves the queue gauges alone and names the gauge that counts the
-- queue it sends the id to.
structure Handled.Sends (handled : Handled) (metrics : MetricsCollector) : Prop where
  gauges : ∀ gauge, handled.metrics.currentQueueLen gauge = metrics.currentQueueLen gauge
  outlet : ∀ queue gauge, handled.next = .ok (some (queue, gauge)) → gauge = queue.meter

theorem parse_sends (io : Io) (conn : ConnState) (metrics : MetricsCollector) : (parseStage io conn metrics).Sends metrics := by
  unfold parseStage
  dsimp only
  split
  · exact ⟨fun _ => rfl, fun _ _ next => by cases next⟩
  · exact ⟨fun _ => rfl, fun _ _ next => by cases next; rfl⟩
  · exact ⟨fun _ => rfl, fun _ _ next => by cases next; rfl⟩
  · exact ⟨fun _ => inc_errors_queue_len _ _ _, fun _ _ next => by cases next⟩

theorem route_sends (conn : ConnState) (metrics : MetricsCollector) : (routeStage conn metrics).Sends metrics :=
  ⟨fun _ => rfl, fun _ _ next => by cases next; rfl⟩

theorem app_sends (site : Site) (conn : ConnState) (metrics : MetricsCollector) : (appStage site conn metrics).Sends metrics :=
  ⟨fun _ => rfl, fun _ _ next => by cases next; rfl⟩

theorem net_out_sends (io : Io) (conn : ConnState) (metrics : MetricsCollector) : (netOutStage io conn metrics).Sends metrics := by
  unfold netOutStage
  split
  · split
    · exact ⟨fun _ => rfl, fun _ _ next => by cases next⟩
    · dsimp only
      split
      · exact ⟨fun _ => rfl, fun _ _ next => by cases next⟩
      · exact ⟨fun _ => rfl, fun _ _ next => by cases next; rfl⟩
    · exact ⟨fun _ => inc_errors_queue_len _ _ _, fun _ _ next => by cases next⟩
  · exact ⟨fun _ => rfl, fun _ _ next => by cases next⟩

-- The queues and their gauges are one, and every id names a slot.
structure Pipeline.Sound (p : Pipeline) : Prop where
  wired : p.Wired
  shows : p.Shows 0

theorem store_capacity (p : Pipeline) (stage : StageId) (io : Io) (id : ConnId) (conn : ConnState) (handled : Handled) :
    (p.store stage io id conn handled).slab.capacity = p.slab.capacity := by
  unfold Pipeline.store
  cases handled.conn with
  | some after => rfl
  | none => exact remove_capacity p.slab id

theorem store_sound (p : Pipeline) (stage : StageId) (io : Io) (id : ConnId) (conn : ConnState) (handled : Handled) (sound : p.Sound)
    (sends : handled.Sends p.metrics) : (p.store stage io id conn handled).Sound := by
  have capacity := store_capacity p stage io id conn handled
  refine ⟨⟨capacity ▸ sound.wired.word, sound.wired.cells, fun stage id member => ?_⟩, fun other => ?_⟩
  · rw [capacity]
    exact sound.wired.real stage id member
  · rw [Pipeline.shown, Pipeline.store, sends.gauges]
    exact sound.shows other

theorem with_conn_sound (p p' : Pipeline) (stage : StageId) (io : Io) (id : ConnId)
    (body : ConnState → MetricsCollector → Handled) (sends : ∀ conn metrics, (body conn metrics).Sends metrics) (sound : p.Sound)
    (within : id < p.slab.capacity) (served : p.withConn stage io id body = .ok p') : p'.Sound := by
  unfold Pipeline.withConn at served
  cases found : p.slab.get id with
  | none =>
      simp only [found] at served
      exact Except.ok.inj served ▸ sound
  | some conn =>
      have sends := sends conn p.metrics
      have stored := store_sound p stage io id conn _ sound sends
      simp only [found] at served
      rcases next : (body conn p.metrics).next with fault | _ | ⟨queue, gauge⟩
      · simp only [next] at served
        cases served
      · simp only [next] at served
        exact Except.ok.inj served ▸ stored
      · obtain rfl := sends.outlet queue gauge next
        simp only [next] at served
        have inside := store_capacity p stage io id conn (body conn p.metrics) ▸ within
        obtain ⟨wired, shows⟩ := push_shows _ p' queue id stored.wired stored.shows inside served
        exact ⟨wired, shows⟩

theorem take_sound (p : Pipeline) (stage : StageId) (id : ConnId) (queue : RingQueue) (sound : p.Sound)
    (front : (p.queues stage).contents = id :: queue.contents) (capacity : queue.capacity = (p.queues stage).capacity) :
    (p.take stage queue (some stage.meter)).Sound := by
  refine ⟨replaced_wired p sound.wired stage queue _ capacity fun other member => ?_, (take_shows p stage id queue sound.shows front).1⟩
  exact sound.wired.real stage other (front ▸ List.mem_cons_of_mem _ member)

-- An id that names a slot is none of the values that pop takes for an empty cell.
theorem queue_front (p : Pipeline) (stage : StageId) (id : ConnId) (rest : List ConnId) (wired : p.Wired)
    (contents : (p.queues stage).contents = id :: rest) :
    id < p.slab.capacity ∧ ∃ queue, (p.queues stage).pop = (some id, queue) ∧ queue.contents = rest ∧
      queue.capacity = (p.queues stage).capacity := by
  have within := wired.real stage id (contents ▸ List.mem_cons_self)
  have slot := Nat.ne_of_lt (Nat.lt_of_lt_of_le within (Nat.le_sub_one_of_lt wired.word))
  exact ⟨within, pop_front _ id rest contents slot⟩

theorem loop_sound (stage : StageId) (serve : Io → ConnId → Pipeline → Except Fault Pipeline)
    (keeps : ∀ io id p p', p.Sound → id < p.slab.capacity → serve io id p = .ok p' → p'.Sound) (ios : List Io) (p : Pipeline)
    (sound : p.Sound) :
    (∀ p', (p.loop stage (some stage.meter) serve ios).result = .ok p' → p'.Sound) ∧
      ∀ value ∈ (p.loop stage (some stage.meter) serve ios).met, value ≠ 0 := by
  induction ios generalizing p with
  | nil => exact ⟨fun p' same => Except.ok.inj same ▸ sound, fun value member => by cases member⟩
  | cons io later ih =>
      unfold Pipeline.loop
      cases contents : (p.queues stage).contents with
      | nil =>
          simp only [pop_empty _ contents, Function.update_eq_self]
          exact ⟨fun p' same => Except.ok.inj same ▸ sound, fun value member => by cases member⟩
      | cons id rest =>
          obtain ⟨within, queue, popped, shorter, capacity⟩ := queue_front p stage id rest sound.wired contents
          have front : (p.queues stage).contents = id :: queue.contents := shorter ▸ contents
          have met := (take_shows p stage id queue sound.shows front).2
          simp only [popped]
          cases served : serve io id (p.take stage queue (some stage.meter)) with
          | error fault => exact ⟨fun p' same => (by cases same), met⟩
          | ok middle =>
              have onward := ih middle (keeps io id _ middle (take_sound p stage id queue sound front capacity) within served)
              refine ⟨onward.1, fun value member => ?_⟩
              exact (List.mem_append.mp member).elim (met value) (onward.2 value)

theorem accept_sound (p p' : Pipeline) (sound : p.Sound) (accepted : p.accept = .ok p') : p'.Sound := by
  unfold Pipeline.accept at accepted
  split at accepted <;> rename_i slab inserted
  · obtain rfl := Except.ok.inj accepted
    have kept := insert_none _ _ _ inserted
    exact ⟨⟨kept ▸ sound.wired.word, sound.wired.cells, kept ▸ sound.wired.real⟩, sound.shows⟩
  · rename_i id
    obtain ⟨free, capacity, _⟩ := insert_some _ _ _ id inserted
    have within : id < p.slab.capacity := p.slab.inRange id (free ▸ List.mem_cons_self)
    have wired : Pipeline.Wired { p with slab := slab, metrics := p.metrics.incTotalConns, accepted := p.accepted + 1 } :=
      ⟨capacity.symm ▸ sound.wired.word, sound.wired.cells, fun stage id member => capacity.symm ▸ sound.wired.real stage id member⟩
    obtain ⟨wired, shows⟩ := push_shows _ p' .parse id wired sound.shows (capacity.symm ▸ within) accepted
    exact ⟨wired, shows⟩

theorem net_in_sound (streams : Nat) (p p' : Pipeline) (sound : p.Sound) (accepted : netInProcess streams p = .ok p') :
    p'.Sound := by
  induction streams generalizing p with
  | zero => exact Except.ok.inj accepted ▸ sound
  | succ streams ih =>
      rw [netInProcess] at accepted
      cases first : p.accept with
      | error fault =>
          rw [first] at accepted
          cases accepted
      | ok middle =>
          rw [first] at accepted
          exact ih middle (accept_sound p middle sound first) accepted

theorem take_uncounted (p : Pipeline) (id : ConnId) (queue : RingQueue) (lost : Nat) (shows : p.Shows lost)
    (front : (p.queues .encode).contents = id :: queue.contents) : (p.take .encode queue none).Shows (lost + 1) := by
  intro other
  obtain ⟨n, gauge, sum⟩ := (shown_iff p _ _).mp (shows other)
  have fewer := waiting_update p.queues .encode queue other.meter
  rw [front, List.length_cons] at fewer
  refine (shown_iff _ _ _).mpr ⟨n, gauge, ?_⟩
  by_cases spans : other.meter = "net_out"
  · have mine : StageId.encode.meter = other.meter := spans.symm
    rw [if_pos mine, if_pos mine] at fewer
    simp only [Pipeline.take, excess, if_pos spans] at sum ⊢
    omega
  · have apart : StageId.encode.meter ≠ other.meter := fun mine => spans mine.symm
    rw [if_neg apart, if_neg apart] at fewer
    simp only [Pipeline.take, excess, if_neg spans] at sum ⊢
    omega

theorem push_uncounted (p : Pipeline) (id : ConnId) (longer : RingQueue) (lost : Nat) (shows : p.Shows (lost + 1))
    (contents : longer.contents = (p.queues .netOut).contents ++ [id]) :
    Pipeline.Shows { p with queues := update p.queues .netOut longer } lost := by
  intro other
  obtain ⟨n, gauge, sum⟩ := (shown_iff p _ _).mp (shows other)
  have more := waiting_update p.queues .netOut longer other.meter
  rw [contents, List.length_append, List.length_singleton] at more
  refine (shown_iff _ _ _).mpr ⟨n, gauge, ?_⟩
  by_cases spans : other.meter = "net_out"
  · have mine : StageId.netOut.meter = other.meter := spans.symm
    rw [if_pos mine, if_pos mine] at more
    simp only [excess, if_pos spans] at sum ⊢
    omega
  · have apart : StageId.netOut.meter ≠ other.meter := fun mine => spans mine.symm
    rw [if_neg apart, if_neg apart] at more
    simp only [excess, if_neg spans] at sum ⊢
    omega

-- One turn of Encode: the id is lost where NetOut's queue is full.
theorem encode_turn (p p' : Pipeline) (io : Io) (id : ConnId) (queue : RingQueue) (lost : Nat) (wired : p.Wired)
    (shows : p.Shows lost) (front : (p.queues .encode).contents = id :: queue.contents)
    (capacity : queue.capacity = (p.queues .encode).capacity) (served : encodeServe io id (p.take .encode queue none) = .ok p') :
    p'.Wired ∧ (p'.queues .encode).contents = queue.contents ∧ (p'.queues .netOut).capacity = (p.queues .netOut).capacity ∧
      (((p.queues .netOut).contents.length = (p.queues .netOut).capacity - 1 ∧ p'.Shows (lost + 1) ∧
          (p'.queues .netOut).contents = (p.queues .netOut).contents) ∨
        ((p.queues .netOut).contents.length < (p.queues .netOut).capacity - 1 ∧ p'.Shows lost ∧
          (p'.queues .netOut).contents = (p.queues .netOut).contents ++ [id])) := by
  have taken := take_uncounted p id queue lost shows front
  have within := wired.real .encode id (front ▸ List.mem_cons_self)
  have still := replaced_wired p wired .encode queue p.metrics capacity fun other member =>
    wired.real .encode other (front ▸ List.mem_cons_of_mem _ member)
  have there : (p.take .encode queue none).queues .netOut = p.queues .netOut := by
    simp only [Pipeline.take, Function.update_of_ne (show StageId.netOut ≠ .encode by decide)]
  have here : (p.take .encode queue none).queues .encode = queue := by
    simp only [Pipeline.take, Function.update_self]
  rcases push_ok _ p' .netOut none id served with ⟨full, rfl⟩ | ⟨room, longer, contents, cells, rfl⟩
  · rw [there] at full
    exact ⟨still, by rw [here], by rw [there], .inl ⟨full, taken, by rw [there]⟩⟩
  · have onward := push_uncounted _ id longer lost taken contents
    rw [there] at room contents cells
    refine ⟨?_, ?_, ?_, .inr ⟨room, onward, ?_⟩⟩
    · refine replaced_wired (p.take .encode queue none) still .netOut longer _ (there ▸ cells) fun other member => ?_
      rw [contents, List.mem_append, List.mem_singleton] at member
      exact member.elim (wired.real .netOut other) fun same => same ▸ within
    · simp only [Function.update_of_ne (show StageId.encode ≠ .netOut by decide), here]
    · simp only [Function.update_self, cells]
    · simp only [Function.update_self, contents]

theorem encode_loop (ios : List Io) (p p' : Pipeline) (lost : Nat) (wired : p.Wired) (shows : p.Shows lost)
    (looped : (p.loop .encode none encodeServe ios).result = .ok p') :
    p'.Wired ∧ p'.Shows (lost + (min ios.length (p.queues .encode).contents.length -
      ((p.queues .netOut).capacity - 1 - (p.queues .netOut).contents.length))) := by
  induction ios generalizing p lost with
  | nil =>
      obtain rfl := Except.ok.inj looped
      rw [List.length_nil, Nat.zero_min, Nat.zero_sub]
      exact ⟨wired, shows⟩
  | cons io later ih =>
      unfold Pipeline.loop at looped
      cases contents : (p.queues .encode).contents with
      | nil =>
          simp only [pop_empty _ contents, Function.update_eq_self] at looped
          obtain rfl := Except.ok.inj looped
          rw [List.length_nil, Nat.min_zero, Nat.zero_sub]
          exact ⟨wired, shows⟩
      | cons id rest =>
          obtain ⟨within, queue, popped, shorter, capacity⟩ := queue_front p .encode id rest wired contents
          simp only [popped] at looped
          cases served : encodeServe io id (p.take .encode queue none) with
          | error fault =>
              rw [served] at looped
              cases looped
          | ok middle =>
              rw [served] at looped
              obtain ⟨still, behind, cells, result⟩ :=
                encode_turn p middle io id queue lost wired shows (shorter ▸ contents) capacity served
              rw [shorter] at behind
              rw [List.length_cons, List.length_cons]
              rcases result with ⟨full, lossy, ahead⟩ | ⟨room, lossless, ahead⟩
              · obtain ⟨done, shown⟩ := ih middle (lost + 1) still lossy looped
                rw [behind, cells, ahead] at shown
                refine ⟨done, ?_⟩
                convert shown using 1
                omega
              · obtain ⟨done, shown⟩ := ih middle lost still lossless looped
                rw [behind, cells, ahead, List.length_append, List.length_singleton] at shown
                refine ⟨done, ?_⟩
                convert shown using 1
                omega

theorem encode_meets (ios : List Io) (p : Pipeline) : (p.loop .encode none encodeServe ios).met = [] := by
  induction ios generalizing p with
  | nil => rfl
  | cons io later ih =>
      unfold Pipeline.loop
      split
      · rfl
      · split
        · rfl
        · exact ih _

theorem shows_unique (p : Pipeline) (lost more : Nat) (shows : p.Shows lost) (also : p.Shows more) : lost = more := by
  have same := Option.some.inj ((shows .netOut).symm.trans (also .netOut))
  simp only [excess, StageId.meter, if_true] at same
  omega

-- A call loses nothing, save that Encode needs room for what it moves.
def Pipeline.Fits (p : Pipeline) : StageCall → Prop
  | .process .encode _ => min 100 (p.queues .encode).len + (p.queues .netOut).len ≤ (p.queues .netOut).capacity - 1
  | _ => True

theorem round_sound (site : Site) (p : Pipeline) (call : StageCall) (sound : p.Sound) :
    (∀ p', (p.round site call).result = .ok p' → p'.Wired ∧ (p'.Shows 0 ↔ p.Fits call)) ∧
      ∀ value ∈ (p.round site call).met, value ≠ 0 := by
  have each (round : Round) (kept : (∀ p', round.result = .ok p' → p'.Sound) ∧ ∀ value ∈ round.met, value ≠ 0) :
      (∀ p', round.result = .ok p' → p'.Wired ∧ (p'.Shows 0 ↔ True)) ∧ ∀ value ∈ round.met, value ≠ 0 :=
    ⟨fun p' returned => ⟨(kept.1 p' returned).wired, iff_of_true (kept.1 p' returned).shows trivial⟩, kept.2⟩
  cases call with
  | netIn streams =>
      exact each _ ⟨fun p' returned => net_in_sound streams p p' sound returned, fun value member => by cases member⟩
  | process stage ios =>
      cases stage with
      | parse =>
          refine each _ (loop_sound .parse parseServe (fun io id p p' sound within served => ?_) (turns ios) p sound)
          exact with_conn_sound p p' _ io id _ (parse_sends io) sound within served
      | route =>
          refine each _ (loop_sound .route routeServe (fun io id p p' sound within served => ?_) (turns ios) p sound)
          exact with_conn_sound p p' _ io id _ route_sends sound within served
      | app =>
          refine each _ (loop_sound .app (appServe site) (fun io id p p' sound within served => ?_) (turns ios) p sound)
          exact with_conn_sound p p' _ io id _ (app_sends site) sound within served
      | netOut =>
          refine each _ (loop_sound .netOut netOutServe (fun io id p p' sound within served => ?_) (turns ios) p sound)
          exact with_conn_sound p p' _ io id _ (net_out_sends io) sound within served
      | encode =>
          refine ⟨fun p' returned => ?_, fun value member => ?_⟩
          · obtain ⟨wired, shown⟩ := encode_loop (turns ios) p p' 0 sound.wired sound.shows returned
            have bound := len_bound (p.queues .netOut)
            have hundred : (turns ios).length = 100 := by rw [turns, List.length_map, List.length_range]
            rw [contents_length, contents_length, hundred] at shown
            refine ⟨wired, fun none => ?_, fun fits => ?_⟩
            · have same := shows_unique p' 0 _ none shown
              simp only [Pipeline.Fits]
              omega
            · simp only [Pipeline.Fits] at fits
              convert shown using 1
              omega
          · rw [show (p.round site (.process .encode ios)).met = [] from encode_meets _ _] at member
            cases member

theorem new_sound (config : PipelineConfig) : (Pipeline.new config).Sound := by
  have empty (stage : StageId) : ((Pipeline.new config).queues stage).contents = [] := rfl
  refine ⟨⟨config.word, fun stage => ?_, fun stage id member => ?_⟩, fun stage => ?_⟩
  · have cells := config.cells stage
    have same : ((Pipeline.new config).queues stage).capacity = config.queueCapacity stage := rfl
    omega
  · rw [empty] at member
    cases member
  · cases stage <;> rfl

theorem pipeline_gauges_iff (site : Site) (config : PipelineConfig) (calls : List StageCall) :
    (∀ history p, Reached (Pipeline.step site) (.new config) calls history p → p.GaugesMatch) ∧
      (∀ before call p, before ++ [call] <+: calls → execute (Pipeline.step site) (.new config) before = some p →
        ∀ value ∈ (p.round site call).met, value ≠ 0) ↔
    ∀ before call p p', Taken (Pipeline.step site) (.new config) calls before call p p' → p.Fits call := by
  have onward (p p' : Pipeline) (call : StageCall) (sound : p.Sound) (taken : p.step site call = some p') :
      p'.Wired ∧ (p'.Shows 0 ↔ p.Fits call) := (round_sound site p call sound).1 p' (returned_of_option _ p' taken)
  have keeps (before : List StageCall) (call : StageCall) (p p' : Pipeline) (sound : p.Sound)
      (there : Taken (Pipeline.step site) (.new config) calls before call p p') (fits : p.Fits call) : p'.Sound := by
    obtain ⟨wired, shows⟩ := onward p p' call sound there.taken
    exact ⟨wired, shows.mpr fits⟩
  have kept := Runs.each_kept_iff (fun _ p => Pipeline.Sound p) (fun _ p => p.GaugesMatch) (fun _ _ _ _ => True)
    (fun _ p call _ => p.Fits call) (Pipeline.new config) calls (new_sound config)
    (fun _ p sound => (gauges_match_iff p).mpr sound.shows) keeps
    (fun _ call p p' sound there => by
      rw [and_true, gauges_match_iff]
      exact (onward p p' call sound there.taken).2)
  constructor
  · rintro ⟨every, _⟩
    exact kept.mp ⟨every, fun _ _ _ _ _ => trivial⟩
  · intro fits
    refine ⟨(kept.mpr fits).1, fun before call p within reached => ?_⟩
    have sound := Runs.reached_invariant (fun _ p => Pipeline.Sound p) (fun _ p call _ => p.Fits call) (Pipeline.new config) calls
      (new_sound config) keeps fits before p ⟨(List.prefix_append before [call]).trans within, reached⟩
    exact (round_sound site p call sound).2

def narrowConfig : PipelineConfig where
  slabCapacity := smallConfig.slabCapacity
  queueCapacity := fun stage => if stage = .netOut then 2 else 4
  word := smallConfig.word
  cells := fun stage => by cases stage <;> decide

def twoRequests : List StageCall :=
  [.netIn 2, .process .parse fun _ => readOnce "GET / HTTP/1.1\r\na:b\r\n\r\n", .process .route fun _ => ⟨[], []⟩,
    .process .app fun _ => ⟨[], []⟩, .process .encode fun _ => ⟨[], []⟩]

-- NetOut's queue has room for one of two ids. The other is gone, and counted.
theorem lost_id_still_counted : ∃ p, execute (Pipeline.step plainSite) (.new narrowConfig) twoRequests = some p ∧
    p.shown "net_out" = some 2 ∧ (p.queues .encode).len = 0 ∧ (p.queues .netOut).len = 1 ∧ ¬ p.GaugesMatch := by
  refine ⟨_, rfl, rfl, rfl, rfl, fun match_ => ?_⟩
  exact absurd match_.netOut (by decide)

end Ners.Server
