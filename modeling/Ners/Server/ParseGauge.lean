import Ners.Server.Gauges

set_option autoImplicit false

namespace Ners.Server

open Function (update)
open Runs (Reached Taken execute)
open Unsigned

def System.gauge (s : System) : Option UInt64 := s.metrics.currentQueueLen "parse"

-- A push of the accept loop whose gauge is not yet raised.
def System.pending (s : System) : Nat :=
  match s.acceptor with
  | .pushed _ => 1
  | _ => 0

-- No thread is between a queue operation and its metrics update. The accept
-- loop is the only thread that updates a queue gauge.
def System.Settled (s : System) : Prop := ∀ waiting, s.acceptor ≠ .pushed waiting

def System.Truthful (s : System) : Prop := ∃ n, s.gauge = some n ∧ n.toNat = (s.queues .parse).len

-- The parse executor has taken an id off its queue.
def Popped (site : Site) (start : System) (history : List Action) : Prop :=
  ∃ before t t', Taken (System.step site) start history before (.pop .parse) t t' ∧ (t.queues .parse).contents ≠ []

theorem settled_iff (s : System) : s.Settled ↔ s.pending = 0 := by
  unfold System.Settled System.pending
  cases s.acceptor <;> simp

theorem with_conn_queue_len (stage : StageId) (io : Io) (id : ConnId) (slab : ConnSlab) (metrics : MetricsCollector)
    (body : ConnState → MetricsCollector → Served) (stageId : String)
    (keeps : ∀ conn, (body conn metrics).metrics.currentQueueLen stageId = metrics.currentQueueLen stageId) :
    (withConn stage io id slab metrics body).metrics.currentQueueLen stageId = metrics.currentQueueLen stageId := by
  unfold withConn
  cases slab.get id with
  | none => rfl
  | some conn => exact keeps conn

theorem parse_queue_len (io : Io) (conn : ConnState) (metrics : MetricsCollector) (stageId : String) :
    (parseStageMulti io conn metrics).metrics.currentQueueLen stageId = metrics.currentQueueLen stageId := by
  unfold parseStageMulti
  dsimp only
  split
  · rfl
  · rfl
  · rfl
  · exact inc_errors_queue_len _ _ _

theorem net_out_queue_len (io : Io) (conn : ConnState) (metrics : MetricsCollector) (stageId : String) :
    (netOutStageMulti io conn metrics).metrics.currentQueueLen stageId = metrics.currentQueueLen stageId := by
  unfold netOutStageMulti
  split
  · split
    · rfl
    · dsimp only
      split <;> rfl
    · exact inc_errors_queue_len _ _ _
  · rfl

-- No stage of the multi-core server changes a queue gauge.
theorem process_queue_len (site : Site) (stage : StageId) (io : Io) (id : ConnId) (slab : ConnSlab) (metrics : MetricsCollector)
    (stageId : String) :
    (processOne site stage io id slab metrics).metrics.currentQueueLen stageId = metrics.currentQueueLen stageId := by
  cases stage with
  | parse => exact with_conn_queue_len _ _ _ _ _ _ _ fun conn => parse_queue_len io conn metrics stageId
  | route => exact with_conn_queue_len _ _ _ _ _ _ _ fun _ => rfl
  | app => exact with_conn_queue_len _ _ _ _ _ _ _ fun _ => rfl
  | encode => rfl
  | netOut => exact with_conn_queue_len _ _ _ _ _ _ _ fun conn => net_out_queue_len io conn metrics stageId

-- Everything a step can do to the parse queue and its gauge.
inductive Shifts (s s' : System) (a : Action) : Prop where
  | level (contents : (s'.queues .parse).contents = (s.queues .parse).contents) (gauge : s'.gauge = s.gauge)
      (pending : s'.pending = s.pending) (action : a = .pop .parse → (s.queues .parse).contents = [])
  | pushed (id : ConnId) (contents : (s'.queues .parse).contents = (s.queues .parse).contents ++ [id])
      (gauge : s'.gauge = s.gauge) (before : s.pending = 0) (after : s'.pending = 1) (action : a = .acceptorPush)
  | raised (contents : (s'.queues .parse).contents = (s.queues .parse).contents) (gauge : s'.gauge = s.gauge.map (· + 1))
      (before : s.pending = 1) (after : s'.pending = 0) (action : a = .acceptorGauge)
  | popped (id : ConnId) (contents : (s.queues .parse).contents = id :: (s'.queues .parse).contents)
      (gauge : s'.gauge = s.gauge) (pending : s'.pending = s.pending) (action : a = .pop .parse)

theorem pop_shifts (site : Site) (s s' : System) (stage : StageId) (real : s.Real) (stepped : Stepped site s (.pop stage) s') :
    Shifts s s' (.pop stage) := by
  have elsewhere (apart : stage ≠ .parse) (queue : RingQueue) :
      (update s.queues stage queue .parse).contents = (s.queues .parse).contents := by
    rw [Function.update_of_ne (Ne.symm apart)]
  cases stepped with
  | foundNone _ queue idle popped =>
      obtain ⟨empty, rfl⟩ := popped_none _ queue (real stage) popped
      refine .level ?_ rfl rfl fun same => by rwa [Action.pop.inj same] at empty
      simp only [Function.update_eq_self]
  | popped _ id queue idle popped =>
      by_cases mine : stage = .parse
      · subst mine
        refine .popped id ?_ rfl rfl rfl
        simp only [Function.update_self]
        exact popped_some _ queue id (real .parse) popped
      · exact .level (elsewhere mine _) rfl rfl fun same => absurd (Action.pop.inj same) mine

theorem output_not_parse (stage output : StageId) (goes : stage.output = some output) : StageId.parse ≠ output := by
  rintro rfl
  cases stage <;> cases goes

theorem step_shifts (site : Site) (s s' : System) (a : Action) (real : s.Real) (taken : s.step site a = some s') :
    Shifts s s' a := by
  cases step_cases site s s' a taken with
  | accepted count idle => exact .level rfl rfl (by rw [System.pending, System.pending, idle]) (by simp)
  | refused waiting slab idle free inserted => exact .level rfl rfl (by rw [System.pending, System.pending, idle]) (by simp)
  | issued waiting id slab idle free inserted => exact .level rfl rfl (by rw [System.pending, System.pending, idle]) (by simp)
  | acceptorDied id waiting fault inserted pushed =>
      exact .level rfl rfl (by rw [System.pending, System.pending, inserted]) (by simp)
  | acceptorLost id back waiting queue inserted pushed =>
      exact .level rfl rfl (by rw [System.pending, System.pending, inserted]) (by simp)
  | acceptorPushed id waiting queue inserted pushed =>
      refine .pushed id ?_ rfl (by rw [System.pending, inserted]) rfl rfl
      simp only [Function.update_self]
      exact (push_stored _ queue id pushed).2
  | gauged waiting pushed =>
      refine .raised rfl ?_ (by rw [System.pending, pushed]) rfl rfl
      exact (inc_queue_len s.metrics "parse" "parse").trans (if_pos rfl)
  | foundNone stage queue idle popped => exact pop_shifts site s _ stage real (.foundNone stage queue idle popped)
  | popped stage id queue idle popped => exact pop_shifts site s _ stage real (.popped stage id queue idle popped)
  | unwound stage io id fault popped free next =>
      exact .level rfl (process_queue_len site stage io id s.slab s.metrics "parse") rfl (by simp)
  | processed stage io id next popped free returned =>
      exact .level rfl (process_queue_len site stage io id s.slab s.metrics "parse") rfl (by simp)
  | finished => exact .level rfl rfl rfl (by simp)
  | panicked => exact .level rfl rfl rfl (by simp)
  | passed stage output id result queue holding goes pushed =>
      have elsewhere := Function.update_of_ne (output_not_parse stage output goes) queue s.queues
      exact .level (congrArg RingQueue.contents elsewhere) rfl rfl (by simp)
  | unlocked => exact .level rfl rfl rfl (by simp)

-- Before the first id is popped, what the gauge shows and a push still to be
-- counted make up the queue.
structure Balanced (s : System) : Prop where
  shown : ∃ n, s.gauge = some n ∧ n.toNat + s.pending = (s.queues .parse).contents.length

-- After it, the queue is shorter than what was counted.
structure Behind (s : System) : Prop where
  unsettled : s.pending = 1
  shown : ∃ n, s.gauge = some n ∧ (s.queues .parse).contents.length < n.toNat + 1 ∧ n.toNat + 1 < 2 ^ 64

-- A settled state has shown a wrong gauge after a pop.
def Exposed (site : Site) (start : System) (history : List Action) : Prop :=
  ∃ earlier s, earlier <+: history ∧ execute (System.step site) start earlier = some s ∧ s.Settled ∧ ¬ s.Truthful ∧
    Popped site start earlier

-- How far a run has come.
inductive Told (site : Site) (start : System) (history : List Action) (s : System) : Prop where
  | balanced (never : ¬ Popped site start history) (balanced : Balanced s)
  | behind (popped : Popped site start history) (behind : Behind s)
  | exposed (exposed : Exposed site start history)

theorem popped_snoc (site : Site) (start s s' : System) (history : List Action) (a : Action)
    (reached : execute (System.step site) start history = some s) (taken : s.step site a = some s') :
    Popped site start (history ++ [a]) ↔
      Popped site start history ∨ (a = .pop .parse ∧ (s.queues .parse).contents ≠ []) := by
  constructor
  · rintro ⟨before, t, t', there, queued⟩
    rcases List.prefix_concat_iff.mp there.within with whole | within
    · obtain ⟨rfl, same⟩ := List.append_inj' whole rfl
      obtain rfl := Option.some.inj (there.reached.symm.trans reached)
      exact .inr ⟨(List.singleton_inj.mp same).symm, queued⟩
    · exact .inl ⟨before, t, t', ⟨within, there.reached, there.taken⟩, queued⟩
  · rintro (⟨before, t, t', there, queued⟩ | ⟨rfl, queued⟩)
    · exact ⟨before, t, t', ⟨there.within.trans (List.prefix_append history [a]), there.reached, there.taken⟩, queued⟩
    · exact ⟨history, s, s', ⟨List.prefix_rfl, reached, taken⟩, queued⟩

theorem parse_queue_bound (site : Site) (s : System) (t : Tickets) (ledger : Ledger site s t) :
    (s.queues .parse).contents.length < 2 ^ 64 := by
  have distinct := ledger.idsApart.each (.queue .parse)
  rw [ledger.ids] at distinct
  have inside : (s.queues .parse).contents ⊆ List.range s.slab.capacity := by
    intro id member
    have listed : id ∈ (t (.queue .parse)).map Prod.fst := by
      rw [ledger.ids]
      exact member
    obtain ⟨ticket, here, rfl⟩ := List.mem_map.mp listed
    obtain ⟨conn, found, _⟩ := ledger.standing _ ticket here
    exact List.mem_range.mpr (get_within s.slab ticket.1 conn found)
  have short := (List.subperm_of_subset distinct inside).length_le
  rw [List.length_range] at short
  exact Nat.lt_of_le_of_lt short ledger.word

theorem untruthful (s : System) (n : UInt64) (shown : s.gauge = some n) (more : (s.queues .parse).contents.length < n.toNat) :
    ¬ s.Truthful := by
  rintro ⟨m, also, same⟩
  obtain rfl := Option.some.inj (shown.symm.trans also)
  rw [← contents_length] at same
  omega

theorem pending_cases (s : System) : s.pending = 0 ∨ s.pending = 1 := by
  unfold System.pending
  split
  · exact .inr rfl
  · exact .inl rfl

-- Before any pop the gauge is what the queue holds, less what is still to be
-- counted.
theorem balanced_told (site : Site) (start s s' : System) (history : List Action) (a : Action) (real : s.Real)
    (bound : (s.queues .parse).contents.length < 2 ^ 64) (never : ¬ Popped site start history) (balanced : Balanced s)
    (reached : execute (System.step site) start history = some s) (taken : s.step site a = some s') :
    Told site start (history ++ [a]) s' := by
  have popped := popped_snoc site start s s' history a reached taken
  obtain ⟨n, shown, sum⟩ := balanced.shown
  cases step_shifts site s s' a real taken with
  | level contents gauge pending action =>
      refine .balanced (fun again => ?_) ⟨n, gauge.trans shown, by rw [pending, contents, sum]⟩
      exact (popped.mp again).elim never fun ⟨pop, queued⟩ => queued (action pop)
  | pushed id contents gauge before after action =>
      refine .balanced (fun again => ?_) ⟨n, gauge.trans shown, ?_⟩
      · exact (popped.mp again).elim never fun ⟨pop, _⟩ => by cases action.symm.trans pop
      · rw [contents, List.length_append, List.length_singleton]
        omega
  | raised contents gauge before after action =>
      refine .balanced (fun again => ?_) ⟨n + 1, by rw [gauge, shown, Option.map_some], ?_⟩
      · exact (popped.mp again).elim never fun ⟨pop, _⟩ => by cases action.symm.trans pop
      · rw [inc_exact n (by omega), contents, after]
        omega
  | popped id contents gauge pending action =>
      have now := popped.mpr (.inr ⟨action, by simp [contents]⟩)
      rw [contents, List.length_cons] at sum bound
      rcases pending_cases s' with settled | unsettled
      · refine .exposed ⟨_, s', List.prefix_rfl, ?_, (settled_iff s').mpr settled, ?_, now⟩
        · rw [Runs.execute_snoc, reached]
          exact taken
        · exact untruthful s' n (gauge.trans shown) (by omega)
      · exact .behind now ⟨unsettled, n, gauge.trans shown, by omega, by omega⟩

-- Once behind, a step keeps the gauge ahead of the queue or shows it.
theorem behind_told (site : Site) (start s s' : System) (history : List Action) (a : Action) (real : s.Real)
    (already : Popped site start history) (behind : Behind s) (reached : execute (System.step site) start history = some s)
    (taken : s.step site a = some s') : Told site start (history ++ [a]) s' := by
  have now := (popped_snoc site start s s' history a reached taken).mpr (.inl already)
  obtain ⟨unsettled, n, shown, short, word⟩ := behind
  cases step_shifts site s s' a real taken with
  | level contents gauge pending _ =>
      exact .behind now ⟨pending.trans unsettled, n, gauge.trans shown, contents ▸ short, word⟩
  | pushed id contents gauge before after action =>
      rw [before] at unsettled
      cases unsettled
  | raised contents gauge before after action =>
      refine .exposed ⟨_, s', List.prefix_rfl, ?_, (settled_iff s').mpr after, ?_, now⟩
      · rw [Runs.execute_snoc, reached]
        exact taken
      · refine untruthful s' (n + 1) (by rw [gauge, shown, Option.map_some]) ?_
        rw [contents, inc_exact n word]
        exact short
  | popped id contents gauge pending action =>
      rw [contents, List.length_cons] at short
      exact .behind now ⟨pending.trans unsettled, n, gauge.trans shown, by omega, word⟩

theorem told_step (site : Site) (start s s' : System) (t : Tickets) (history : List Action) (a : Action)
    (ledger : Ledger site s t) (told : Told site start history s)
    (reached : execute (System.step site) start history = some s) (taken : s.step site a = some s') :
    Told site start (history ++ [a]) s' := by
  have real := ledger_real site s t ledger
  cases told with
  | balanced never balanced =>
      have bound := parse_queue_bound site s t ledger
      exact balanced_told site start s s' history a real bound never balanced reached taken
  | behind already behind => exact behind_told site start s s' history a real already behind reached taken
  | exposed exposed =>
      obtain ⟨earlier, t, within, rest⟩ := exposed
      exact .exposed ⟨earlier, t, within.trans (List.prefix_append history [a]), rest⟩

theorem run_told (site : Site) (config : OrchestratorConfig) (history : List Action) (s : System)
    (reached : execute (System.step site) (System.new config) history = some s) : Told site (System.new config) history s := by
  induction history using List.reverseRecOn generalizing s with
  | nil =>
      obtain rfl := Option.some.inj reached
      refine .balanced (fun ⟨before, t, t', there, _⟩ => Runs.taken_nil _ _ _ _ _ there) ⟨0, rfl, ?_⟩
      rfl
  | append_singleton earlier a ih =>
      rw [Runs.execute_snoc, Option.bind_eq_some_iff] at reached
      obtain ⟨before, first, taken⟩ := reached
      have run := Runs.execute_run _ _ before earlier .start first
      obtain ⟨t, followed⟩ := ticketed site config before run
      exact told_step site _ before s t earlier a (run_ledger site config before t followed) (ih before first) first taken

theorem parse_gauge_truthful_iff (site : Site) (config : OrchestratorConfig) (actions : List Action) :
    (∀ history s, Reached (System.step site) (System.new config) actions history s → s.Settled → s.Truthful) ↔
      ∀ history s, Reached (System.step site) (System.new config) actions history s → s.Settled →
        ¬ Popped site (System.new config) history := by
  constructor
  · intro every history s there settled popped
    cases run_told site config history s there.reached with
    | balanced never _ => exact never popped
    | behind _ behind =>
        have none := (settled_iff s).mp settled
        rw [behind.unsettled] at none
        cases none
    | exposed exposed =>
        obtain ⟨earlier, t, within, reached, calm, wrong, _⟩ := exposed
        exact wrong (every earlier t ⟨within.trans there.within, reached⟩ calm)
  · intro every history s there settled
    cases run_told site config history s there.reached with
    | balanced _ balanced =>
        obtain ⟨n, shown, sum⟩ := balanced.shown
        rw [(settled_iff s).mp settled, contents_length] at sum
        exact ⟨n, shown, sum⟩
    | behind popped _ => exact absurd popped (every history s there settled)
    | exposed exposed =>
        obtain ⟨earlier, t, within, reached, calm, _, popped⟩ := exposed
        exact absurd popped (every earlier t ⟨within.trans there.within, reached⟩ calm)

-- One connection comes in and its id is popped: the gauge still shows one.
theorem popped_id_still_counted :
    ∃ s, execute (System.step plainSite) (System.new smallConfig) (.accept 1 :: enrol ++ finish .parse ⟨[], []⟩) = some s ∧
      s.Settled ∧ s.executors .parse = .idle ∧ s.gauge = some 1 ∧ (s.queues .parse).len = 0 ∧ ¬ s.Truthful := by
  refine ⟨_, rfl, ?_, rfl, rfl, rfl, ?_⟩
  · exact (settled_iff _).mpr rfl
  · exact untruthful _ 1 rfl (by decide)

end Ners.Server
