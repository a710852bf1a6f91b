import Ners.Server.Adrift
import Ners.Server.Slots

set_option autoImplicit false

namespace Ners.Server

open Runs (Run anyStep)

-- What a collector has counted: the requests, and the errors of each stage. No
-- stage was timed.
structure Counted (m : MetricsCollector) (requests : Nat) (errors : String → Nat) : Prop where
  requests : m.totalRequests = UInt64.ofNat requests
  stages : ∀ id stage, m.stages.lookup id = some stage →
    stage.processedCount = 0 ∧ stage.latencySumNs = 0 ∧ stage.latencyMaxNs = 0 ∧ stage.errors = UInt64.ofNat (errors id)

theorem stages_new (ids : List String) (stages : AList fun _ : String => StageMetrics)
    (each : ∀ id stage, stages.lookup id = some stage → stage = .new id) (id : String) (stage : StageMetrics)
    (found : (ids.foldl (fun stages id => stages.insert id (.new id)) stages).lookup id = some stage) : stage = .new id := by
  induction ids generalizing stages with
  | nil => exact each id stage found
  | cons first later ih =>
      refine ih (stages.insert first (.new first)) (fun other stage found => ?_) found
      by_cases mine : other = first
      · subst mine
        rw [AList.lookup_insert] at found
        exact (Option.some.inj found).symm
      · rw [AList.lookup_insert_ne mine] at found
        exact each other stage found

theorem new_counted : Counted .new 0 fun _ => 0 := by
  refine ⟨rfl, fun id stage found => ?_⟩
  obtain rfl := stages_new _ ∅ (fun id stage found => by cases (AList.lookup_empty id).symm.trans found) id stage found
  exact ⟨rfl, rfl, rfl, rfl⟩

theorem counted_update (m : MetricsCollector) (requests : Nat) (errors errors' : String → Nat) (stageId : String)
    (f : StageMetrics → StageMetrics) (counted : Counted m requests errors) (others : ∀ id, id ≠ stageId → errors' id = errors id)
    (counts : ∀ stage, (f stage).errors = stage.errors + UInt64.ofNat (errors' stageId - errors stageId))
    (grows : errors stageId ≤ errors' stageId)
    (untimed : ∀ stage, (f stage).processedCount = stage.processedCount ∧ (f stage).latencySumNs = stage.latencySumNs ∧
      (f stage).latencyMaxNs = stage.latencyMaxNs) : Counted (m.update stageId f) requests errors' := by
  refine ⟨?_, fun id stage found => ?_⟩
  · rw [← counted.requests]
    unfold MetricsCollector.update
    split <;> rfl
  · rw [update_lookup] at found
    split at found
    · rename_i mine
      subst mine
      obtain ⟨before, there, rfl⟩ := Option.map_eq_some_iff.mp found
      obtain ⟨processed, sum, max, count⟩ := counted.stages stageId before there
      obtain ⟨sameProcessed, sameSum, sameMax⟩ := untimed before
      refine ⟨sameProcessed.trans processed, sameSum.trans sum, sameMax.trans max, ?_⟩
      rw [counts, count, ← UInt64.ofNat_add, Nat.add_sub_cancel' grows]
    · rename_i other
      rw [others id (Ne.symm other)]
      exact counted.stages id stage found

def raised (errors : String → Nat) (stageId : String) (more : Nat) (id : String) : Nat :=
  if id = stageId then errors id + more else errors id

theorem raised_none (errors : String → Nat) (stageId : String) : raised errors stageId 0 = errors := by
  funext id
  rw [raised, Nat.add_zero, ite_self]

theorem counted_inc_errors (m : MetricsCollector) (requests : Nat) (errors : String → Nat) (stageId : String)
    (counted : Counted m requests errors) : Counted (m.incErrors stageId) requests (raised errors stageId 1) := by
  refine counted_update m requests errors _ stageId _ counted (fun id other => if_neg other) (fun stage => ?_) ?_
    fun stage => ⟨rfl, rfl, rfl⟩
  · rw [raised, if_pos rfl, Nat.add_sub_cancel_left]
    rfl
  · rw [raised, if_pos rfl]
    exact Nat.le_add_right _ _

theorem counted_inc_queue (m : MetricsCollector) (requests : Nat) (errors : String → Nat) (stageId : String)
    (counted : Counted m requests errors) : Counted (m.incQueueLen stageId) requests errors := by
  refine counted_update m requests errors _ stageId _ counted (fun _ _ => rfl) (fun stage => ?_) (Nat.le_refl _)
    fun stage => ⟨rfl, rfl, rfl⟩
  rw [Nat.sub_self]
  exact (UInt64.add_zero _).symm

-- What the bytes of a client are to the parser, and what its visits say of it.
def refuses (bytes : Bytes) : Bool :=
  match Http.parse bytes with
  | .ok (.error (.invalid _)) => true
  | _ => false

def answered (visits : List (StageId × Io)) : Bool := visits.any fun visit => visit.1 = .app

def broken (site : Site) (visits : List (StageId × Io)) : Bool :=
  match visits with
  | [(.parse, read), (.route, _), (.app, _), (.netOut, write)] =>
      match Http.parse (bytesRead read) with
      | .ok (.ok (request, _)) =>
          match writeAll write (responseTo site request.path) 0 with
          | .ok (_, .error _) => true
          | _ => false
      | _ => false
  | _ => false

def refused (visits : List (StageId × Io)) : Bool := refuses (expectedReceived visits)

-- What one visit adds to the counters is what it adds to the accounts of its
-- socket.
structure Accounts (site : Site) (visits after : List (StageId × Io)) (m m' : MetricsCollector) : Prop where
  counted : ∃ requests rejected cut : Nat,
    (answered visits).toNat + requests = (answered after).toNat ∧ (refused visits).toNat + rejected = (refused after).toNat ∧
      (broken site visits).toNat + cut = (broken site after).toNat ∧
      ∀ total errors, Counted m total errors →
        Counted m' (total + requests) (raised (raised errors "parse" rejected) "net_out" cut)

theorem accounts_same (site : Site) (visits after : List (StageId × Io)) (m : MetricsCollector)
    (answeredSame : answered after = answered visits) (refusedSame : refused after = refused visits)
    (brokenSame : broken site after = broken site visits) : Accounts site visits after m m := by
  refine ⟨0, 0, 0, by rw [answeredSame]; rfl, by rw [refusedSame]; rfl, by rw [brokenSame]; rfl, fun total errors counted => ?_⟩
  rw [raised_none, raised_none]
  exact counted

theorem parse_accounts (site : Site) (socket : Socket) (io : Io) (visits : List (StageId × Io)) (conn : ConnState)
    (metrics : MetricsCollector) (standing : Standing site socket .fresh visits conn) :
    Accounts site visits (visits ++ [(.parse, io)]) metrics (parseStageMulti io conn metrics).metrics := by
  cases standing
  have silent : refused [] = false := by decide
  have heard : refused [(.parse, io)] = refuses (bytesRead io) := rfl
  have buffer : (readAll io []).1 = bytesRead io := rfl
  simp only [parseStageMulti, ConnState.new, Option.isSome_some, if_true, buffer, List.nil_append]
  rcases parsed : Http.parse (bytesRead io) with fault | error | ⟨request, n⟩
  · refine accounts_same site _ _ metrics rfl ?_ rfl
    rw [silent, heard, refuses, parsed]
  · cases error with
    | incomplete => exact accounts_same site _ _ metrics rfl (by rw [silent, heard, refuses, parsed]) rfl
    | invalid reason =>
        refine ⟨0, 1, 0, rfl, ?_, rfl, fun total errors counted => ?_⟩
        · rw [silent, heard, refuses, parsed]
          rfl
        · rw [raised_none]
          exact counted_inc_errors metrics total errors "parse" counted
  · exact accounts_same site _ _ metrics rfl (by rw [silent, heard, refuses, parsed]) rfl

theorem route_accounts (site : Site) (socket : Socket) (io : Io) (visits : List (StageId × Io)) (conn : ConnState)
    (metrics : MetricsCollector) (standing : Standing site socket .parsed visits conn) :
    Accounts site visits (visits ++ [(.route, io)]) metrics (routeStageMulti conn metrics).metrics := by
  cases standing with
  | parsed read request n parse => exact accounts_same site _ _ metrics rfl rfl rfl

theorem app_accounts (site : Site) (socket : Socket) (io : Io) (visits : List (StageId × Io)) (conn : ConnState)
    (metrics : MetricsCollector) (standing : Standing site socket .routed visits conn) :
    Accounts site visits (visits ++ [(.app, io)]) metrics (appStageMulti site conn metrics).metrics := by
  cases standing with
  | routed read route request n parse =>
      refine ⟨1, 0, 0, rfl, rfl, rfl, fun total errors counted => ?_⟩
      rw [raised_none, raised_none]
      refine ⟨?_, counted.stages⟩
      rw [UInt64.ofNat_add, ← counted.requests]
      rfl

theorem net_out_accounts (site : Site) (socket : Socket) (io : Io) (visits : List (StageId × Io)) (conn : ConnState)
    (metrics : MetricsCollector) (standing : Standing site socket .answered visits conn) :
    Accounts site visits (visits ++ [(.netOut, io)]) metrics (netOutStageMulti io conn metrics).metrics := by
  cases standing with
  | answered read route app request n parse =>
      obtain ⟨count, result, written⟩ := write_all_ok io (responseTo site request.path) 0 (Nat.zero_le _)
      have stream : (answeredConn site socket request).stream.isSome = true := rfl
      have buffer : (answeredConn site socket request).writeBuf = responseTo site request.path := rfl
      have start : (answeredConn site socket request).bytesWritten = 0 := rfl
      simp only [netOutStageMulti, stream, if_true, buffer, start, written]
      cases result with
      | error e =>
          refine ⟨0, 0, 1, rfl, rfl, ?_, fun total errors counted => ?_⟩
          · simp only [List.cons_append, List.nil_append, broken, parse, written]
            rfl
          · rw [raised_none]
            exact counted_inc_errors _ total errors "net_out" ⟨counted.requests, counted.stages⟩
      | ok m =>
          have whole : broken site ([(.parse, read), (.route, route), (.app, app)] ++ [(.netOut, io)]) = false := by
            simp only [List.cons_append, List.nil_append, broken, parse, written]
          have same (m : MetricsCollector) (kept : m.totalRequests = metrics.totalRequests) (stages : m.stages = metrics.stages) :
              Accounts site [(.parse, read), (.route, route), (.app, app)]
                ([(.parse, read), (.route, route), (.app, app)] ++ [(.netOut, io)]) metrics m := by
            refine ⟨0, 0, 0, rfl, rfl, by rw [whole]; rfl, fun total errors counted => ?_⟩
            rw [raised_none, raised_none]
            exact ⟨kept.trans counted.requests, stages ▸ counted.stages⟩
          simp only
          split
          · exact same _ rfl rfl
          · exact same _ rfl rfl

-- How many of the sockets taken up so far have a journal of some kind.
def countIn (kind : List (StageId × Io) → Bool) (accepted : Nat) (log : List Visit) : Nat :=
  (List.range accepted).countP fun socket => kind (journal socket log)

theorem count_changed (before after : Nat → Bool) (n k : Nat) (known : k < n) (same : ∀ j, j ≠ k → after j = before j) :
    (List.range n).countP after + (before k).toNat = (List.range n).countP before + (after k).toNat := by
  induction n with
  | zero => exact absurd known (Nat.not_lt_zero k)
  | succ n ih =>
      have one (p : Nat → Bool) : (List.range (n + 1)).countP p = (List.range n).countP p + (p n).toNat := by
        rw [List.range_succ, List.countP_append, List.countP_singleton]
        cases p n <;> rfl
      rw [one, one]
      by_cases last : k = n
      · subst last
        have earlier : (List.range k).countP after = (List.range k).countP before :=
          List.countP_congr fun j member => by rw [same j (Nat.ne_of_lt (List.mem_range.mp member))]
        omega
      · have rest := ih (by omega)
        rw [same n (Ne.symm last)]
        omega

theorem count_visited (kind : List (StageId × Io) → Bool) (accepted : Nat) (log : List Visit) (visit : Visit)
    (known : visit.socket < accepted) :
    countIn kind accepted (log ++ [visit]) + (kind (journal visit.socket log)).toNat =
      countIn kind accepted log + (kind (journal visit.socket log ++ [(visit.stage, visit.io)])).toNat := by
  have changed := count_changed (fun socket => kind (journal socket log)) (fun socket => kind (journal socket (log ++ [visit])))
    accepted visit.socket known fun socket other => by
      rw [journal_append, (visit_elsewhere socket visit (Ne.symm other)).1, List.append_nil]
  rw [journal_append, (visit_here visit).1] at changed
  exact changed

theorem count_accepted (kind : List (StageId × Io) → Bool) (accepted : Nat) (log : List Visit) (none : kind [] = false)
    (logged : ∀ visit ∈ log, visit.socket < accepted) : countIn kind (accepted + 1) log = countIn kind accepted log := by
  have untold : journal accepted log = [] := unvisited _ _ fun visit member => Nat.ne_of_lt (logged visit member)
  rw [countIn, List.range_succ, List.countP_append, List.countP_singleton, untold, none]
  rfl

-- Errors are counted at two of the stages.
def errorsIn (site : Site) (accepted : Nat) (log : List Visit) : String → Nat :=
  raised (raised (fun _ => 0) "parse" (countIn refused accepted log)) "net_out" (countIn (broken site) accepted log)

def Truthful (site : Site) (s : System) : Prop :=
  Counted s.metrics (countIn answered s.accepted s.log) (errorsIn site s.accepted s.log)

theorem raised_more (parse netOut moreParse moreNetOut : Nat) :
    raised (raised (raised (raised (fun _ => 0) "parse" parse) "net_out" netOut) "parse" moreParse) "net_out" moreNetOut =
      raised (raised (fun _ => 0) "parse" (parse + moreParse)) "net_out" (netOut + moreNetOut) := by
  funext id
  unfold raised
  by_cases parses : id = "parse"
  · subst parses
    simp
  · by_cases sends : id = "net_out"
    · subst sends
      simp
    · simp [parses, sends]

theorem visit_truthful (site : Site) (accepted : Nat) (log : List Visit) (visit : Visit) (m m' : MetricsCollector)
    (known : visit.socket < accepted) (counted : Counted m (countIn answered accepted log) (errorsIn site accepted log))
    (accounts : Accounts site (journal visit.socket log) (journal visit.socket log ++ [(visit.stage, visit.io)]) m m') :
    Counted m' (countIn answered accepted (log ++ [visit])) (errorsIn site accepted (log ++ [visit])) := by
  obtain ⟨requests, rejected, cut, answers, refusals, breaks, after⟩ := accounts.counted
  have answered := count_visited answered accepted log visit known
  have refused := count_visited refused accepted log visit known
  have broken := count_visited (broken site) accepted log visit known
  have more := after _ _ counted
  rw [errorsIn, raised_more] at more
  rw [errorsIn]
  convert more using 3 <;> omega

theorem with_conn_metrics (stage : StageId) (io : Io) (id : ConnId) (slab : ConnSlab) (metrics : MetricsCollector)
    (body : ConnState → MetricsCollector → Served) (conn : ConnState) (found : slab.get id = some conn) :
    (withConn stage io id slab metrics body).metrics = (body conn metrics).metrics := by
  simp only [withConn, found]

theorem process_truthful (site : Site) (s : System) (t : Tickets) (stage : StageId) (io : Io) (id : ConnId) (ledger : Ledger site s t)
    (popped : s.executors stage = .popped id) (truthful : Truthful site s) :
    Counted (processOne site stage io id s.slab s.metrics).metrics
      (countIn answered s.accepted (s.log ++ (processOne site stage io id s.slab s.metrics).visits))
      (errorsIn site s.accepted (s.log ++ (processOne site stage io id s.slab s.metrics).visits)) := by
  obtain ⟨socket, later, shape, _⟩ := ledger_front site s t _ id [] ledger ((popped_executor s stage id).mpr popped)
  have here : (id, socket) ∈ t (.popped stage) := shape ▸ List.mem_cons_self
  obtain ⟨conn, found, standing⟩ := ledger.standing _ _ here
  have known : socket < s.accepted := ledger.issued _ _ here
  have stream := standing_stream site socket _ _ conn standing
  have turn (body : ConnState → MetricsCollector → Served)
      (accounts : Accounts site (journal socket s.log) (journal socket s.log ++ [(stage, io)]) s.metrics (body conn s.metrics).metrics) :
      Counted (withConn stage io id s.slab s.metrics body).metrics
        (countIn answered s.accepted (s.log ++ (withConn stage io id s.slab s.metrics body).visits))
        (errorsIn site s.accepted (s.log ++ (withConn stage io id s.slab s.metrics body).visits)) := by
    have visits := (with_conn_found stage io id s.slab s.metrics body conn found ledger.slab).2.2.2.2
    rw [stream] at visits
    rw [visits, with_conn_metrics stage io id s.slab s.metrics body conn found]
    exact visit_truthful site s.accepted s.log ⟨socket, stage, io, _, _⟩ s.metrics _ known truthful accounts
  cases stage with
  | parse => exact turn _ (parse_accounts site socket io _ conn s.metrics standing)
  | route => exact turn _ (route_accounts site socket io _ conn s.metrics standing)
  | app => exact turn _ (app_accounts site socket io _ conn s.metrics standing)
  | netOut => exact turn _ (net_out_accounts site socket io _ conn s.metrics standing)
  | encode =>
      rw [processOne, List.append_nil]
      exact truthful

theorem step_truthful (site : Site) (s s' : System) (t : Tickets) (a : Action) (ledger : Ledger site s t) (truthful : Truthful site s)
    (taken : s.step site a = some s') : Truthful site s' := by
  have onward (m : MetricsCollector) (counted : Counted m (countIn answered s.accepted s.log) (errorsIn site s.accepted s.log)) :
      Counted m (countIn answered (s.accepted + 1) s.log) (errorsIn site (s.accepted + 1) s.log) := by
    have silent : refused [] = false := by decide
    rw [errorsIn, count_accepted answered _ _ rfl ledger.logged, count_accepted refused _ _ silent ledger.logged,
      count_accepted (broken site) _ _ rfl ledger.logged]
    exact counted
  cases step_cases site s s' a taken with
  | refused waiting slab idle free inserted => exact onward _ truthful
  | issued waiting id slab idle free inserted => exact onward _ ⟨truthful.requests, truthful.stages⟩
  | gauged waiting pushed => exact counted_inc_queue _ _ _ "parse" truthful
  | unwound stage io id fault popped free next => exact process_truthful site s t stage io id ledger popped truthful
  | processed stage io id next popped free returned => exact process_truthful site s t stage io id ledger popped truthful
  | accepted | acceptorDied | acceptorLost | acceptorPushed | foundNone | popped | finished | panicked | passed | unlocked =>
      exact truthful

theorem run_truthful (site : Site) (config : OrchestratorConfig) (s : System) (t : Tickets) (run : TicketedRun site config s t) :
    Truthful site s := by
  have both := Runs.run_invariant (fun st => Ledger site st.1 st.2 ∧ Truthful site st.1) _ (s, t) run
    ⟨new_ledger site config, ?_⟩ ?_
  · exact both.2
  · have none : errorsIn site 0 [] = fun _ => 0 := by
      funext id
      simp [errorsIn, raised, countIn]
    rw [Truthful]
    change Counted .new 0 (errorsIn site 0 [])
    rw [none]
    exact new_counted
  · rintro ⟨s, t⟩ a st' ⟨ledger, truthful⟩ _ taken
    obtain ⟨s', stepped, rfl⟩ := Option.map_eq_some_iff.mp taken
    exact ⟨ledger_step site s s' t a ledger stepped, step_truthful site s s' t a ledger truthful stepped⟩

def System.clients (s : System) (kind : Socket → Bool) : UInt64 := UInt64.ofNat ((List.range s.accepted).countP kind)

-- The counters that a snapshot of the multi-core server shows.
theorem counters_truthful (site : Site) (config : OrchestratorConfig) (s : System)
    (run : Run (System.step site) anyStep (System.new config) s) :
    s.metrics.totalRequests = s.clients (fun socket => answered (journal socket s.log)) ∧
      ∀ id stage, s.metrics.stages.lookup id = some stage →
        stage.processedCount = 0 ∧ stage.latencySumNs = 0 ∧ stage.latencyMaxNs = 0 ∧
          stage.errors =
            if id = "parse" then s.clients (fun socket => refuses (receivedOn socket s.log))
            else if id = "net_out" then s.clients (fun socket => broken site (journal socket s.log))
            else 0 := by
  obtain ⟨t, ticketed⟩ := ticketed site config s run
  have ledger := run_ledger site config s t ticketed
  obtain ⟨requests, stages⟩ := run_truthful site config s t ticketed
  refine ⟨requests, fun id stage found => ?_⟩
  obtain ⟨processed, sum, max, errors⟩ := stages id stage found
  refine ⟨processed, sum, max, errors.trans ?_⟩
  have heard : UInt64.ofNat (countIn refused s.accepted s.log) = s.clients fun socket => refuses (receivedOn socket s.log) := by
    simp only [countIn, refused, System.clients, ledger.received]
  rw [← heard, errorsIn, raised, raised]
  by_cases parses : id = "parse"
  · subst parses
    simp
  · rw [if_neg parses, if_neg parses]
    split
    · rw [Nat.zero_add]
      rfl
    · rfl

-- A response delivered, a bad request, and a response cut off.
def threeEnds : List Action :=
  .accept 3 :: enrol ++ enrol ++ answer (readOnce "GET / HTTP/1.1\r\na:b\r\n\r\n") ⟨[], [.accepted 1000]⟩ ++ enrol ++
    finish .parse (readOnce "G\r\na:b\r\n\r\n") ++ answer (readOnce "GET / HTTP/1.1\r\na:b\r\n\r\n") ⟨[], [.error]⟩

set_option maxRecDepth 8000 in
theorem three_ends_counted : ∃ s, Runs.execute (System.step plainSite) (System.new smallConfig) threeEnds = some s ∧
    s.metrics.totalRequests = 2 ∧ s.clients (fun socket => answered (journal socket s.log)) = 2 ∧
      ∀ stage, s.metrics.stages.lookup "net_out" = some stage →
        stage.errors = s.clients fun socket => broken plainSite (journal socket s.log) := by
  have executed : Runs.execute (System.step plainSite) (System.new smallConfig) threeEnds =
    some (.after plainSite smallConfig threeEnds) := rfl
  have requests : (System.after plainSite smallConfig threeEnds).metrics.totalRequests = 2 := rfl
  obtain ⟨answers, stages⟩ := counters_truthful plainSite smallConfig _ (Runs.execute_run _ _ _ threeEnds .start executed)
  exact ⟨_, executed, requests, answers.symm.trans requests, fun stage found => (stages "net_out" stage found).2.2.2⟩

end Ners.Server
