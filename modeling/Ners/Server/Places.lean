import Ners.Base.Placement
import Ners.Server.System

set_option autoImplicit false

namespace Ners.Server

open Function (update)
open Placement (move leave enter move_front update_same)

-- Where an id can be: in a queue, or in the hands of a thread.
inductive Place where
  | acceptor
  | queue (stage : StageId)
  | popped (stage : StageId)
  | passing (stage : StageId)
deriving DecidableEq

def Executor.poppedIds : Executor → List ConnId
  | .popped id => [id]
  | _ => []

def Executor.passingIds : Executor → List ConnId
  | .holding (some id) => [id]
  | _ => []

def Acceptor.ids : Acceptor → List ConnId
  | .inserted id _ => [id]
  | _ => []

def System.ids (s : System) : Place → List ConnId
  | .acceptor => s.acceptor.ids
  | .queue stage => (s.queues stage).contents
  | .popped stage => (s.executors stage).poppedIds
  | .passing stage => (s.executors stage).passingIds

-- The place an action takes an id from, and where it puts it.
def Action.source : Action → Option Place
  | .acceptorPush => some .acceptor
  | .pop stage => some (.queue stage)
  | .process stage _ => some (.popped stage)
  | .push stage => some (.passing stage)
  | _ => none

def Action.target : Action → Option Place
  | .acceptorPush => some (.queue .parse)
  | .pop stage => some (.popped stage)
  | .process stage _ => some (.passing stage)
  | .push stage => stage.output.map .queue
  | _ => none

theorem source_not_target (a : Action) (p : Place) (source : a.source = some p) : a.target ≠ some p := by
  cases a with
  | accept count => cases source
  | insert => cases source
  | acceptorGauge => cases source
  | unlock stage => cases source
  | acceptorPush =>
      obtain rfl := Option.some.inj source
      simp [Action.target]
  | pop stage =>
      obtain rfl := Option.some.inj source
      simp [Action.target]
  | process stage io =>
      obtain rfl := Option.some.inj source
      simp [Action.target]
  | push stage =>
      obtain rfl := Option.some.inj source
      simp [Action.target]

theorem no_source_no_target (a : Action) (sourceless : a.source = none) : a.target = none := by
  cases a with
  | accept count => rfl
  | insert => rfl
  | acceptorGauge => rfl
  | unlock stage => rfl
  | acceptorPush => cases sourceless
  | pop stage => cases sourceless
  | process stage io => cases sourceless
  | push stage => cases sourceless

theorem ids_queue (s : System) (stage : StageId) (queue : RingQueue) :
    System.ids { s with queues := update s.queues stage queue } = update s.ids (.queue stage) queue.contents := by
  funext place
  cases place with
  | queue other =>
      by_cases same : other = stage
      · subst same
        simp [System.ids]
      · simp [System.ids, Function.update_of_ne, same]
  | acceptor => rfl
  | popped other => rfl
  | passing other => rfl

theorem ids_executor (s : System) (stage : StageId) (executor : Executor) :
    System.ids { s with executors := update s.executors stage executor } =
      update (update s.ids (.popped stage) executor.poppedIds) (.passing stage) executor.passingIds := by
  funext place
  cases place with
  | acceptor => rfl
  | queue other => rfl
  | popped other =>
      by_cases same : other = stage
      · subst same
        simp [System.ids]
      · simp [System.ids, Function.update_of_ne, same]
  | passing other =>
      by_cases same : other = stage
      · subst same
        simp [System.ids]
      · simp [System.ids, Function.update_of_ne, same]

theorem ids_acceptor (s : System) (acceptor : Acceptor) :
    System.ids { s with acceptor := acceptor } = update s.ids .acceptor acceptor.ids := by
  funext place
  cases place <;> rfl

structure Untouched (s s' : System) : Prop where
  slab : s'.slab = s.slab
  log : s'.log = s.log
  accepted : s'.accepted = s.accepted

def Turn.onward {α : Type} (turn : Turn) (stage : StageId) (f : Place → List α) : Place → List α :=
  match turn.next with
  | .ok (some _) => move (.popped stage) (.passing stage) f
  | _ => leave (.popped stage) f

theorem onward_some {α : Type} (turn : Turn) (stage : StageId) (f : Place → List α) (id : ConnId)
    (next : turn.next = .ok (some id)) : turn.onward stage f = move (.popped stage) (.passing stage) f := by
  rw [Turn.onward, next]

theorem onward_none {α : Type} (turn : Turn) (stage : StageId) (f : Place → List α)
    (stops : ∀ id, turn.next ≠ .ok (some id)) : turn.onward stage f = leave (.popped stage) f := by
  unfold Turn.onward
  split
  · rename_i id next
    exact absurd next (stops id)
  · rfl

theorem onward_either {α : Type} (turn : Turn) (stage : StageId) (f : Place → List α) :
    turn.onward stage f = move (.popped stage) (.passing stage) f ∨ turn.onward stage f = leave (.popped stage) f := by
  by_cases goes : ∃ id, turn.next = .ok (some id)
  · obtain ⟨id, next⟩ := goes
    exact .inl (onward_some turn stage f id next)
  · exact .inr (onward_none turn stage f (not_exists.mp goes))

-- Everything a step can do to the ids in flight, the slab and the log.
inductive Effect (site : Site) (s s' : System) (a : Action) : Prop where
  | quiet (action : a ≠ .insert) (ids : s'.ids = s.ids) (same : Untouched s s')
      (idle : a.source = none ∨ ∃ stage, a = .pop stage)
  | moved (p q : Place) (id : ConnId) (rest : List ConnId) (source : a.source = some p) (target : a.target = some q)
      (front : s.ids p = id :: rest) (ids : s'.ids = move p q s.ids) (same : Untouched s s')
      (locked : ∀ stage io, a ≠ .process stage io) (room : ∀ output, q = .queue output → (s.queues output).HasRoom)
  | dropped (p : Place) (id : ConnId) (rest : List ConnId) (source : a.source = some p) (front : s.ids p = id :: rest)
      (ids : s'.ids = leave p s.ids) (same : Untouched s s') (locked : ∀ stage io, a ≠ .process stage io)
      (refused : a = .push .netOut ∨ ∃ output, a.target = some (.queue output) ∧ ¬ (s.queues output).HasRoom)
  | issued (id : ConnId) (action : a = .insert) (empty : s.ids .acceptor = []) (ids : s'.ids = enter .acceptor id s.ids)
      (inserted : s.slab.insert (.new s.accepted) = (some id, s'.slab)) (log : s'.log = s.log)
      (accepted : s'.accepted = s.accepted + 1)
  | refused (action : a = .insert) (empty : s.ids .acceptor = []) (ids : s'.ids = s.ids) (slab : s'.slab = s.slab)
      (log : s'.log = s.log) (accepted : s'.accepted = s.accepted + 1)
  | served (stage : StageId) (io : Io) (id : ConnId) (action : a = .process stage io) (front : s.ids (.popped stage) = [id])
      (slab : s'.slab = (processOne site stage io id s.slab s.metrics).slab)
      (log : s'.log = s.log ++ (processOne site stage io id s.slab s.metrics).visits) (accepted : s'.accepted = s.accepted)
      (ids : s'.ids = (processOne site stage io id s.slab s.metrics).onward stage s.ids)

def System.Real (s : System) : Prop := ∀ stage, ∀ id ∈ (s.queues stage).contents, id ≠ usizeMax

theorem with_conn_keeps_id (stage : StageId) (io : Io) (id other : ConnId) (slab : ConnSlab) (metrics : MetricsCollector)
    (body : ConnState → MetricsCollector → Served)
    (next : (withConn stage io id slab metrics body).next = .ok (some other)) : other = id := by
  unfold withConn at next
  cases found : slab.get id with
  | none => simp [found] at next
  | some conn =>
      simp only [found] at next
      generalize (body conn metrics).next = result at next
      rcases result with fault | _ | _
      · cases next
      · cases next
      · cases next
        rfl

theorem process_keeps_id (site : Site) (stage : StageId) (io : Io) (id other : ConnId) (slab : ConnSlab)
    (metrics : MetricsCollector) (next : (processOne site stage io id slab metrics).next = .ok (some other)) : other = id := by
  cases stage with
  | parse => exact with_conn_keeps_id _ io id other slab metrics _ next
  | route => exact with_conn_keeps_id _ io id other slab metrics _ next
  | app => exact with_conn_keeps_id _ io id other slab metrics _ next
  | netOut => exact with_conn_keeps_id _ io id other slab metrics _ next
  | encode =>
      simp only [processOne, Except.ok.injEq, Option.some.injEq] at next
      exact next.symm

theorem ids_acceptor_same (s : System) (acceptor : Acceptor) (same : acceptor.ids = s.acceptor.ids) :
    System.ids { s with acceptor := acceptor } = s.ids := by
  rw [ids_acceptor, same]
  exact update_same s.ids .acceptor _ rfl

theorem ids_executor_same (s : System) (stage : StageId) (executor : Executor)
    (popped : executor.poppedIds = (s.executors stage).poppedIds)
    (passing : executor.passingIds = (s.executors stage).passingIds) :
    System.ids { s with executors := update s.executors stage executor } = s.ids := by
  rw [ids_executor, update_same s.ids (.popped stage) _ popped.symm, update_same s.ids (.passing stage) _ passing.symm]

theorem inserted_ids (s : System) (id : ConnId) (waiting : Nat) (inserted : s.acceptor = .inserted id waiting) :
    s.ids .acceptor = [id] := by
  rw [System.ids, inserted]
  rfl

theorem popped_ids (s : System) (stage : StageId) (executor : Executor) (there : s.executors stage = executor) :
    s.ids (.popped stage) = executor.poppedIds := by
  rw [System.ids, there]

theorem passing_ids (s : System) (stage : StageId) (executor : Executor) (there : s.executors stage = executor) :
    s.ids (.passing stage) = executor.passingIds := by
  rw [System.ids, there]

theorem acceptor_lets_go (s : System) (id : ConnId) (acceptor : Acceptor) (front : s.ids .acceptor = [id])
    (empty : acceptor.ids = []) : System.ids { s with acceptor := acceptor } = leave .acceptor s.ids := by
  rw [leave, front, ids_acceptor, empty, List.tail_cons]

theorem executor_lets_go (s : System) (stage : StageId) (id : ConnId) (executor : Executor)
    (holding : s.executors stage = .holding (some id)) (popped : executor.poppedIds = []) (passing : executor.passingIds = []) :
    System.ids { s with executors := update s.executors stage executor } = leave (.passing stage) s.ids := by
  have noPopped : s.ids (.popped stage) = [] := popped_ids s stage _ holding
  have front : s.ids (.passing stage) = [id] := passing_ids s stage _ holding
  rw [ids_executor, popped, passing, update_same s.ids _ _ noPopped, leave, front, List.tail_cons]

theorem insert_effect (site : Site) (s s' : System) (stepped : Stepped site s .insert s') : Effect site s s' .insert := by
  have idle (waiting : Nat) (idle : s.acceptor = .idle waiting) : s.ids .acceptor = [] := by
    rw [System.ids, idle]
    rfl
  cases stepped with
  | refused waiting slab before free inserted =>
      have ids := ids_acceptor_same s (.idle waiting) (by rw [before]; rfl)
      exact .refused rfl (idle _ before) ids (insert_none _ _ _ inserted) rfl rfl
  | issued waiting id slab before free inserted =>
      refine .issued id rfl (idle _ before) ?_ inserted rfl rfl
      rw [enter, idle _ before]
      exact ids_acceptor s _

theorem acceptor_push_effect (site : Site) (s s' : System) (stepped : Stepped site s .acceptorPush s') :
    Effect site s s' .acceptorPush := by
  cases stepped with
  | acceptorDied id waiting fault inserted pushed =>
      have front := inserted_ids s id waiting inserted
      exact .dropped .acceptor id [] rfl front (acceptor_lets_go s id _ front rfl) ⟨rfl, rfl, rfl⟩ (by simp)
        (.inr ⟨.parse, rfl, push_panicked _ id fault pushed⟩)
  | acceptorLost id back waiting queue inserted pushed =>
      have front := inserted_ids s id waiting inserted
      exact .dropped .acceptor id [] rfl front (acceptor_lets_go s id _ front rfl) ⟨rfl, rfl, rfl⟩ (by simp)
        (.inr ⟨.parse, rfl, (push_returned _ _ id back pushed).1⟩)
  | acceptorPushed id waiting queue inserted pushed =>
      have front := inserted_ids s id waiting inserted
      obtain ⟨room, contents⟩ := push_stored _ queue id pushed
      refine .moved .acceptor (.queue .parse) id [] rfl rfl front ?_ ⟨rfl, rfl, rfl⟩ (by simp) (by rintro _ ⟨⟩; exact room)
      rw [move_front _ _ _ _ _ front]
      have queued := ids_queue { s with acceptor := .pushed waiting } .parse queue
      rw [ids_acceptor, contents] at queued
      exact queued

theorem pop_effect (site : Site) (s s' : System) (stage : StageId) (real : s.Real) (stepped : Stepped site s (.pop stage) s') :
    Effect site s s' (.pop stage) := by
  cases stepped with
  | foundNone _ queue idle popped =>
      obtain ⟨_, rfl⟩ := popped_none _ queue (real stage) popped
      refine .quiet (by simp) ?_ ⟨rfl, rfl, rfl⟩ (.inr ⟨stage, rfl⟩)
      rw [ids_queue]
      exact update_same s.ids (.queue stage) _ rfl
  | popped _ id queue idle popped =>
      have front : s.ids (.queue stage) = id :: queue.contents := popped_some _ queue id (real stage) popped
      have noPopped : s.ids (.popped stage) = [] := popped_ids s stage _ idle
      have noPassing : s.ids (.passing stage) = [] := passing_ids s stage _ idle
      refine .moved (.queue stage) (.popped stage) id queue.contents rfl rfl front ?_ ⟨rfl, rfl, rfl⟩ (by simp) (by simp)
      rw [move_front _ _ _ _ _ front, noPopped]
      have queued := ids_queue s stage queue
      have handed := ids_executor { s with queues := update s.queues stage queue } stage (.popped id)
      rw [queued] at handed
      refine handed.trans (update_same _ (Place.passing stage) _ ?_)
      rw [Function.update_of_ne (by simp), Function.update_of_ne (by simp), noPassing]
      rfl

-- An executor that has served its id holds at most what it still has to pass on.
theorem executor_served (s : System) (stage : StageId) (id : ConnId) (executor : Executor)
    (popped : s.executors stage = .popped id) (empty : executor.poppedIds = []) :
    System.ids { s with executors := update s.executors stage executor } =
      update (leave (.popped stage) s.ids) (.passing stage) executor.passingIds := by
  have front : s.ids (.popped stage) = [id] := popped_ids s stage _ popped
  rw [ids_executor, empty, leave, front, List.tail_cons]

theorem process_effect (site : Site) (s s' : System) (stage : StageId) (io : Io) (stepped : Stepped site s (.process stage io) s') :
    Effect site s s' (.process stage io) := by
  have still (id : ConnId) (popped : s.executors stage = .popped id) : leave (.popped stage) s.ids (.passing stage) = [] := by
    rw [Placement.leave_elsewhere _ _ _ (by simp)]
    exact passing_ids s stage _ popped
  cases stepped with
  | unwound _ _ id fault popped free next =>
      refine .served stage io id rfl (popped_ids s stage _ popped) rfl rfl rfl ?_
      rw [onward_none _ stage s.ids (by simp [next])]
      exact (executor_served s stage id .dead popped rfl).trans (update_same _ _ _ (still id popped))
  | processed _ _ id next popped free returned =>
      refine .served stage io id rfl (popped_ids s stage _ popped) rfl rfl rfl ?_
      have handed := executor_served s stage id (.holding next) popped rfl
      cases next with
      | none =>
          rw [onward_none _ stage s.ids (by simp [returned])]
          exact handed.trans (update_same _ _ _ (still id popped))
      | some other =>
          obtain rfl := process_keeps_id site stage io id other s.slab s.metrics returned
          have front : s.ids (.popped stage) = [other] := popped_ids s stage _ popped
          have noPassing : s.ids (.passing stage) = [] := passing_ids s stage _ popped
          rw [onward_some _ stage s.ids other returned]
          refine handed.trans ?_
          rw [move_front _ _ _ _ _ front, noPassing, leave, front]
          rfl

theorem push_effect (site : Site) (s s' : System) (stage : StageId) (stepped : Stepped site s (.push stage) s') :
    Effect site s s' (.push stage) := by
  have target (output : StageId) (goes : stage.output = some output) : (Action.push stage).target = some (.queue output) := by
    rw [Action.target, goes, Option.map_some]
  cases stepped with
  | finished _ id holding last =>
      have netOut : stage = .netOut := by cases stage <;> simp_all [StageId.output]
      have front : s.ids (.passing stage) = [id] := passing_ids s stage _ holding
      exact .dropped (.passing stage) id [] rfl front (executor_lets_go s stage id _ holding rfl rfl) ⟨rfl, rfl, rfl⟩ (by simp)
        (.inl (by rw [netOut]))
  | panicked _ output id fault holding goes pushed =>
      have front : s.ids (.passing stage) = [id] := passing_ids s stage _ holding
      exact .dropped (.passing stage) id [] rfl front (executor_lets_go s stage id _ holding rfl rfl) ⟨rfl, rfl, rfl⟩ (by simp)
        (.inr ⟨output, target output goes, push_panicked _ id fault pushed⟩)
  | passed _ output id result queue holding goes pushed =>
      have front : s.ids (.passing stage) = [id] := passing_ids s stage _ holding
      have lost := executor_lets_go s stage id (.holding none) holding rfl rfl
      cases result with
      | error back =>
          obtain ⟨noRoom, rfl⟩ := push_returned _ queue id back pushed
          rw [Function.update_eq_self]
          exact .dropped (.passing stage) id [] rfl front lost ⟨rfl, rfl, rfl⟩ (by simp) (.inr ⟨output, target output goes, noRoom⟩)
      | ok done =>
          obtain ⟨room, contents⟩ := push_stored _ queue id pushed
          refine .moved (.passing stage) (.queue output) id [] rfl (target output goes) front ?_ ⟨rfl, rfl, rfl⟩ (by simp)
            (by rintro _ ⟨⟩; exact room)
          rw [move_front _ _ _ _ _ front]
          have queued := ids_queue { s with executors := update s.executors stage (.holding none) } output queue
          rw [lost, contents, leave, front] at queued
          exact queued

theorem step_effect (site : Site) (s s' : System) (a : Action) (real : s.Real) (taken : s.step site a = some s') :
    Effect site s s' a := by
  have stepped := step_cases site s s' a taken
  cases a with
  | accept count =>
      cases stepped with
      | accepted _ idle => exact .quiet (by simp) (ids_acceptor_same s _ (by rw [idle]; rfl)) ⟨rfl, rfl, rfl⟩ (.inl rfl)
  | insert => exact insert_effect site s s' stepped
  | acceptorPush => exact acceptor_push_effect site s s' stepped
  | acceptorGauge =>
      cases stepped with
      | gauged waiting pushed => exact .quiet (by simp) (ids_acceptor_same s _ (by rw [pushed]; rfl)) ⟨rfl, rfl, rfl⟩ (.inl rfl)
  | pop stage => exact pop_effect site s s' stage real stepped
  | process stage io => exact process_effect site s s' stage io stepped
  | push stage => exact push_effect site s s' stage stepped
  | unlock stage =>
      cases stepped with
      | unlocked _ holding =>
          exact .quiet (by simp) (ids_executor_same s stage .idle (by rw [holding]; rfl) (by rw [holding]; rfl))
            ⟨rfl, rfl, rfl⟩ (.inl rfl)

end Ners.Server
