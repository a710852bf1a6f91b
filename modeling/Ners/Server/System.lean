import Ners.Server.Stage
import Mathlib.Logic.Function.Basic

set_option autoImplicit false

namespace Ners.Server

open Function (update)

-- A thread in run_loop: at the head of the loop, between pop and the lock,
-- holding the lock with what process_one returned still to be pushed, or
-- unwound.
inductive Executor where
  | idle
  | popped (id : ConnId)
  | holding (next : Option ConnId)
  | dead
deriving DecidableEq

-- The accept loop: streams still to be taken from accept_all, an id inserted
-- and not yet pushed, or a push whose gauge is not yet raised.
inductive Acceptor where
  | idle (waiting : Nat)
  | inserted (id : ConnId) (waiting : Nat)
  | pushed (waiting : Nat)
  | dead
deriving DecidableEq

def StageId.output : StageId → Option StageId
  | .parse => some .route
  | .route => some .app
  | .app => some .encode
  | .encode => some .netOut
  | .netOut => none

structure System where
  slab : ConnSlab
  metrics : MetricsCollector
  queues : StageId → RingQueue
  executors : StageId → Executor
  acceptor : Acceptor
  lock : Option StageId
  accepted : Nat
  log : List Visit

-- Capacities are usize values; every queue has its own here.
structure OrchestratorConfig where
  slabCapacity : Nat
  queueCapacity : StageId → Nat
  word : slabCapacity < 2 ^ 64

def System.new (config : OrchestratorConfig) : System where
  slab := .new config.slabCapacity
  metrics := .new
  queues := fun stage => .new (config.queueCapacity stage)
  executors := fun _ => .idle
  acceptor := .idle 0
  lock := none
  accepted := 0
  log := []

inductive Action where
  | accept (count : Nat)
  | insert
  | acceptorPush
  | acceptorGauge
  | pop (stage : StageId)
  | process (stage : StageId) (io : Io)
  | push (stage : StageId)
  | unlock (stage : StageId)
deriving DecidableEq

-- let streams = listener.accept_all()
def System.accept (s : System) (count : Nat) : Option System :=
  match s.acceptor with
  | .idle 0 => some { s with acceptor := .idle count }
  | _ => none

-- The locked part of the accept loop. A connection without a slot is dropped.
def System.insert (s : System) : Option System :=
  match s.acceptor, s.lock with
  | .idle (waiting + 1), none =>
      match s.slab.insert (.new s.accepted) with
      | (none, slab) => some { s with slab := slab, acceptor := .idle waiting, accepted := s.accepted + 1 }
      | (some id, slab) =>
          some { s with
            slab := slab
            metrics := s.metrics.incTotalConns
            acceptor := .inserted id waiting
            accepted := s.accepted + 1 }
  | _, _ => none

def System.acceptorPush (s : System) : Option System :=
  match s.acceptor with
  | .inserted id waiting =>
      match (s.queues .parse).push id with
      | .error _ => some { s with acceptor := .dead }
      | .ok (.error _, _) => some { s with acceptor := .idle waiting }
      | .ok (.ok _, queue) => some { s with queues := update s.queues .parse queue, acceptor := .pushed waiting }
  | _ => none

def System.acceptorGauge (s : System) : Option System :=
  match s.acceptor with
  | .pushed waiting => some { s with metrics := s.metrics.incQueueLen "parse", acceptor := .idle waiting }
  | _ => none

def System.pop (s : System) (stage : StageId) : Option System :=
  match s.executors stage with
  | .idle =>
      match (s.queues stage).pop with
      | (none, queue) => some { s with queues := update s.queues stage queue }
      | (some id, queue) =>
          some { s with queues := update s.queues stage queue, executors := update s.executors stage (.popped id) }
  | _ => none

-- Taking the lock and running process_one under it. Unwinding drops the guard.
def System.process (site : Site) (s : System) (stage : StageId) (io : Io) : Option System :=
  match s.executors stage, s.lock with
  | .popped id, none =>
      let turn := processOne site stage io id s.slab s.metrics
      let s := { s with slab := turn.slab, metrics := turn.metrics, log := s.log ++ turn.visits }
      match turn.next with
      | .error _ => some { s with executors := update s.executors stage .dead }
      | .ok next => some { s with executors := update s.executors stage (.holding next), lock := some stage }
  | _, _ => none

-- let _ = out_q.push(next_id), where there is an output queue.
def System.push (s : System) (stage : StageId) : Option System :=
  match s.executors stage with
  | .holding (some id) =>
      match stage.output with
      | none => some { s with executors := update s.executors stage (.holding none) }
      | some output =>
          match (s.queues output).push id with
          | .error _ => some { s with executors := update s.executors stage .dead, lock := none }
          | .ok (_, queue) =>
              some { s with queues := update s.queues output queue, executors := update s.executors stage (.holding none) }
  | _ => none

def System.unlock (s : System) (stage : StageId) : Option System :=
  match s.executors stage with
  | .holding none => some { s with executors := update s.executors stage .idle, lock := none }
  | _ => none

-- One step of one thread, if it can take it. A panic of the main thread ends
-- the process.
def System.step (site : Site) (s : System) (action : Action) : Option System :=
  if s.acceptor = .dead then none
  else
    match action with
    | .accept count => s.accept count
    | .insert => s.insert
    | .acceptorPush => s.acceptorPush
    | .acceptorGauge => s.acceptorGauge
    | .pop stage => s.pop stage
    | .process stage io => s.process site stage io
    | .push stage => s.push stage
    | .unlock stage => s.unlock stage

-- Everything a step can do, with what the thread found.
inductive Stepped (site : Site) (s : System) : Action → System → Prop where
  | accepted (count : Nat) (idle : s.acceptor = .idle 0) : Stepped site s (.accept count) { s with acceptor := .idle count }
  | refused (waiting : Nat) (slab : ConnSlab) (idle : s.acceptor = .idle (waiting + 1)) (free : s.lock = none)
      (inserted : s.slab.insert (.new s.accepted) = (none, slab)) :
      Stepped site s .insert { s with slab := slab, acceptor := .idle waiting, accepted := s.accepted + 1 }
  | issued (waiting : Nat) (id : ConnId) (slab : ConnSlab) (idle : s.acceptor = .idle (waiting + 1)) (free : s.lock = none)
      (inserted : s.slab.insert (.new s.accepted) = (some id, slab)) :
      Stepped site s .insert { s with
        slab := slab
        metrics := s.metrics.incTotalConns
        acceptor := .inserted id waiting
        accepted := s.accepted + 1 }
  | acceptorDied (id : ConnId) (waiting : Nat) (fault : Fault) (inserted : s.acceptor = .inserted id waiting)
      (pushed : (s.queues .parse).push id = .error fault) : Stepped site s .acceptorPush { s with acceptor := .dead }
  | acceptorLost (id back : ConnId) (waiting : Nat) (queue : RingQueue) (inserted : s.acceptor = .inserted id waiting)
      (pushed : (s.queues .parse).push id = .ok (.error back, queue)) :
      Stepped site s .acceptorPush { s with acceptor := .idle waiting }
  | acceptorPushed (id : ConnId) (waiting : Nat) (queue : RingQueue) (inserted : s.acceptor = .inserted id waiting)
      (pushed : (s.queues .parse).push id = .ok (.ok (), queue)) :
      Stepped site s .acceptorPush { s with queues := update s.queues .parse queue, acceptor := .pushed waiting }
  | gauged (waiting : Nat) (pushed : s.acceptor = .pushed waiting) :
      Stepped site s .acceptorGauge { s with metrics := s.metrics.incQueueLen "parse", acceptor := .idle waiting }
  | foundNone (stage : StageId) (queue : RingQueue) (idle : s.executors stage = .idle)
      (popped : (s.queues stage).pop = (none, queue)) : Stepped site s (.pop stage) { s with queues := update s.queues stage queue }
  | popped (stage : StageId) (id : ConnId) (queue : RingQueue) (idle : s.executors stage = .idle)
      (popped : (s.queues stage).pop = (some id, queue)) :
      Stepped site s (.pop stage) { s with
        queues := update s.queues stage queue
        executors := update s.executors stage (.popped id) }
  | unwound (stage : StageId) (io : Io) (id : ConnId) (fault : Fault) (popped : s.executors stage = .popped id)
      (free : s.lock = none) (next : (processOne site stage io id s.slab s.metrics).next = .error fault) :
      Stepped site s (.process stage io) { s with
        slab := (processOne site stage io id s.slab s.metrics).slab
        metrics := (processOne site stage io id s.slab s.metrics).metrics
        log := s.log ++ (processOne site stage io id s.slab s.metrics).visits
        executors := update s.executors stage .dead }
  | processed (stage : StageId) (io : Io) (id : ConnId) (next : Option ConnId) (popped : s.executors stage = .popped id)
      (free : s.lock = none) (returned : (processOne site stage io id s.slab s.metrics).next = .ok next) :
      Stepped site s (.process stage io) { s with
        slab := (processOne site stage io id s.slab s.metrics).slab
        metrics := (processOne site stage io id s.slab s.metrics).metrics
        log := s.log ++ (processOne site stage io id s.slab s.metrics).visits
        executors := update s.executors stage (.holding next)
        lock := some stage }
  | finished (stage : StageId) (id : ConnId) (holding : s.executors stage = .holding (some id)) (last : stage.output = none) :
      Stepped site s (.push stage) { s with executors := update s.executors stage (.holding none) }
  | panicked (stage output : StageId) (id : ConnId) (fault : Fault) (holding : s.executors stage = .holding (some id))
      (goes : stage.output = some output) (pushed : (s.queues output).push id = .error fault) :
      Stepped site s (.push stage) { s with executors := update s.executors stage .dead, lock := none }
  | passed (stage output : StageId) (id : ConnId) (result : Except ConnId Unit) (queue : RingQueue)
      (holding : s.executors stage = .holding (some id)) (goes : stage.output = some output)
      (pushed : (s.queues output).push id = .ok (result, queue)) :
      Stepped site s (.push stage) { s with
        queues := update s.queues output queue
        executors := update s.executors stage (.holding none) }
  | unlocked (stage : StageId) (holding : s.executors stage = .holding none) :
      Stepped site s (.unlock stage) { s with executors := update s.executors stage .idle, lock := none }

theorem insert_stepped (site : Site) (s s' : System) (taken : s.insert = some s') : Stepped site s .insert s' := by
  unfold System.insert at taken
  split at taken
  · rename_i waiting idle free
    split at taken <;> rename_i slab inserted
    · obtain rfl := Option.some.inj taken
      exact .refused waiting slab idle free inserted
    · obtain rfl := Option.some.inj taken
      exact .issued waiting _ slab idle free inserted
  · cases taken

theorem acceptor_push_stepped (site : Site) (s s' : System) (taken : s.acceptorPush = some s') :
    Stepped site s .acceptorPush s' := by
  unfold System.acceptorPush at taken
  split at taken
  · rename_i id waiting inserted
    split at taken <;> rename_i pushed
    · obtain rfl := Option.some.inj taken
      exact .acceptorDied id waiting _ inserted pushed
    · obtain rfl := Option.some.inj taken
      exact .acceptorLost id _ waiting _ inserted pushed
    · obtain rfl := Option.some.inj taken
      exact .acceptorPushed id waiting _ inserted pushed
  · cases taken

theorem pop_stepped (site : Site) (s s' : System) (stage : StageId) (taken : s.pop stage = some s') :
    Stepped site s (.pop stage) s' := by
  unfold System.pop at taken
  split at taken
  · rename_i idle
    split at taken <;> rename_i popped
    · obtain rfl := Option.some.inj taken
      exact .foundNone stage _ idle popped
    · obtain rfl := Option.some.inj taken
      exact .popped stage _ _ idle popped
  · cases taken

theorem process_stepped (site : Site) (s s' : System) (stage : StageId) (io : Io) (taken : s.process site stage io = some s') :
    Stepped site s (.process stage io) s' := by
  unfold System.process at taken
  split at taken
  · rename_i id popped free
    dsimp only at taken
    split at taken <;> rename_i returned
    · obtain rfl := Option.some.inj taken
      exact .unwound stage io id _ popped free returned
    · obtain rfl := Option.some.inj taken
      exact .processed stage io id _ popped free returned
  · cases taken

theorem push_stepped (site : Site) (s s' : System) (stage : StageId) (taken : s.push stage = some s') :
    Stepped site s (.push stage) s' := by
  unfold System.push at taken
  split at taken
  · rename_i id holding
    split at taken
    · rename_i last
      obtain rfl := Option.some.inj taken
      exact .finished stage id holding last
    · rename_i output goes
      split at taken <;> rename_i pushed
      · obtain rfl := Option.some.inj taken
        exact .panicked stage output id _ holding goes pushed
      · obtain rfl := Option.some.inj taken
        exact .passed stage output id _ _ holding goes pushed
  · cases taken

theorem step_cases (site : Site) (s s' : System) (a : Action) (taken : s.step site a = some s') : Stepped site s a s' := by
  unfold System.step at taken
  split at taken
  · cases taken
  · cases a with
    | accept count =>
        simp only [System.accept] at taken
        split at taken
        · rename_i idle
          exact Option.some.inj taken ▸ .accepted count idle
        · cases taken
    | insert => exact insert_stepped site s s' taken
    | acceptorPush => exact acceptor_push_stepped site s s' taken
    | acceptorGauge =>
        simp only [System.acceptorGauge] at taken
        split at taken
        · rename_i waiting pushed
          exact Option.some.inj taken ▸ .gauged waiting pushed
        · cases taken
    | pop stage => exact pop_stepped site s s' stage taken
    | process stage io => exact process_stepped site s s' stage io taken
    | push stage => exact push_stepped site s s' stage taken
    | unlock stage =>
        simp only [System.unlock] at taken
        split at taken
        · rename_i holding
          exact Option.some.inj taken ▸ .unlocked stage holding
        · cases taken

end Ners.Server
