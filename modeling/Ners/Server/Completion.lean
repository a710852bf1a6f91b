import Ners.Server.Custody
import Ners.Server.Sending
import Ners.Server.Threads
import Mathlib.Algebra.BigOperators.Ring.List

set_option autoImplicit false

namespace Ners.Server

open Function (update)
open Placement (move leave enter)
open Runs (execute Meets)

-- The steps an id costs from a stage's queue on, to the end of the pipeline.
def StageId.ahead : StageId → Nat
  | .parse => 20
  | .route => 16
  | .app => 12
  | .encode => 8
  | .netOut => 4

def StageId.beyond (stage : StageId) : Nat := (stage.output.map StageId.ahead).getD 0

theorem ahead_beyond (stage : StageId) : stage.ahead = 4 + stage.beyond := by cases stage <;> rfl

theorem beyond_output (stage output : StageId) (goes : stage.output = some output) : stage.beyond = output.ahead := by
  rw [StageId.beyond, goes, Option.map_some, Option.getD_some]

def Executor.work (stage : StageId) : Executor → Nat
  | .idle | .dead => 0
  | .popped _ => 3 + stage.beyond
  | .holding (some _) => 2 + stage.beyond
  | .holding none => 1

def Acceptor.waiting : Acceptor → Nat
  | .idle waiting | .inserted _ waiting | .pushed waiting => waiting
  | .dead => 0

def Acceptor.work : Acceptor → Nat
  | .idle waiting => 23 * waiting
  | .inserted _ waiting => 22 + 23 * waiting
  | .pushed waiting => 1 + 23 * waiting
  | .dead => 0

def StageId.total (f : StageId → Nat) : Nat := f .parse + f .route + f .app + f .encode + f .netOut

theorem total_update (f : StageId → Nat) (stage : StageId) (n : Nat) :
    StageId.total (update f stage n) + f stage = StageId.total f + n := by
  cases stage <;> simp [StageId.total, update] <;> omega

-- The steps that are left to take.
def workLeft (acceptor : Acceptor) (queues : StageId → RingQueue) (executors : StageId → Executor) : Nat :=
  acceptor.work + StageId.total (fun stage => (queues stage).contents.length * stage.ahead) +
    StageId.total fun stage => (executors stage).work stage

def System.work (s : System) : Nat := workLeft s.acceptor s.queues s.executors

-- Steps that get something done: a pop of an empty queue does not, and
-- accept_all brings more to do.
def System.works (s : System) : Action → Bool
  | .accept _ => false
  | .pop stage => !(s.queues stage).contents.isEmpty
  | _ => true

def Action.streams : Action → Nat
  | .accept count => count
  | _ => 0

theorem work_acceptor (acceptor after : Acceptor) (queues : StageId → RingQueue) (executors : StageId → Executor) :
    workLeft after queues executors + acceptor.work = workLeft acceptor queues executors + after.work := by
  unfold workLeft
  omega

theorem work_queue (acceptor : Acceptor) (queues : StageId → RingQueue) (executors : StageId → Executor) (stage : StageId)
    (queue : RingQueue) :
    workLeft acceptor (update queues stage queue) executors + (queues stage).contents.length * stage.ahead =
      workLeft acceptor queues executors + queue.contents.length * stage.ahead := by
  have same : (fun other : StageId => (update queues stage queue other).contents.length * other.ahead) =
      update (fun other => (queues other).contents.length * other.ahead) stage (queue.contents.length * stage.ahead) := by
    funext other
    by_cases mine : other = stage
    · subst mine
      rw [Function.update_self, Function.update_self]
    · rw [Function.update_of_ne mine, Function.update_of_ne mine]
  have summed := total_update (fun other => (queues other).contents.length * other.ahead) stage (queue.contents.length * stage.ahead)
  rw [← same] at summed
  unfold workLeft
  omega

theorem work_executor (acceptor : Acceptor) (queues : StageId → RingQueue) (executors : StageId → Executor) (stage : StageId)
    (executor : Executor) :
    workLeft acceptor queues (update executors stage executor) + (executors stage).work stage =
      workLeft acceptor queues executors + executor.work stage := by
  have same : (fun other => (update executors stage executor other).work other) =
      update (fun other => (executors other).work other) stage (executor.work stage) := by
    funext other
    by_cases mine : other = stage
    · subst mine
      rw [Function.update_self, Function.update_self]
    · rw [Function.update_of_ne mine, Function.update_of_ne mine]
  have summed := total_update (fun other => (executors other).work other) stage (executor.work stage)
  rw [← same] at summed
  unfold workLeft
  omega

theorem held_work (stage : StageId) (next : Option ConnId) : (Executor.holding next).work stage ≤ 2 + stage.beyond := by
  cases next with
  | none =>
      simp only [Executor.work]
      omega
  | some id => exact Nat.le_refl _

theorem acceptor_work (site : Site) (s s' : System) (a : Action) (taken : Stepped site s a s') (mine : a.ofMain = true) :
    s'.work + (s.works a).toNat ≤ s.work + 23 * a.streams := by
  have moved := work_acceptor s.acceptor s'.acceptor s.queues s.executors
  cases taken with
  | accepted count idle =>
      rw [idle] at moved
      simp only [System.work, System.works, Bool.toNat_false, Action.streams, Acceptor.work, idle] at moved ⊢
      omega
  | refused waiting slab idle free inserted =>
      rw [idle] at moved
      simp only [System.work, System.works, Bool.toNat_true, Action.streams, Acceptor.work, idle] at moved ⊢
      omega
  | issued waiting id slab idle free inserted =>
      rw [idle] at moved
      simp only [System.work, System.works, Bool.toNat_true, Action.streams, Acceptor.work, idle] at moved ⊢
      omega
  | acceptorDied id waiting fault inserted pushed =>
      rw [inserted] at moved
      simp only [System.work, System.works, Bool.toNat_true, Action.streams, Acceptor.work, inserted] at moved ⊢
      omega
  | acceptorLost id back waiting queue inserted pushed =>
      rw [inserted] at moved
      simp only [System.work, System.works, Bool.toNat_true, Action.streams, Acceptor.work, inserted] at moved ⊢
      omega
  | acceptorPushed id waiting queue inserted pushed =>
      have grown := work_queue (.pushed waiting) s.queues s.executors .parse queue
      rw [(push_stored _ queue id pushed).2, List.length_append, List.length_singleton] at grown
      rw [inserted] at moved
      simp only [System.work, System.works, Bool.toNat_true, Action.streams, Acceptor.work, inserted, StageId.ahead] at moved grown ⊢
      omega
  | gauged waiting pushed =>
      rw [pushed] at moved
      simp only [System.work, System.works, Bool.toNat_true, Action.streams, Acceptor.work, pushed] at moved ⊢
      omega
  | foundNone | popped | unwound | processed | finished | panicked | passed | unlocked => cases mine

theorem executor_work (site : Site) (s s' : System) (a : Action) (real : s.Real) (taken : Stepped site s a s') (stage : StageId)
    (mine : a.thread = some stage) : s'.work + (s.works a).toNat ≤ s.work + 23 * a.streams := by
  have worked (stepped : s'.work + 1 ≤ s.work) : s'.work + (s.works a).toNat ≤ s.work + 23 * a.streams := by
    have once := (s.works a).toNat_le
    omega
  cases taken with
  | accepted | refused | issued | acceptorDied | acceptorLost | acceptorPushed | gauged => cases mine
  | foundNone _ queue idle popped =>
      obtain ⟨empty, rfl⟩ := popped_none _ queue (real _) popped
      simp only [System.works, empty, List.isEmpty_nil, Bool.not_true, Bool.toNat_false, Function.update_eq_self, System.work]
      omega
  | popped other id queue idle popped =>
      refine worked ?_
      have left := work_queue s.acceptor s.queues s.executors other queue
      have handed := work_executor s.acceptor (update s.queues other queue) s.executors other (.popped id)
      rw [popped_some _ queue id (real other) popped, List.length_cons, ahead_beyond, Nat.add_mul] at left
      rw [idle] at handed
      simp only [System.work, Executor.work] at handed ⊢
      omega
  | unwound other io id fault popped free next =>
      refine worked ?_
      have ended := work_executor s.acceptor s.queues s.executors other .dead
      rw [popped] at ended
      simp only [System.work, Executor.work] at ended ⊢
      omega
  | processed other io id next popped free returned =>
      refine worked ?_
      have served := work_executor s.acceptor s.queues s.executors other (.holding next)
      have most := held_work other next
      rw [popped] at served
      simp only [System.work] at served ⊢
      simp only [Executor.work] at served most
      omega
  | finished other id holding last =>
      refine worked ?_
      have ended := work_executor s.acceptor s.queues s.executors other (.holding none)
      rw [holding] at ended
      simp only [System.work, Executor.work] at ended ⊢
      omega
  | panicked other output id fault holding goes pushed =>
      refine worked ?_
      have ended := work_executor s.acceptor s.queues s.executors other .dead
      rw [holding] at ended
      simp only [System.work, Executor.work] at ended ⊢
      omega
  | passed other output id result queue holding goes pushed =>
      refine worked ?_
      have ended := work_executor s.acceptor (update s.queues output queue) s.executors other (.holding none)
      have grown := work_queue s.acceptor s.queues s.executors output queue
      have longer : queue.contents.length * output.ahead ≤ (s.queues output).contents.length * output.ahead + output.ahead := by
        rw [← Nat.succ_mul]
        refine Nat.mul_le_mul_right _ ?_
        cases result with
        | error back =>
            rw [(push_returned _ queue id back pushed).2]
            exact Nat.le_succ _
        | ok done => rw [(push_stored _ queue id pushed).2, List.length_append, List.length_singleton]
      rw [holding] at ended
      simp only [System.work, Executor.work, beyond_output other output goes] at ended ⊢
      omega
  | unlocked other holding =>
      refine worked ?_
      have ended := work_executor s.acceptor s.queues s.executors other .idle
      rw [holding] at ended
      simp only [System.work, Executor.work] at ended ⊢
      omega

theorem step_work (site : Site) (s s' : System) (a : Action) (real : s.Real) (taken : s.step site a = some s') :
    s'.work + (s.works a).toNat ≤ s.work + 23 * a.streams := by
  have stepped := step_cases site s s' a taken
  cases thread : a.thread with
  | none => exact acceptor_work site s s' a stepped ((of_main_thread a).mpr thread)
  | some stage => exact executor_work site s s' a real stepped stage thread

-- No thread has anything to do.
def System.AtRest (site : Site) (s : System) : Prop := ∀ a, s.works a = true → s.step site a = none

structure System.Alive (s : System) : Prop where
  acceptor : s.acceptor ≠ .dead
  executors : ∀ stage, s.executors stage ≠ .dead

theorem at_rest_unlocked (site : Site) (s : System) (alive : s.Alive) (held : LockHeld s) (rest : s.AtRest site) : s.lock = none := by
  cases locked : s.lock with
  | none => rfl
  | some stage =>
      obtain ⟨next, holding⟩ := (held stage).mp locked
      cases next with
      | none =>
          obtain ⟨s', unlocks⟩ := system_unlocks site s stage alive.acceptor holding
          cases (rest (.unlock stage) rfl).symm.trans unlocks
      | some id =>
          obtain ⟨s', pushes⟩ := system_pushes site s stage id alive.acceptor holding
          cases (rest (.push stage) rfl).symm.trans pushes

theorem at_rest_idle (site : Site) (s : System) (alive : s.Alive) (held : LockHeld s) (rest : s.AtRest site) (stage : StageId) :
    s.executors stage = .idle ∧ (s.queues stage).contents = [] := by
  have free := at_rest_unlocked site s alive held rest
  cases executor : s.executors stage with
  | dead => exact absurd executor (alive.executors stage)
  | holding next => cases free.symm.trans ((held stage).mpr ⟨next, executor⟩)
  | popped id =>
      obtain ⟨s', processes⟩ := system_processes site s stage ⟨[], []⟩ id alive.acceptor executor free
      cases (rest (.process stage _) rfl).symm.trans processes
  | idle =>
      refine ⟨rfl, ?_⟩
      cases queued : (s.queues stage).contents with
      | nil => rfl
      | cons id later =>
          obtain ⟨s', pops⟩ := system_pops site s stage alive.acceptor executor
          have works : s.works (.pop stage) = true := by
            rw [System.works, queued]
            rfl
          cases (rest (.pop stage) works).symm.trans pops

theorem at_rest_accepted (site : Site) (s : System) (alive : s.Alive) (held : LockHeld s) (rest : s.AtRest site) :
    s.acceptor = .idle 0 := by
  have free := at_rest_unlocked site s alive held rest
  cases acceptor : s.acceptor with
  | dead => exact absurd acceptor alive.acceptor
  | idle waiting =>
      cases waiting with
      | zero => rfl
      | succ waiting =>
          have stuck := rest .insert rfl
          rw [System.step, if_neg alive.acceptor] at stuck
          simp only [System.insert, acceptor, free] at stuck
          split at stuck <;> cases stuck
  | inserted id waiting =>
      have stuck := rest .acceptorPush rfl
      rw [System.step, if_neg alive.acceptor] at stuck
      simp only [System.acceptorPush, acceptor] at stuck
      split at stuck <;> cases stuck
  | pushed waiting =>
      have stuck := rest .acceptorGauge rfl
      rw [System.step, if_neg alive.acceptor] at stuck
      simp only [System.acceptorGauge, acceptor] at stuck
      cases stuck

theorem at_rest_empty (site : Site) (s : System) (alive : s.Alive) (held : LockHeld s) (rest : s.AtRest site) (p : Place) :
    s.ids p = [] := by
  have idle := at_rest_idle site s alive held rest
  cases p with
  | acceptor =>
      rw [System.ids, at_rest_accepted site s alive held rest]
      rfl
  | queue stage => exact (idle stage).2
  | popped stage =>
      rw [System.ids, (idle stage).1]
      rfl
  | passing stage =>
      rw [System.ids, (idle stage).1]
      rfl

-- A body that is handed what it needs does not unwind.
theorem hands_on_returns (site : Site) (s : System) (t : Tickets) (stage : StageId) (io : Io) (id : ConnId) (fault : Fault)
    (ledger : Ledger site s t) (popped : s.executors stage = .popped id) (hands : s.HandsOn (.process stage io)) :
    (processOne site stage io id s.slab s.metrics).next ≠ .error fault := by
  obtain ⟨conn, found, stream, live⟩ := popped_conn site s t stage id ledger ((popped_executor s stage id).mpr popped)
  intro unwound
  cases stage with
  | parse =>
      obtain ⟨answer, parsed, whole⟩ := hands.whole io id conn rfl popped found
      simp only [processOne, withConn, found, parseStageMulti, stream, if_true, parsed] at unwound
      rcases answer with (_ | reason) | ⟨request, n⟩
      · exact whole rfl
      · cases unwound
      · cases unwound
  | netOut =>
      obtain ⟨sent, result, written, all⟩ := hands.flushed io id conn rfl popped found
      simp only [processOne, withConn, found, netOutStageMulti, stream, if_true, written] at unwound
      cases result with
      | error e => cases unwound
      | ok n =>
          simp only [all n rfl, if_true] at unwound
          cases unwound
  | route | app =>
      simp only [processOne, withConn, found] at unwound
      cases unwound
  | encode => cases unwound

theorem hands_on_alive (site : Site) (s s' : System) (t : Tickets) (a : Action) (ledger : Ledger site s t) (alive : s.Alive)
    (taken : s.step site a = some s') (hands : s.HandsOn a) : s'.Alive := by
  have executor (stage : StageId) (after : Executor) (living : after ≠ .dead) (other : StageId) :
      update s.executors stage after other ≠ .dead := by
    by_cases mine : other = stage
    · subst mine
      rwa [Function.update_self]
    · rw [Function.update_of_ne mine]
      exact alive.executors other
  cases step_cases site s s' a taken with
  | accepted | refused | issued | acceptorLost | acceptorPushed | gauged => exact ⟨nofun, alive.executors⟩
  | acceptorDied id waiting fault inserted pushed => exact absurd (hands.room .parse rfl) (push_panicked _ id fault pushed)
  | foundNone => exact ⟨alive.acceptor, alive.executors⟩
  | popped stage id queue idle popped => exact ⟨alive.acceptor, executor stage _ nofun⟩
  | unwound stage io id fault popped free next => exact absurd next (hands_on_returns site s t stage io id fault ledger popped hands)
  | processed stage | finished stage | passed stage | unlocked stage => exact ⟨alive.acceptor, executor stage _ nofun⟩
  | panicked stage output id fault holding goes pushed =>
      have room := hands.room output (by rw [Action.target, goes, Option.map_some])
      exact absurd room (push_panicked _ id fault pushed)

-- How a connection that is let go of came to its end.
inductive Concluded (site : Site) (log : List Visit) (socket : Socket) : Prop where
  | rejected (read : Io) (reason : String) (visits : journal socket log = [(.parse, read)])
      (bad : Http.parse (bytesRead read) = .ok (.error (.invalid reason))) (silent : sentOn socket log = [])
  | delivered (read route app write : Io) (request : Http.HttpRequest) (n : Nat)
      (visits : journal socket log = [(.parse, read), (.route, route), (.app, app), (.netOut, write)])
      (parse : Http.parse (bytesRead read) = .ok (.ok (request, n))) (whole : sentOn socket log = responseTo site request.path)
  | severed (read route app write : Io) (request : Http.HttpRequest) (n : Nat) (e : IoError)
      (visits : journal socket log = [(.parse, read), (.route, route), (.app, app), (.netOut, write)])
      (parse : Http.parse (bytesRead read) = .ok (.ok (request, n)))
      (failed : writeAll write (responseTo site request.path) 0 = .ok (sentOn socket log, .error e))

theorem concluded_elsewhere (site : Site) (log : List Visit) (visit : Visit) (socket : Socket) (other : visit.socket ≠ socket)
    (concluded : Concluded site log socket) : Concluded site (log ++ [visit]) socket := by
  obtain ⟨visited, _, gave⟩ := visit_elsewhere socket visit other
  have journals : journal socket (log ++ [visit]) = journal socket log := by rw [journal_append, visited, List.append_nil]
  have sent : sentOn socket (log ++ [visit]) = sentOn socket log := by rw [sent_append, gave, List.append_nil]
  cases concluded with
  | rejected read reason visits bad silent => exact .rejected read reason (journals.trans visits) bad (sent.trans silent)
  | delivered read route app write request n visits parse whole =>
      exact .delivered read route app write request n (journals.trans visits) parse (sent.trans whole)
  | severed read route app write request n e visits parse failed =>
      exact .severed read route app write request n e (journals.trans visits) parse (sent ▸ failed)

-- A body that is handed what it needs and gives no id back concludes.
theorem hands_on_concludes (site : Site) (s s' : System) (t t' : Tickets) (stage : StageId) (io : Io) (id : ConnId) (socket : Socket)
    (ledger : Ledger site s t) (after : Ledger site s' t') (here : (id, socket) ∈ t (.popped stage))
    (popped : s.executors stage = .popped id) (hands : s.HandsOn (.process stage io))
    (log : s'.log = s.log ++ (processOne site stage io id s.slab s.metrics).visits)
    (stops : (processOne site stage io id s.slab s.metrics).next ≠ .ok (some id)) : Concluded site s'.log socket := by
  obtain ⟨conn, found, standing⟩ := ledger.standing _ _ here
  have stream := standing_stream site socket _ _ conn standing
  have streaming : conn.stream.isSome = true := by rw [stream]; rfl
  have visited (body : ConnState → MetricsCollector → Served)
      (log : s'.log = s.log ++ (withConn stage io id s.slab s.metrics body).visits) :
      journal socket s'.log = journal socket s.log ++ [(stage, io)] := by
    have visits := (with_conn_found stage io id s.slab s.metrics body conn found ledger.slab).2.2.2.2
    rw [log, visits, stream, journal_append]
    exact congrArg (journal socket s.log ++ ·) (visit_here ⟨socket, stage, io, _, _⟩).1
  cases stage with
  | encode => exact absurd rfl stops
  | route | app =>
      refine absurd ?_ stops
      simp only [processOne, withConn, found]
      rfl
  | parse =>
      have journals := visited _ log
      obtain ⟨answer, parsed, whole⟩ := hands.whole io id conn rfl popped found
      have sent := after.sent socket
      rw [journals] at sent
      generalize journal socket s.log = before at standing journals sent
      cases standing with
      | fresh =>
          rcases answer with (_ | reason) | ⟨request, n⟩
          · exact absurd rfl whole
          · exact .rejected io reason journals parsed sent
          · refine absurd ?_ stops
            simp only [processOne, withConn, found, parseStageMulti, streaming, if_true, parsed]
            rfl
  | netOut =>
      have journals := visited _ log
      obtain ⟨bytes, result, written, all⟩ := hands.flushed io id conn rfl popped found
      have sent := after.sent socket
      rw [journals] at sent
      generalize journal socket s.log = before at standing journals sent
      cases standing with
      | answered read route app request n parse =>
          have given : sentOn socket s'.log = delivered io (responseTo site request.path) := by
            rw [sent]
            simp only [List.cons_append, List.nil_append, expectedSent, parse]
          have start : writeAll io (responseTo site request.path) 0 = .ok (bytes, result) := written
          rw [delivered, start] at given
          cases result with
          | error e =>
              exact .severed read route app io request n e journals parse (given ▸ start)
          | ok m =>
              obtain ⟨count, result, total, within, same⟩ := write_all_total io (responseTo site request.path) 0 (Nat.zero_le _)
              obtain ⟨rfl, rfl⟩ := Prod.mk.inj (Except.ok.inj (start.symm.trans total))
              obtain rfl := same m rfl
              have reached : (responseTo site request.path).length ≤ 0 + m := all m rfl
              refine .delivered read route app io request n journals parse (given.trans ?_)
              rw [List.drop_zero]
              exact List.take_of_length_le (by omega)

-- The streams that insert found no slot for.
def System.refusal (s : System) (a : Action) (refused : List Socket) : List Socket :=
  if a = .insert ∧ (s.slab.insert (.new s.accepted)).1 = none then refused ++ [s.accepted] else refused

def Underway (t : Tickets) (socket : Socket) : Prop := ∃ p id, (id, socket) ∈ t p

-- Where each stream is that was taken from accept_all.
structure Attended (site : Site) (s : System) (t : Tickets) (refused : List Socket) (streams : Nat) : Prop where
  ledger : Ledger site s t
  lock : LockHeld s
  alive : s.Alive
  kept : s.Kept
  taken : s.accepted + s.acceptor.waiting = streams
  fates : ∀ socket < s.accepted, Underway t socket ∨ socket ∈ refused ∨ Concluded site s.log socket

theorem refusal_keeps (s : System) (a : Action) (refused : List Socket) (socket : Socket) (member : socket ∈ refused) :
    socket ∈ s.refusal a refused := by
  unfold System.refusal
  split
  · exact List.mem_append_left _ member
  · exact member

theorem underway_moved (p q : Place) (t : Tickets) (ticket : Ticket) (rest : List Ticket) (socket : Socket) (front : t p = ticket :: rest)
    (differ : p ≠ q) (underway : Underway t socket) : Underway (move p q t) socket := by
  obtain ⟨r, id, here⟩ := underway
  by_cases same : (id, socket) = ticket
  · exact ⟨q, id, same ▸ Placement.arrives_move p q t ticket rest front⟩
  · exact ⟨r, id, Placement.stays_move p q r t ticket _ rest front differ here same⟩

theorem underway_left (p : Place) (t : Tickets) (id : ConnId) (mine socket : Socket) (rest : List Ticket)
    (front : t p = (id, mine) :: rest) (other : socket ≠ mine) (underway : Underway t socket) : Underway (leave p t) socket := by
  obtain ⟨r, other', here⟩ := underway
  exact ⟨r, other', Placement.stays_leave p r t (id, mine) _ rest front here fun same => other (Prod.mk.inj same).2⟩

theorem step_taken (site : Site) (s s' : System) (a : Action) (hands : s.HandsOn a) (taken : s.step site a = some s') :
    s'.accepted + s'.acceptor.waiting = s.accepted + s.acceptor.waiting + a.streams := by
  cases step_cases site s s' a taken with
  | accepted count idle =>
      rw [idle]
      rfl
  | refused waiting slab idle free inserted =>
      rw [idle]
      simp only [Acceptor.waiting, Action.streams]
      omega
  | issued waiting id slab idle free inserted =>
      rw [idle]
      simp only [Acceptor.waiting, Action.streams]
      omega
  | acceptorDied id waiting fault inserted pushed => exact absurd (hands.room .parse rfl) (push_panicked _ id fault pushed)
  | acceptorLost id back waiting queue inserted pushed =>
      rw [inserted]
      rfl
  | acceptorPushed id waiting queue inserted pushed =>
      rw [inserted]
      rfl
  | gauged waiting pushed =>
      rw [pushed]
      rfl
  | foundNone | popped | unwound | processed | finished | panicked | passed | unlocked => rfl

theorem process_visits (site : Site) (s : System) (t : Tickets) (stage : StageId) (io : Io) (id : ConnId) (mine : Socket)
    (ledger : Ledger site s t) (here : (id, mine) ∈ t (.popped stage)) :
    ∀ visit ∈ (processOne site stage io id s.slab s.metrics).visits, visit.socket = mine := by
  obtain ⟨conn, found, standing⟩ := ledger.standing _ _ here
  have stream := standing_stream site mine _ _ conn standing
  have turn (body : ConnState → MetricsCollector → Served) (visit : Visit)
      (member : visit ∈ (withConn stage io id s.slab s.metrics body).visits) : visit.socket = mine := by
    rw [(with_conn_found stage io id s.slab s.metrics body conn found ledger.slab).2.2.2.2, stream] at member
    exact (List.mem_singleton.mp member) ▸ rfl
  cases stage with
  | encode => nofun
  | parse => exact turn _
  | route => exact turn _
  | app => exact turn _
  | netOut => exact turn _

theorem concluded_apart (site : Site) (log more : List Visit) (socket : Socket) (apart : ∀ visit ∈ more, visit.socket ≠ socket)
    (concluded : Concluded site log socket) : Concluded site (log ++ more) socket := by
  induction more generalizing log with
  | nil => rwa [List.append_nil]
  | cons visit later ih =>
      have onward := concluded_elsewhere site log visit socket (apart visit List.mem_cons_self) concluded
      rw [List.append_cons]
      exact ih _ (fun v member => apart v (List.mem_cons_of_mem _ member)) onward

theorem served_fate (site : Site) (s s' : System) (t : Tickets) (stage : StageId) (io : Io) (id : ConnId) (socket : Socket)
    (ledger : Ledger site s t) (after : Ledger site s' ((processOne site stage io id s.slab s.metrics).onward stage t))
    (front : s.ids (.popped stage) = [id]) (log : s'.log = s.log ++ (processOne site stage io id s.slab s.metrics).visits)
    (hands : s.HandsOn (.process stage io)) (fate : Underway t socket ∨ Concluded site s.log socket) :
    Underway ((processOne site stage io id s.slab s.metrics).onward stage t) socket ∨ Concluded site s'.log socket := by
  obtain ⟨mine, later, shape, _⟩ := ledger_front site s t _ id [] ledger front
  have here : (id, mine) ∈ t (.popped stage) := shape ▸ List.mem_cons_self
  by_cases same : socket = mine
  · subst same
    by_cases goes : (processOne site stage io id s.slab s.metrics).next = .ok (some id)
    · rw [onward_some _ stage _ id goes]
      exact .inl ⟨_, id, Placement.arrives_move _ _ t _ later shape⟩
    · exact .inr (hands_on_concludes site s s' t _ stage io id socket ledger after here ((popped_executor s stage id).mp front) hands
        log goes)
  · rcases fate with underway | concluded
    · left
      rcases onward_either (processOne site stage io id s.slab s.metrics) stage t with on | off
      · rw [on]
        exact underway_moved _ _ t _ later socket shape (by simp) underway
      · rw [off]
        exact underway_left _ t id mine socket later shape same underway
    · right
      rw [log]
      refine concluded_apart site s.log _ socket (fun visit member => ?_) concluded
      rw [process_visits site s t stage io id mine ledger here visit member]
      exact Ne.symm same

theorem insert_fates (site : Site) (s s' : System) (t : Tickets) (refused : List Socket) (ledger : Ledger site s t)
    (taken : s.step site .insert = some s') (socket : Socket) (known : socket < s'.accepted)
    (fates : socket < s.accepted → Underway t socket ∨ socket ∈ refused ∨ Concluded site s.log socket) :
    Underway (carry .insert s s' t) socket ∨ socket ∈ s.refusal .insert refused ∨ Concluded site s'.log socket := by
  have before (new : socket ≠ s.accepted) (one : s'.accepted = s.accepted + 1) : socket < s.accepted := by
    rw [one] at known
    exact Nat.lt_of_le_of_ne (Nat.le_of_lt_succ known) new
  have stepped := step_cases site s s' .insert taken
  cases step_effect site s s' .insert (ledger_real site s t ledger) taken with
  | quiet action => exact absurd rfl action
  | moved p q id rest source => cases source
  | dropped p id rest source => cases source
  | served stage io id action => cases action
  | issued id action empty ids inserted log accepted =>
      have mine : s'.ids .acceptor = [id] := by
        rw [ids, enter, Function.update_self, empty, List.nil_append]
      have carried : carry .insert s s' t = enter .acceptor (id, s.accepted) t := by
        simp only [carry, Action.source, mine]
      rw [carried, log]
      by_cases new : socket = s.accepted
      · rw [new]
        refine .inl ⟨.acceptor, id, ?_⟩
        rw [enter, Function.update_self]
        exact List.mem_append_right _ List.mem_cons_self
      · refine (fates (before new accepted)).imp ?_ (Or.imp_left (refusal_keeps s _ refused socket))
        rintro ⟨p, id', here⟩
        exact ⟨p, id', Placement.stays_enter _ p t _ _ here⟩
  | refused action empty ids slab log accepted =>
      have carried : carry .insert s s' t = t := by
        simp only [carry, Action.source, ids, empty]
      rw [carried, log]
      by_cases new : socket = s.accepted
      · refine .inr (.inl ?_)
        cases stepped with
        | refused waiting slab idle free inserted =>
            rw [System.refusal, if_pos ⟨rfl, by rw [inserted]⟩, new]
            exact List.mem_append_right _ List.mem_cons_self
        | issued waiting id slab idle free inserted =>
            have there : (System.ids s .acceptor) = [id] := by
              rw [← ids]
              rfl
            cases empty.symm.trans there
      · exact (fates (before new accepted)).imp_right (Or.imp_left (refusal_keeps s _ refused socket))

theorem step_fates (site : Site) (s s' : System) (t : Tickets) (a : Action) (refused : List Socket) (ledger : Ledger site s t)
    (hands : s.HandsOn a) (taken : s.step site a = some s')
    (fates : ∀ socket < s.accepted, Underway t socket ∨ socket ∈ refused ∨ Concluded site s.log socket) :
    ∀ socket < s'.accepted, Underway (carry a s s' t) socket ∨ socket ∈ s.refusal a refused ∨ Concluded site s'.log socket := by
  have after := ledger_step site s s' t a ledger taken
  intro socket known
  cases step_effect site s s' a (ledger_real site s t ledger) taken with
  | quiet action ids same idle =>
      rw [carry_quiet a s s' t action ids, same.log]
      rw [same.accepted] at known
      exact (fates socket known).imp_right (Or.imp_left (refusal_keeps s a refused socket))
  | moved p q id rest source target front ids same locked room =>
      have differ : p ≠ q := fun same => source_not_target a p source (same ▸ target)
      obtain ⟨mine, later, shape, _⟩ := ledger_front site s t p id rest ledger front
      rw [carry_moved a s s' t p q id rest source target front ids, same.log]
      rw [same.accepted] at known
      exact (fates socket known).imp (underway_moved p q t _ later socket shape differ)
        (Or.imp_left (refusal_keeps s a refused socket))
  | dropped p id rest source front ids same locked refused =>
      rcases refused with last | ⟨output, target, noRoom⟩
      · rw [last] at source
        obtain rfl := Option.some.inj source
        rw [net_out_gives_none site s t ledger] at front
        cases front
      · exact absurd (hands.room output target) noRoom
  | issued id action empty ids inserted log accepted =>
      subst action
      exact insert_fates site s s' t refused ledger taken socket known (fates socket)
  | refused action empty ids slab log accepted =>
      subst action
      exact insert_fates site s s' t _ ledger taken socket known (fates socket)
  | served stage io id action front slab log accepted ids =>
      subst action
      rw [carry_served s s' t stage io id _ front ids] at after ⊢
      rw [accepted] at known
      have served := served_fate site s s' t stage io id socket ledger after front log hands
      rcases fates socket known with underway | turned | concluded
      · exact (served (.inl underway)).imp_right .inr
      · exact .inr (.inl (refusal_keeps s _ refused socket turned))
      · exact (served (.inr concluded)).imp_right .inr

theorem step_attended (site : Site) (s s' : System) (t : Tickets) (a : Action) (refused : List Socket) (streams : Nat)
    (attended : Attended site s t refused streams) (hands : s.HandsOn a) (taken : s.step site a = some s') :
    Attended site s' (carry a s s' t) (s.refusal a refused) (streams + a.streams) where
  ledger := ledger_step site s s' t a attended.ledger taken
  lock := lock_step site s s' a attended.lock taken
  alive := hands_on_alive site s s' t a attended.ledger attended.alive taken hands
  kept := hands_on_keeps site s s' t a attended.ledger attended.kept taken hands
  taken := by rw [step_taken site s s' a hands taken, attended.taken]
  fates := step_fates site s s' t a refused attended.ledger hands taken attended.fates

theorem run_attended (site : Site) (s s' : System) (t : Tickets) (actions : List Action) (refused : List Socket) (streams : Nat)
    (attended : Attended site s t refused streams) (hands : Meets (System.step site) System.HandsOn s actions)
    (executed : execute (System.step site) s actions = some s') :
    ∃ t', Attended site s' t' (Runs.carried (System.step site) System.refusal s refused actions)
      (streams + (actions.map Action.streams).sum) := by
  induction actions generalizing s t refused streams with
  | nil =>
      obtain rfl := Option.some.inj executed
      exact ⟨t, attended⟩
  | cons a later ih =>
      obtain ⟨middle, taken, rest⟩ := Option.bind_eq_some_iff.mp executed
      obtain ⟨t', onward⟩ := ih middle _ _ _ (step_attended site s middle t a refused streams attended hands.1 taken)
        (hands.2 middle taken) rest
      refine ⟨t', ?_⟩
      rw [Runs.carried, taken, List.map_cons, List.sum_cons, ← Nat.add_assoc]
      exact onward

theorem new_attended (site : Site) (config : OrchestratorConfig) : Attended site (.new config) (fun _ => []) [] 0 where
  ledger := new_ledger site config
  lock := fun stage => iff_of_false nofun fun ⟨_, holding⟩ => nomatch holding
  alive := ⟨nofun, fun _ => nofun⟩
  kept := fun id conn found => by
    cases (new_get config.slabCapacity id).symm.trans found
  taken := rfl
  fates := fun socket known => absurd known (Nat.not_lt_zero socket)

theorem work_pays (site : Site) :
    Ranking.Pays (fun s => ∃ t, Ledger site s t) System.work (fun s a => (s.works a).toNat) (fun _ a => 23 * a.streams)
      (System.step site) := by
  refine ⟨fun s a s' known taken => ?_, fun s a s' known taken => ?_⟩
  · obtain ⟨t, ledger⟩ := known
    exact ⟨_, ledger_step site s s' t a ledger taken⟩
  · obtain ⟨t, ledger⟩ := known
    exact step_work site s s' a (ledger_real site s t ledger) taken

theorem clients_concluded (site : Site) (config : OrchestratorConfig) (actions : List Action) (s : System)
    (executed : execute (System.step site) (.new config) actions = some s) :
    Ranking.total (System.step site) (fun s a => (s.works a).toNat) (.new config) actions ≤ 23 * (actions.map Action.streams).sum ∧
    (Meets (System.step site) System.HandsOn (.new config) actions → s.AtRest site →
      (∀ p, s.ids p = []) ∧ s.lock = none ∧ (∀ id conn, s.slab.get id = some conn → conn.state = .closed) ∧
      s.accepted = (actions.map Action.streams).sum ∧
      ∀ socket < s.accepted, socket ∈ Runs.carried (System.step site) System.refusal (.new config) [] actions ∨
        Concluded site s.log socket) := by
  constructor
  · have paid := Ranking.run_paid (work_pays site) (.new config) s actions ⟨_, new_ledger site config⟩ executed
    rw [Ranking.total_sum (fun a => 23 * a.streams) _ s actions executed, List.sum_map_mul_left] at paid
    have idle : (System.new config).work = 0 := rfl
    omega
  · intro hands rest
    obtain ⟨t, attended⟩ := run_attended site (.new config) s _ actions [] 0 (new_attended site config) hands executed
    have empty := at_rest_empty site s attended.alive attended.lock rest
    refine ⟨empty, at_rest_unlocked site s attended.alive attended.lock rest, fun id conn found => ?_, ?_, fun socket known => ?_⟩
    · by_contra live
      obtain ⟨p, here⟩ := attended.kept id conn found live
      rw [empty p] at here
      cases here
    · have taken := attended.taken
      rw [at_rest_accepted site s attended.alive attended.lock rest, Nat.zero_add] at taken
      exact taken
    · rcases attended.fates socket known with ⟨p, id, here⟩ | later
      · have ids := attended.ledger.ids p
        rw [empty p, List.map_eq_nil_iff] at ids
        rw [ids] at here
        cases here
      · exact later

theorem kept_handed (site : Site) (config : OrchestratorConfig) (actions : List Action) (s : System)
    (executed : execute (System.step site) (.new config) actions = some s) (kept : s.Kept) :
    Meets (System.step site) System.HandsOn (.new config) actions := by
  refine (sound_iff_none_stranded site config actions s System.Kept (fun conn => conn.state ≠ .closed) System.HandsOn
    (hands_on_keeps site) (hands_off_loses site) (fun s id conn adrift live kept => ?_) (fun s empty id conn found => ?_) executed).mp
    kept
  · obtain ⟨p, here⟩ := kept id conn adrift.occupied live
    exact adrift.nowhere p here
  · cases (empty id).symm.trans found

-- Three streams for two slots, and a bad request.
def threeTurns : List Action :=
  .accept 3 :: enrol ++ enrol ++ [.insert] ++ answer (readOnce "GET / HTTP/1.1\r\na:b\r\n\r\n") ⟨[], [.accepted 1000]⟩ ++
    finish .parse (readOnce "G\r\na:b\r\n\r\n")

set_option maxRecDepth 8000 in
theorem three_turns_concluded : ∃ s, execute (System.step plainSite) (.new smallConfig) threeTurns = some s ∧
    s.accepted = 3 ∧ (∀ p, s.ids p = []) ∧ Concluded plainSite s.log 0 ∧ Concluded plainSite s.log 1 := by
  refine ⟨.after plainSite smallConfig threeTurns, rfl, ?_⟩
  have closed : ∀ slot ∈ (System.after plainSite smallConfig threeTurns).slab.slots, ∀ conn, slot = some conn →
      conn.state = .closed := by decide
  have hands := kept_handed plainSite smallConfig threeTurns (.after plainSite smallConfig threeTurns) rfl fun id conn found live => by
    have there := List.mem_of_getElem? (Option.join_eq_some_iff.mp found)
    exact absurd (closed _ there conn rfl) live
  obtain ⟨_, concluded⟩ := clients_concluded plainSite smallConfig threeTurns (.after plainSite smallConfig threeTurns) rfl
  obtain ⟨empty, _, _, _, each⟩ := concluded hands (fun a works => by
    cases a with
    | accept count => cases works
    | insert | acceptorPush | acceptorGauge => rfl
    | pop stage => cases stage <;> cases works
    | process stage | push stage | unlock stage => cases stage <;> rfl)
  exact ⟨rfl, empty, (each 0 (by decide)).resolve_left (by decide), (each 1 (by decide)).resolve_left (by decide)⟩

end Ners.Server
