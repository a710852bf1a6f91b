import Ners.Base.Runs
import Ners.Server.Journal

set_option autoImplicit false

namespace Ners.Server

open Placement (Apart move leave enter)

abbrev Ticket := ConnId × Socket

abbrev Tickets := Place → List Ticket

-- Tickets travel with their ids: insert issues one, and an id that leaves its
-- place takes its ticket to the place that grows, or away.
def carry (a : Action) (s s' : System) (t : Tickets) : Tickets :=
  match a.source with
  | some p =>
      if s'.ids p = s.ids p then t
      else
        match a.target with
        | some q => if s'.ids q = s.ids q then leave p t else move p q t
        | none => leave p t
  | none =>
      match a, s'.ids .acceptor with
      | .insert, [id] => enter .acceptor (id, s.accepted) t
      | _, _ => t

theorem carry_quiet (a : Action) (s s' : System) (t : Tickets) (action : a ≠ .insert) (ids : s'.ids = s.ids) :
    carry a s s' t = t := by
  unfold carry
  cases source : a.source with
  | some p => simp only [ids, if_true]
  | none =>
      cases a with
      | insert => exact absurd rfl action
      | _ => rfl

theorem carry_moved (a : Action) (s s' : System) (t : Tickets) (p q : Place) (id : ConnId) (rest : List ConnId)
    (source : a.source = some p) (target : a.target = some q) (front : s.ids p = id :: rest)
    (ids : s'.ids = move p q s.ids) : carry a s s' t = move p q t := by
  have differ : p ≠ q := fun same => source_not_target a p source (same ▸ target)
  have shorter : s'.ids p ≠ s.ids p := by
    rw [ids, Placement.move_at_source p q s.ids id rest front differ, front]
    exact fun same => absurd (congrArg List.length same) (by simp)
  have longer : s'.ids q ≠ s.ids q := by
    rw [ids, Placement.move_at_target p q s.ids id rest front]
    simp
  simp only [carry, source, target, if_neg shorter, if_neg longer]

theorem carry_left (a : Action) (s s' : System) (t : Tickets) (p : Place) (id : ConnId) (rest : List ConnId)
    (source : a.source = some p) (front : s.ids p = id :: rest) (ids : s'.ids = leave p s.ids) :
    carry a s s' t = leave p t := by
  have shorter : s'.ids p ≠ s.ids p := by
    rw [ids, leave, Function.update_self, front]
    exact fun same => absurd (congrArg List.length same) (by simp)
  simp only [carry, source, if_neg shorter]
  cases target : a.target with
  | none => rfl
  | some q =>
      have differ : q ≠ p := fun same => source_not_target a p source (same ▸ target)
      simp only [ids, Placement.leave_elsewhere p q s.ids differ, if_true]

-- The invariant of the pipeline, over the tickets of a run.
structure Ledger (site : Site) (s : System) (t : Tickets) : Prop where
  ids : ∀ p, (t p).map Prod.fst = s.ids p
  idsApart : Apart Prod.fst t
  socketsApart : Apart Prod.snd t
  word : s.slab.capacity < 2 ^ 64
  slab : s.slab.Exact
  issued : ∀ p, ∀ ticket ∈ t p, ticket.2 < s.accepted
  standing : ∀ p, ∀ ticket ∈ t p, ∃ conn, s.slab.get ticket.1 = some conn ∧
    Standing site ticket.2 p.phase (journal ticket.2 s.log) conn
  logged : ∀ visit ∈ s.log, visit.socket < s.accepted
  received : ∀ socket, receivedOn socket s.log = expectedReceived (journal socket s.log)
  sent : ∀ socket, sentOn socket s.log = expectedSent site (journal socket s.log)

theorem new_ledger (site : Site) (config : OrchestratorConfig) : Ledger site (.new config) fun _ => [] where
  ids := fun p => by cases p <;> rfl
  idsApart := ⟨fun _ => List.nodup_nil, by simp⟩
  socketsApart := ⟨fun _ => List.nodup_nil, by simp⟩
  word := config.word
  slab := new_exact config.slabCapacity
  issued := by simp
  standing := by simp
  logged := by simp [System.new]
  received := fun _ => rfl
  sent := fun _ => rfl

theorem ledger_real (site : Site) (s : System) (t : Tickets) (ledger : Ledger site s t) : s.Real := by
  intro stage id member
  have listed : id ∈ (t (.queue stage)).map Prod.fst := by
    rw [ledger.ids]
    exact member
  obtain ⟨ticket, here, rfl⟩ := List.mem_map.mp listed
  obtain ⟨conn, found, _⟩ := ledger.standing _ ticket here
  have within := get_within s.slab ticket.1 conn found
  exact Nat.ne_of_lt (Nat.lt_of_lt_of_le within (Nat.le_sub_one_of_lt ledger.word))

theorem ledger_front (site : Site) (s : System) (t : Tickets) (p : Place) (id : ConnId) (rest : List ConnId)
    (ledger : Ledger site s t) (front : s.ids p = id :: rest) :
    ∃ socket later, t p = (id, socket) :: later ∧ later.map Prod.fst = rest := by
  have ids := ledger.ids p
  rw [front] at ids
  obtain ⟨ticket, later, shape, rfl, rfl⟩ := List.map_eq_cons_iff.mp ids
  exact ⟨ticket.2, later, shape, rfl⟩

theorem ledger_untouched (site : Site) (s s' : System) (t t' : Tickets) (ledger : Ledger site s t) (same : Untouched s s')
    (ids : ∀ p, (t' p).map Prod.fst = s'.ids p) (idsApart : Apart Prod.fst t') (socketsApart : Apart Prod.snd t')
    (phases : ∀ q, ∀ ticket ∈ t' q, ∃ p, ticket ∈ t p ∧ q.phase = p.phase) : Ledger site s' t' := by
  obtain ⟨slab, log, accepted⟩ := same
  refine ⟨ids, idsApart, socketsApart, slab ▸ ledger.word, slab ▸ ledger.slab, ?_, ?_, ?_, ?_, ?_⟩
  · intro q ticket member
    obtain ⟨p, before, _⟩ := phases q ticket member
    rw [accepted]
    exact ledger.issued p ticket before
  · intro q ticket member
    obtain ⟨p, before, phase⟩ := phases q ticket member
    rw [slab, log, phase]
    exact ledger.standing p ticket before
  · rw [log, accepted]
    exact ledger.logged
  · rw [log]
    exact ledger.received
  · rw [log]
    exact ledger.sent

theorem ledger_moved (site : Site) (s s' : System) (t : Tickets) (p q : Place) (id : ConnId) (rest : List ConnId)
    (ledger : Ledger site s t) (differ : p ≠ q) (phase : q.phase = p.phase) (front : s.ids p = id :: rest)
    (ids : s'.ids = move p q s.ids) (same : Untouched s s') : Ledger site s' (move p q t) := by
  obtain ⟨socket, later, shape, _⟩ := ledger_front site s t p id rest ledger front
  refine ledger_untouched site s s' t _ ledger same ?_ (Placement.apart_move _ p q t ledger.idsApart differ)
    (Placement.apart_move _ p q t ledger.socketsApart differ) ?_
  · intro r
    rw [Placement.map_move, ids, funext ledger.ids]
  · intro r ticket member
    rcases Placement.mem_move p q r t _ ticket later shape differ member with old | ⟨rfl, rfl⟩
    · exact ⟨r, old, rfl⟩
    · exact ⟨p, shape ▸ List.mem_cons_self, phase⟩

theorem ledger_left (site : Site) (s s' : System) (t : Tickets) (p : Place) (ledger : Ledger site s t)
    (ids : s'.ids = leave p s.ids) (same : Untouched s s') : Ledger site s' (leave p t) := by
  refine ledger_untouched site s s' t _ ledger same ?_ (Placement.apart_leave _ p t ledger.idsApart)
    (Placement.apart_leave _ p t ledger.socketsApart) ?_
  · intro r
    rw [Placement.map_leave, ids, funext ledger.ids]
  · intro r ticket member
    exact ⟨r, Placement.mem_leave p r t ticket member, rfl⟩

-- A new id names a slot that was empty, so no ticket has it, and the socket is
-- the next number.
theorem ledger_issued (site : Site) (s s' : System) (t : Tickets) (id : ConnId) (ledger : Ledger site s t)
    (ids : s'.ids = enter .acceptor id s.ids) (inserted : s.slab.insert (.new s.accepted) = (some id, s'.slab))
    (log : s'.log = s.log) (accepted : s'.accepted = s.accepted + 1) :
    Ledger site s' (enter .acceptor (id, s.accepted) t) := by
  obtain ⟨capacity, whole, empty, occupied, others⟩ := insert_issues s.slab s'.slab _ id ledger.slab inserted
  have unlike (p : Place) (ticket : Ticket) (member : ticket ∈ t p) : ticket.1 ≠ id := by
    intro same
    obtain ⟨conn, found, _⟩ := ledger.standing p ticket member
    rw [same, empty] at found
    cases found
  have older (p : Place) (ticket : Ticket) (member : ticket ∈ t p) : ticket.2 ≠ s.accepted :=
    Nat.ne_of_lt (ledger.issued p ticket member)
  refine ⟨?_, Placement.apart_enter _ _ _ t ledger.idsApart unlike, Placement.apart_enter _ _ _ t ledger.socketsApart older,
    capacity ▸ ledger.word, whole, ?_, ?_, ?_, log ▸ ledger.received, log ▸ ledger.sent⟩
  · intro r
    rw [Placement.map_enter, ids, funext ledger.ids]
  · intro r ticket member
    rw [accepted]
    rcases Placement.mem_enter _ r t _ ticket member with old | ⟨_, rfl⟩
    · exact Nat.lt_succ_of_lt (ledger.issued r ticket old)
    · exact Nat.lt_succ_self _
  · intro r ticket member
    rw [log]
    rcases Placement.mem_enter _ r t _ ticket member with old | ⟨rfl, rfl⟩
    · obtain ⟨conn, found, standing⟩ := ledger.standing r ticket old
      exact ⟨conn, (others _ (unlike r ticket old)).trans found, standing⟩
    · have untold : journal s.accepted s.log = [] :=
        unvisited _ _ fun visit member => Nat.ne_of_lt (ledger.logged visit member)
      refine ⟨.new s.accepted, occupied, ?_⟩
      rw [untold]
      exact .fresh
  · intro visit member
    rw [accepted]
    exact Nat.lt_succ_of_lt (ledger.logged visit (log ▸ member))

theorem ledger_refused (site : Site) (s s' : System) (t : Tickets) (ledger : Ledger site s t) (ids : s'.ids = s.ids)
    (slab : s'.slab = s.slab) (log : s'.log = s.log) (accepted : s'.accepted = s.accepted + 1) : Ledger site s' t where
  ids := fun p => ids ▸ ledger.ids p
  idsApart := ledger.idsApart
  socketsApart := ledger.socketsApart
  word := slab ▸ ledger.word
  slab := slab ▸ ledger.slab
  issued := fun p ticket member => accepted ▸ Nat.lt_succ_of_lt (ledger.issued p ticket member)
  standing := by rw [slab, log]; exact ledger.standing
  logged := fun visit member => accepted ▸ Nat.lt_succ_of_lt (ledger.logged visit (log ▸ member))
  received := log ▸ ledger.received
  sent := log ▸ ledger.sent

theorem with_conn_elsewhere (stage : StageId) (io : Io) (id other : ConnId) (slab : ConnSlab) (metrics : MetricsCollector)
    (body : ConnState → MetricsCollector → Served) (differ : other ≠ id) :
    (withConn stage io id slab metrics body).slab.get other = slab.get other := by
  unfold withConn
  cases slab.get id with
  | none => rfl
  | some conn =>
      simp only
      split
      · exact put_get_other slab id other _ differ
      · exact remove_get_other slab id other differ

theorem process_elsewhere (site : Site) (stage : StageId) (io : Io) (id other : ConnId) (slab : ConnSlab)
    (metrics : MetricsCollector) (differ : other ≠ id) :
    (processOne site stage io id slab metrics).slab.get other = slab.get other := by
  cases stage with
  | encode => rfl
  | parse => exact with_conn_elsewhere _ io id other slab metrics _ differ
  | route => exact with_conn_elsewhere _ io id other slab metrics _ differ
  | app => exact with_conn_elsewhere _ io id other slab metrics _ differ
  | netOut => exact with_conn_elsewhere _ io id other slab metrics _ differ

theorem with_conn_found (stage : StageId) (io : Io) (id : ConnId) (slab : ConnSlab) (metrics : MetricsCollector)
    (body : ConnState → MetricsCollector → Served) (conn : ConnState) (found : slab.get id = some conn) (whole : slab.Exact) :
    let turn := withConn stage io id slab metrics body
    let served := body conn metrics
    turn.slab.get id = served.conn ∧ turn.slab.Exact ∧
      turn.slab.capacity = slab.capacity ∧ (turn.next = .ok (some id) ↔ served.next = .ok true) ∧
      turn.visits = (conn.stream.map fun socket => ⟨socket, stage, io, served.received, served.sent⟩).toList := by
  have within := get_within slab id conn found
  have next (result : Except Fault Bool) :
      (result.map fun goesOn => if goesOn then some id else none) = .ok (some id) ↔ result = .ok true := by
    rcases result with fault | _ | _ <;> simp [Except.map]
  simp only [withConn, found]
  cases left : (body conn metrics).conn with
  | some after =>
      exact ⟨put_get_same slab id _ within, put_exact slab id conn after found whole, rfl, next _, trivial⟩
  | none =>
      exact ⟨remove_get_same slab id within, remove_exact slab id conn found whole, remove_capacity slab id, next _, trivial⟩

theorem accounts_visit (site : Site) (log : List Visit) (visit : Visit)
    (received : ∀ socket, receivedOn socket log = expectedReceived (journal socket log))
    (sent : ∀ socket, sentOn socket log = expectedSent site (journal socket log))
    (receivedHere : expectedReceived (journal visit.socket log ++ [(visit.stage, visit.io)]) =
      expectedReceived (journal visit.socket log) ++ visit.received)
    (sentHere : expectedSent site (journal visit.socket log ++ [(visit.stage, visit.io)]) =
      expectedSent site (journal visit.socket log) ++ visit.sent) (socket : Socket) :
    receivedOn socket (log ++ [visit]) = expectedReceived (journal socket (log ++ [visit])) ∧
      sentOn socket (log ++ [visit]) = expectedSent site (journal socket (log ++ [visit])) := by
  rw [journal_append, received_append, sent_append, received, sent]
  by_cases here : visit.socket = socket
  · subst here
    obtain ⟨visited, got, gave⟩ := visit_here visit
    rw [visited, got, gave, receivedHere, sentHere]
    exact ⟨rfl, rfl⟩
  · obtain ⟨visited, got, gave⟩ := visit_elsewhere socket visit here
    rw [visited, got, gave, List.append_nil, List.append_nil, List.append_nil]
    exact ⟨rfl, rfl⟩

-- A locked process_one on the connection of the ticket at hand. Other tickets
-- have other slots and other sockets.
theorem ledger_body (site : Site) (s s' : System) (t t' : Tickets) (stage : StageId) (io : Io) (id : ConnId)
    (body : ConnState → MetricsCollector → Served) (socket : Socket) (ledger : Ledger site s t)
    (here : (id, socket) ∈ t (.popped stage))
    (well : ∀ visits conn, Standing site socket (Place.popped stage).phase visits conn →
      ServedWell site socket stage io visits (body conn s.metrics))
    (slab : s'.slab = (withConn stage io id s.slab s.metrics body).slab)
    (log : s'.log = s.log ++ (withConn stage io id s.slab s.metrics body).visits) (accepted : s'.accepted = s.accepted)
    (ids : ∀ p, (t' p).map Prod.fst = s'.ids p) (idsApart : Apart Prod.fst t') (socketsApart : Apart Prod.snd t')
    (members : ∀ q, ∀ ticket ∈ t' q, (ticket ∈ t q ∧ ticket.1 ≠ id ∧ ticket.2 ≠ socket) ∨
      (q = .passing stage ∧ ticket = (id, socket) ∧
        (withConn stage io id s.slab s.metrics body).next = .ok (some id))) : Ledger site s' t' := by
  obtain ⟨conn, found, standing⟩ := ledger.standing _ _ here
  obtain ⟨after, whole, capacity, next, visits⟩ :=
    with_conn_found stage io id s.slab s.metrics body conn found ledger.slab
  have stream := standing_stream site socket _ _ conn standing
  have served := well _ conn standing
  rw [stream] at visits
  simp only [Option.map_some, Option.toList_some] at visits
  rw [visits] at log
  have accounts := accounts_visit site s.log ⟨socket, stage, io, (body conn s.metrics).received, (body conn s.metrics).sent⟩
    ledger.received ledger.sent served.received served.sent
  have mine : journal socket s'.log = journal socket s.log ++ [(stage, io)] := by
    rw [log, journal_append]
    exact congrArg (journal socket s.log ++ ·) (visit_here ⟨socket, stage, io, _, _⟩).1
  have known : socket < s.accepted := ledger.issued _ _ here
  refine ⟨ids, idsApart, socketsApart, slab ▸ capacity ▸ ledger.word, slab ▸ whole, ?_, ?_, ?_,
    fun k => log ▸ (accounts k).1, fun k => log ▸ (accounts k).2⟩
  · intro q ticket member
    rw [accepted]
    rcases members q ticket member with ⟨old, _⟩ | ⟨_, rfl, _⟩
    · exact ledger.issued q ticket old
    · exact known
  · intro q ticket member
    rw [slab]
    rcases members q ticket member with ⟨old, otherId, otherSocket⟩ | ⟨rfl, rfl, goes⟩
    · obtain ⟨conn, found, standing⟩ := ledger.standing q ticket old
      refine ⟨conn, (with_conn_elsewhere stage io id ticket.1 s.slab s.metrics body otherId).trans found, ?_⟩
      rw [log, journal_append, (visit_elsewhere ticket.2 _ (Ne.symm otherSocket)).1, List.append_nil]
      exact standing
    · obtain ⟨conn', left, standing'⟩ := served.goesOn (next.mp goes)
      exact ⟨conn', after.trans left, mine ▸ standing'⟩
  · intro visit member
    rw [accepted]
    rw [log] at member
    rcases List.mem_append.mp member with old | new
    · exact ledger.logged visit old
    · rw [List.mem_singleton.mp new]
      exact known

theorem ledger_through (site : Site) (s s' : System) (t : Tickets) (stage : StageId) (io : Io) (id : ConnId)
    (body : ConnState → MetricsCollector → Served) (socket : Socket) (ledger : Ledger site s t)
    (shape : t (.popped stage) = [(id, socket)])
    (well : ∀ visits conn, Standing site socket (Place.popped stage).phase visits conn →
      ServedWell site socket stage io visits (body conn s.metrics))
    (slab : s'.slab = (withConn stage io id s.slab s.metrics body).slab)
    (log : s'.log = s.log ++ (withConn stage io id s.slab s.metrics body).visits) (accepted : s'.accepted = s.accepted)
    (ids : s'.ids = (withConn stage io id s.slab s.metrics body).onward stage s.ids) :
    Ledger site s' ((withConn stage io id s.slab s.metrics body).onward stage t) := by
  have here : (id, socket) ∈ t (.popped stage) := shape ▸ List.mem_cons_self
  have differ : Place.popped stage ≠ .passing stage := by simp
  have others (q : Place) (ticket : Ticket) (left : ticket ∈ leave (.popped stage) t q) :
      ticket ∈ t q ∧ ticket.1 ≠ id ∧ ticket.2 ≠ socket :=
    ⟨Placement.mem_leave _ q t ticket left, Placement.left_apart Prod.fst _ q t _ ticket [] shape ledger.idsApart left,
      Placement.left_apart Prod.snd _ q t _ ticket [] shape ledger.socketsApart left⟩
  by_cases goes : ∃ other, (withConn stage io id s.slab s.metrics body).next = .ok (some other)
  · obtain ⟨other, next⟩ := goes
    obtain rfl := with_conn_keeps_id stage io id other s.slab s.metrics body next
    rw [onward_some _ stage _ other next] at ids ⊢
    refine ledger_body site s s' t _ stage io other body socket ledger here well slab log accepted ?_
      (Placement.apart_move _ _ _ t ledger.idsApart differ) (Placement.apart_move _ _ _ t ledger.socketsApart differ) ?_
    · intro r
      rw [Placement.map_move, ids, funext ledger.ids]
    · intro q ticket member
      rw [Placement.move_enter _ _ t _ [] shape differ] at member
      rcases Placement.mem_enter _ q _ _ ticket member with old | ⟨target, moved⟩
      · exact .inl (others q ticket old)
      · exact .inr ⟨target, moved, next⟩
  · rw [onward_none _ stage _ (not_exists.mp goes)] at ids ⊢
    refine ledger_body site s s' t _ stage io id body socket ledger here well slab log accepted ?_
      (Placement.apart_leave _ _ t ledger.idsApart) (Placement.apart_leave _ _ t ledger.socketsApart) ?_
    · intro r
      rw [Placement.map_leave, ids, funext ledger.ids]
    · exact fun q ticket member => .inl (others q ticket member)

theorem ledger_served (site : Site) (s s' : System) (t : Tickets) (stage : StageId) (io : Io) (id : ConnId)
    (ledger : Ledger site s t) (front : s.ids (.popped stage) = [id])
    (slab : s'.slab = (processOne site stage io id s.slab s.metrics).slab)
    (log : s'.log = s.log ++ (processOne site stage io id s.slab s.metrics).visits) (accepted : s'.accepted = s.accepted)
    (ids : s'.ids = (processOne site stage io id s.slab s.metrics).onward stage s.ids) :
    Ledger site s' ((processOne site stage io id s.slab s.metrics).onward stage t) := by
  obtain ⟨socket, later, shape, none⟩ := ledger_front site s t _ id [] ledger front
  obtain rfl : later = [] := List.map_eq_nil_iff.mp none
  have through (body : ConnState → MetricsCollector → Served) :=
    ledger_through site s s' t stage io id body socket ledger shape
  cases stage with
  | parse => exact through _ (fun visits conn => parse_served site socket io visits conn s.metrics) slab log accepted ids
  | route => exact through _ (fun visits conn => route_served site socket io visits conn s.metrics) slab log accepted ids
  | app => exact through _ (fun visits conn => app_served site socket io visits conn s.metrics) slab log accepted ids
  | encode =>
      have same : Untouched s s' := ⟨slab, log.trans (List.append_nil _), accepted⟩
      exact ledger_moved site s s' t _ _ id [] ledger (by simp) rfl front ids same
  | netOut => exact through _ (fun visits conn => net_out_served site socket io visits conn s.metrics) slab log accepted ids

theorem carry_served (s s' : System) (t : Tickets) (stage : StageId) (io : Io) (id : ConnId) (turn : Turn)
    (front : s.ids (.popped stage) = [id]) (ids : s'.ids = turn.onward stage s.ids) :
    carry (.process stage io) s s' t = turn.onward stage t := by
  by_cases goes : ∃ other, turn.next = .ok (some other)
  · obtain ⟨other, next⟩ := goes
    rw [onward_some turn stage _ other next] at ids ⊢
    exact carry_moved _ s s' t _ _ id [] rfl rfl front ids
  · rw [onward_none turn stage _ (not_exists.mp goes)] at ids ⊢
    exact carry_left _ s s' t _ id [] rfl front ids

theorem ledger_step (site : Site) (s s' : System) (t : Tickets) (a : Action) (ledger : Ledger site s t)
    (taken : s.step site a = some s') : Ledger site s' (carry a s s' t) := by
  cases step_effect site s s' a (ledger_real site s t ledger) taken with
  | quiet action ids same idle =>
      rw [carry_quiet a s s' t action ids]
      refine ledger_untouched site s s' t t ledger same (fun p => ids ▸ ledger.ids p) ledger.idsApart ledger.socketsApart ?_
      exact fun q ticket member => ⟨q, member, rfl⟩
  | moved p q id rest source target front ids same locked room =>
      have differ : p ≠ q := fun same => source_not_target a p source (same ▸ target)
      rw [carry_moved a s s' t p q id rest source target front ids]
      exact ledger_moved site s s' t p q id rest ledger differ (moved_phase a p q source target locked) front ids same
  | dropped p id rest source front ids same locked refused =>
      rw [carry_left a s s' t p id rest source front ids]
      exact ledger_left site s s' t p ledger ids same
  | issued id action empty ids inserted log accepted =>
      have mine : s'.ids .acceptor = [id] := by
        rw [ids, enter, Function.update_self, empty, List.nil_append]
      have carried : carry a s s' t = enter .acceptor (id, s.accepted) t := by
        rw [action]
        simp only [carry, Action.source, mine]
      rw [carried]
      exact ledger_issued site s s' t id ledger ids inserted log accepted
  | refused action empty ids slab log accepted =>
      have carried : carry a s s' t = t := by
        rw [action]
        simp only [carry, Action.source, ids, empty]
      rw [carried]
      exact ledger_refused site s s' t ledger ids slab log accepted
  | served stage io id action front slab log accepted ids =>
      rw [action, carry_served s s' t stage io id _ front ids]
      exact ledger_served site s s' t stage io id ledger front slab log accepted ids

abbrev TicketedRun (site : Site) (config : OrchestratorConfig) (s : System) (t : Tickets) : Prop :=
  Runs.Run (Runs.instrument (System.step site) carry) Runs.anyStep (System.new config, fun _ => []) (s, t)

theorem run_ledger (site : Site) (config : OrchestratorConfig) (s : System) (t : Tickets)
    (run : TicketedRun site config s t) : Ledger site s t := by
  refine Runs.run_invariant (fun st => Ledger site st.1 st.2) _ (s, t) run (new_ledger site config) ?_
  rintro ⟨s, t⟩ a st' ledger _ taken
  obtain ⟨s', stepped, rfl⟩ := Option.map_eq_some_iff.mp taken
  exact ledger_step site s s' t a ledger stepped

theorem ticketed (site : Site) (config : OrchestratorConfig) (s : System)
    (run : Runs.Run (System.step site) Runs.anyStep (System.new config) s) : ∃ t, TicketedRun site config s t :=
  Runs.instrument_run carry _ _ s run

end Ners.Server
