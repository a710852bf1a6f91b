import Ners.Base.Runs
import Ners.Server.Pipeline

set_option autoImplicit false

namespace Ners.Server

open Function (update)
open Runs (Reached execute carried carried_snoc reached_invariant)

-- NetOutStage::process, and what the stages before it do: a connection with its
-- response lies in a slot, with no byte written, and an id comes into the queue.
inductive NetOutCall where
  | arrive (conn : ConnState)
  | queue (id : ConnId)
  | process (ios : Nat → Io)

def Pipeline.arrival (p : Pipeline) (conn : ConnState) : ConnState :=
  { conn with stream := some p.accepted, bytesWritten := 0 }

def Pipeline.arrive (p : Pipeline) (conn : ConnState) : Pipeline :=
  { p with slab := (p.slab.insert (p.arrival conn)).2, accepted := p.accepted + 1 }

def Pipeline.netOutStep (p : Pipeline) : NetOutCall → Option Pipeline
  | .arrive conn => some (p.arrive conn)
  | .queue id => (p.push .netOut none id).toOption
  | .process ios => (netOutProcess ios p).result.toOption

-- The responses that got a slot, each with its socket.
abbrev Responses := List (Socket × Bytes)

def Pipeline.record (p : Pipeline) (call : NetOutCall) (responses : Responses) : Responses :=
  match call with
  | .arrive conn =>
      match (p.slab.insert (p.arrival conn)).1 with
      | some _ => (p.accepted, conn.writeBuf) :: responses
      | none => responses
  | _ => responses

def responsesOf (config : PipelineConfig) (history : List NetOutCall) : Responses :=
  carried Pipeline.netOutStep Pipeline.record (.new config) [] history

def visitsTo (socket : Socket) (log : List Visit) : List Visit := log.filter fun visit => visit.socket = socket

def acceptedIn (visits : List Visit) : Bytes := visits.flatMap Visit.sent

-- In one of the visits write_all returned an error, at the offset that the
-- bytes accepted before it make.
def FailedIn (response : Bytes) (visits : List Visit) : Prop :=
  ∃ before visit after, visits = before ++ visit :: after ∧
    ∃ sent e, writeAll visit.io response (acceptedIn before).length = .ok (sent, .error e)

def Pipeline.Holds (p : Pipeline) (socket : Socket) (id : ConnId) (conn : ConnState) : Prop :=
  p.slab.get id = some conn ∧ conn.stream = some socket

structure Sent (p : Pipeline) (socket : Socket) (response : Bytes) : Prop where
  inOrder : ∀ log, log <+: p.log → acceptedIn (visitsTo socket log) <+: response
  offset : ¬ FailedIn response (visitsTo socket p.log) → ∀ id conn, p.Holds socket id conn →
    conn.writeBuf = response ∧ conn.bytesWritten ≤ response.length ∧
      acceptedIn (visitsTo socket p.log) = response.take conn.bytesWritten
  removed : ¬ FailedIn response (visitsTo socket p.log) →
    ((∀ id conn, ¬ p.Holds socket id conn) ↔
      visitsTo socket p.log ≠ [] ∧ acceptedIn (visitsTo socket p.log) = response)

-- What has become of a response after some visits.
inductive Fate (slab : ConnSlab) (socket : Socket) (response : Bytes) (visits : List Visit) : Prop where
  | waiting (id : ConnId) (conn : ConnState) (found : slab.get id = some conn) (stream : conn.stream = some socket)
      (buffer : conn.writeBuf = response) (within : conn.bytesWritten ≤ response.length)
      (accepted : acceptedIn visits = response.take conn.bytesWritten) (fine : ¬ FailedIn response visits)
      (short : visits ≠ [] → conn.bytesWritten < response.length)
  | delivered (gone : ∀ id conn, slab.get id = some conn → conn.stream ≠ some socket) (visited : visits ≠ [])
      (accepted : acceptedIn visits = response) (fine : ¬ FailedIn response visits)
  | failed (gone : ∀ id conn, slab.get id = some conn → conn.stream ≠ some socket) (part : acceptedIn visits <+: response)
      (error : FailedIn response visits)

structure Sending (responses : Responses) (p : Pipeline) : Prop where
  whole : p.slab.Exact
  fates : ∀ socket response, (socket, response) ∈ responses → Fate p.slab socket response (visitsTo socket p.log)
  apart : ∀ i j x y socket, p.slab.get i = some x → p.slab.get j = some y → x.stream = some socket → y.stream = some socket → i = j
  known : ∀ id conn socket, p.slab.get id = some conn → conn.stream = some socket → socket < p.accepted
  older : ∀ socket response, (socket, response) ∈ responses → socket < p.accepted
  seen : ∀ visit ∈ p.log, visit.socket < p.accepted
  within : ∀ id conn, p.slab.get id = some conn → conn.bytesWritten ≤ conn.writeBuf.length

theorem visits_to_append (socket : Socket) (log more : List Visit) :
    visitsTo socket (log ++ more) = visitsTo socket log ++ visitsTo socket more := List.filter_append _ _

theorem visits_here (visit : Visit) : visitsTo visit.socket [visit] = [visit] := by
  simp [visitsTo]

theorem accepted_append (visits more : List Visit) : acceptedIn (visits ++ more) = acceptedIn visits ++ acceptedIn more :=
  List.flatMap_append

theorem failed_snoc (response : Bytes) (visits : List Visit) (visit : Visit) :
    FailedIn response (visits ++ [visit]) ↔ FailedIn response visits ∨
      ∃ sent e, writeAll visit.io response (acceptedIn visits).length = .ok (sent, .error e) := by
  constructor
  · rintro ⟨before, wrong, after, split, error⟩
    rcases List.eq_nil_or_concat after with rfl | ⟨after, last, rfl⟩
    · obtain ⟨rfl, same⟩ := List.append_inj' split rfl
      obtain ⟨rfl, _⟩ := List.cons.inj same
      exact .inr error
    · rw [List.concat_eq_append, ← List.cons_append, ← List.append_assoc] at split
      obtain ⟨rfl, _⟩ := List.append_inj' split rfl
      exact .inl ⟨before, wrong, after, rfl, error⟩
  · rintro (⟨before, wrong, after, rfl, error⟩ | error)
    · exact ⟨before, wrong, after ++ [visit], by simp, error⟩
    · exact ⟨visits, visit, [], rfl, error⟩

-- What the socket took is within the data, and is the count returned.
theorem write_loop_total (results : List WriteResult) (data : Bytes) (totalWritten : Nat) (start : totalWritten ≤ data.length) :
    (writeLoop results data totalWritten).1 ≤ data.length ∧
      ∀ n, (writeLoop results data totalWritten).2 = .ok n → n = (writeLoop results data totalWritten).1 := by
  fun_induction writeLoop results data totalWritten with
  | case1 total => exact ⟨start, fun n same => (Except.ok.inj same).symm⟩
  | case2 later total => exact ⟨start, fun n same => (Except.ok.inj same).symm⟩
  | case3 later total => exact ⟨start, nofun⟩
  | case4 later total => exact ⟨start, nofun⟩
  | case5 n later data total sum full => exact ⟨by omega, fun n same => (Except.ok.inj same).symm⟩
  | case6 n later data total sum rest ih => exact ih (by omega)

theorem write_all_total (io : Io) (buf : Bytes) (offset : Nat) (within : offset ≤ buf.length) :
    ∃ count result, writeAll io buf offset = .ok ((buf.drop offset).take count, result) ∧ offset + count ≤ buf.length ∧
      ∀ n, result = .ok n → n = count := by
  rw [writeAll, slice_from_ok buf offset within]
  by_cases empty : buf.drop offset = []
  · simp only [empty, if_true]
    exact ⟨0, .ok 0, rfl, within, fun n same => (Except.ok.inj same).symm⟩
  · obtain ⟨bound, count⟩ := write_loop_total io.writes (buf.drop offset) 0 (Nat.zero_le _)
    rw [List.length_drop] at bound
    simp only [if_neg empty]
    exact ⟨_, _, rfl, by omega, count⟩

-- What the body of the loop does to a connection with a stream.
inductive NetOutTurn (io : Io) (conn : ConnState) (handled : Handled) : Prop where
  | finished (count : Nat) (end' : conn.bytesWritten + count = conn.writeBuf.length) (next : handled.next = .ok none)
      (after : handled.conn = none) (sent : handled.sent = (conn.writeBuf.drop conn.bytesWritten).take count)
      (fine : ∃ n, writeAll io conn.writeBuf conn.bytesWritten = .ok (handled.sent, .ok n))
  | short (count : Nat) (room : conn.bytesWritten + count < conn.writeBuf.length)
      (next : handled.next = .ok (some (.netOut, "net_out")))
      (after : handled.conn = some { conn with bytesWritten := conn.bytesWritten + count })
      (sent : handled.sent = (conn.writeBuf.drop conn.bytesWritten).take count)
      (fine : ∃ n, writeAll io conn.writeBuf conn.bytesWritten = .ok (handled.sent, .ok n))
  | failed (count : Nat) (next : handled.next = .ok none) (after : handled.conn = none)
      (sent : handled.sent = (conn.writeBuf.drop conn.bytesWritten).take count)
      (error : ∃ e, writeAll io conn.writeBuf conn.bytesWritten = .ok (handled.sent, .error e))

theorem net_out_turn (io : Io) (conn : ConnState) (metrics : MetricsCollector) (stream : conn.stream.isSome = true)
    (within : conn.bytesWritten ≤ conn.writeBuf.length) : NetOutTurn io conn (netOutStage io conn metrics) := by
  obtain ⟨count, result, written, bound, same⟩ := write_all_total io conn.writeBuf conn.bytesWritten within
  cases result with
  | error e =>
      have handled : netOutStage io conn metrics = ⟨.ok none, none, metrics.decTotalConns.incErrors "net_out", [],
          (conn.writeBuf.drop conn.bytesWritten).take count⟩ := by
        simp only [netOutStage, stream, if_true, written]
      rw [handled]
      exact .failed count rfl rfl rfl ⟨e, written⟩
  | ok n =>
      obtain rfl := same n rfl
      by_cases whole : conn.writeBuf.length ≤ conn.bytesWritten + n
      · have handled : netOutStage io conn metrics = ⟨.ok none, none, metrics.decTotalConns, [],
            (conn.writeBuf.drop conn.bytesWritten).take n⟩ := by
          simp only [netOutStage, stream, if_true, written, if_pos whole]
        rw [handled]
        exact .finished n (by omega) rfl rfl rfl ⟨n, written⟩
      · have handled : netOutStage io conn metrics = ⟨.ok (some (.netOut, "net_out")),
            some { conn with bytesWritten := conn.bytesWritten + n }, metrics, [], (conn.writeBuf.drop conn.bytesWritten).take n⟩ := by
          simp only [netOutStage, stream, if_true, written, if_neg whole]
        rw [handled]
        exact .short n (by omega) rfl rfl rfl ⟨n, written⟩

-- A slab after a turn on the connection of one slot.
structure Touched (slab slab' : ConnSlab) (id : ConnId) (conn : ConnState) : Prop where
  whole : slab'.Exact
  others : ∀ other, other ≠ id → slab'.get other = slab.get other
  stream : ∀ after, slab'.get id = some after → after.stream = conn.stream
  within : ∀ after, slab'.get id = some after → after.bytesWritten ≤ after.writeBuf.length

theorem removed_touched (slab : ConnSlab) (id : ConnId) (conn : ConnState) (whole : slab.Exact) (found : slab.get id = some conn) :
    Touched slab (slab.remove id) id conn := by
  have none := remove_get_same slab id (get_within slab id conn found)
  refine ⟨remove_exact slab id conn found whole, remove_get_other slab id, fun after there => ?_, fun after there => ?_⟩
  · cases none.symm.trans there
  · cases none.symm.trans there

theorem put_touched (slab : ConnSlab) (id : ConnId) (conn after : ConnState) (whole : slab.Exact) (found : slab.get id = some conn)
    (stream : after.stream = conn.stream) (within : after.bytesWritten ≤ after.writeBuf.length) :
    Touched slab (slab.put id (some after)) id conn := by
  have stored := put_get_same slab id (some after) (get_within slab id conn found)
  refine ⟨put_exact slab id conn after found whole, fun other differ => put_get_other slab id other _ differ, fun x there => ?_,
    fun x there => ?_⟩
  · obtain rfl := Option.some.inj (stored.symm.trans there)
    exact stream
  · obtain rfl := Option.some.inj (stored.symm.trans there)
    exact within

theorem touched_before (slab slab' : ConnSlab) (id i : ConnId) (conn x : ConnState) (found : slab.get id = some conn)
    (touched : Touched slab slab' id conn) (there : slab'.get i = some x) : ∃ old, slab.get i = some old ∧ old.stream = x.stream := by
  by_cases same : i = id
  · subst same
    exact ⟨conn, found, (touched.stream x there).symm⟩
  · exact ⟨x, (touched.others i same).symm.trans there, rfl⟩

-- Nothing becomes of a response in a step that leaves its own connection alone
-- and gives its socket to no other.
theorem fate_carried (slab slab' : ConnSlab) (socket : Socket) (response : Bytes) (visits : List Visit)
    (kept : ∀ i x, slab.get i = some x → x.stream = some socket → slab'.get i = some x)
    (old : ∀ i x, slab'.get i = some x → x.stream = some socket → ∃ j y, slab.get j = some y ∧ y.stream = some socket)
    (fate : Fate slab socket response visits) : Fate slab' socket response visits := by
  have stays (gone : ∀ id conn, slab.get id = some conn → conn.stream ≠ some socket) (i : ConnId) (x : ConnState)
      (there : slab'.get i = some x) : x.stream ≠ some socket := by
    intro mine
    obtain ⟨j, y, before, also⟩ := old i x there mine
    exact gone j y before also
  cases fate with
  | waiting i x there stream buffer within accepted fine short =>
      exact .waiting i x (kept i x there stream) stream buffer within accepted fine short
  | delivered gone visited accepted fine => exact .delivered (stays gone) visited accepted fine
  | failed gone part error => exact .failed (stays gone) part error

theorem fate_elsewhere (slab slab' : ConnSlab) (id : ConnId) (conn : ConnState) (socket : Socket) (response : Bytes)
    (visits : List Visit) (found : slab.get id = some conn) (touched : Touched slab slab' id conn) (other : conn.stream ≠ some socket)
    (fate : Fate slab socket response visits) : Fate slab' socket response visits := by
  refine fate_carried slab slab' socket response visits (fun i x there stream => ?_) (fun i x there stream => ?_) fate
  · have apart : i ≠ id := by
      rintro rfl
      obtain rfl := Option.some.inj (found.symm.trans there)
      exact other stream
    exact (touched.others i apart).trans there
  · obtain ⟨y, before, same⟩ := touched_before slab slab' id i conn x found touched there
    exact ⟨i, y, before, same.trans stream⟩

theorem touched_sending (responses : Responses) (p p' : Pipeline) (id : ConnId) (conn : ConnState) (added : List Visit)
    (sending : Sending responses p) (found : p.slab.get id = some conn) (touched : Touched p.slab p'.slab id conn)
    (log : p'.log = p.log ++ added) (accepted : p'.accepted = p.accepted) (mine : ∀ visit ∈ added, conn.stream = some visit.socket)
    (own : ∀ socket response, conn.stream = some socket → (socket, response) ∈ responses →
      Fate p'.slab socket response (visitsTo socket p'.log)) : Sending responses p' := by
  refine ⟨touched.whole, fun socket response member => ?_, fun i j x y socket one other here there => ?_,
    fun i x socket there stream => ?_, fun socket response member => ?_, fun visit member => ?_, fun i x there => ?_⟩
  · by_cases same : conn.stream = some socket
    · exact own socket response same member
    · have unchanged : visitsTo socket p'.log = visitsTo socket p.log := by
        rw [log, visits_to_append, List.append_right_eq_self, visitsTo, List.filter_eq_nil_iff]
        intro visit member here
        exact same ((mine visit member).trans (congrArg some (of_decide_eq_true here)))
      rw [unchanged]
      exact fate_elsewhere _ _ id conn socket response _ found touched same (sending.fates socket response member)
  · obtain ⟨x', before, left⟩ := touched_before _ _ id i conn x found touched one
    obtain ⟨y', also, right⟩ := touched_before _ _ id j conn y found touched other
    exact sending.apart i j x' y' socket before also (left.trans here) (right.trans there)
  · obtain ⟨old, before, same⟩ := touched_before _ _ id i conn x found touched there
    exact accepted ▸ sending.known i old socket before (same.trans stream)
  · exact accepted ▸ sending.older socket response member
  · rw [log, List.mem_append] at member
    rw [accepted]
    rcases member with old | new
    · exact sending.seen visit old
    · exact sending.known id conn visit.socket found (mine visit new)
  · by_cases same : i = id
    · subst same
      exact touched.within x there
    · exact sending.within i x ((touched.others i same).symm.trans there)

-- The connection in the slot is the one that waits with the response.
theorem held_waiting (responses : Responses) (p : Pipeline) (id : ConnId) (conn : ConnState) (socket : Socket) (response : Bytes)
    (sending : Sending responses p) (found : p.slab.get id = some conn) (stream : conn.stream = some socket)
    (member : (socket, response) ∈ responses) :
    conn.writeBuf = response ∧ acceptedIn (visitsTo socket p.log) = response.take conn.bytesWritten ∧
      (acceptedIn (visitsTo socket p.log)).length = conn.bytesWritten ∧ ¬ FailedIn response (visitsTo socket p.log) := by
  cases sending.fates socket response member with
  | waiting i x there here buffer within accepted fine short =>
      obtain rfl := sending.apart id i conn x socket found there stream here
      obtain rfl := Option.some.inj (found.symm.trans there)
      exact ⟨buffer, accepted, by rw [accepted, List.length_take, Nat.min_eq_left within], fine⟩
  | delivered gone visited accepted fine => exact absurd stream (gone id conn found)
  | failed gone part error => exact absurd stream (gone id conn found)

theorem removed_gone (responses : Responses) (p : Pipeline) (id : ConnId) (conn : ConnState) (socket : Socket)
    (sending : Sending responses p) (found : p.slab.get id = some conn) (stream : conn.stream = some socket) (i : ConnId)
    (x : ConnState) (there : (p.slab.remove id).get i = some x) : x.stream ≠ some socket := by
  intro here
  by_cases same : i = id
  · subst same
    cases (remove_get_same p.slab i (get_within p.slab i conn found)).symm.trans there
  · rw [remove_get_other p.slab id i same] at there
    exact same (sending.apart i id x conn socket there found here stream)

theorem turn_fate (responses : Responses) (p : Pipeline) (id : ConnId) (conn : ConnState) (socket : Socket) (response : Bytes)
    (io : Io) (handled : Handled) (sending : Sending responses p) (found : p.slab.get id = some conn)
    (stream : conn.stream = some socket) (member : (socket, response) ∈ responses) (turn : NetOutTurn io conn handled) :
    Fate (p.store .netOut io id conn handled).slab socket response
      (visitsTo socket p.log ++ [⟨socket, .netOut, io, handled.received, handled.sent⟩]) := by
  obtain ⟨rfl, accepted, offset, fine⟩ := held_waiting responses p id conn socket response sending found stream member
  have gone := removed_gone responses p id conn socket sending found stream
  have more (count : Nat) (sent : handled.sent = (conn.writeBuf.drop conn.bytesWritten).take count) :
      acceptedIn (visitsTo socket p.log ++ [⟨socket, .netOut, io, handled.received, handled.sent⟩]) =
        conn.writeBuf.take (conn.bytesWritten + count) := by
    rw [accepted_append, accepted, List.take_add, ← sent]
    exact congrArg _ (List.append_nil _)
  have fault := failed_snoc conn.writeBuf (visitsTo socket p.log) ⟨socket, .netOut, io, handled.received, handled.sent⟩
  rw [or_iff_right fine, offset] at fault
  have calm (written : ∃ n, writeAll io conn.writeBuf conn.bytesWritten = .ok (handled.sent, .ok n)) :
      ¬ FailedIn conn.writeBuf (visitsTo socket p.log ++ [⟨socket, .netOut, io, handled.received, handled.sent⟩]) := by
    obtain ⟨n, written⟩ := written
    rw [fault]
    rintro ⟨sent, e, error⟩
    cases written.symm.trans error
  cases turn with
  | finished count end' next after sent written =>
      rw [Pipeline.store, after]
      refine .delivered gone (by simp) ?_ (calm written)
      rw [more count sent, end', List.take_length]
  | short count room next after sent written =>
      rw [Pipeline.store, after]
      exact .waiting id _ (put_get_same p.slab id _ (get_within p.slab id conn found)) stream rfl (Nat.le_of_lt room)
        (more count sent) (calm written) fun _ => room
  | failed count next after sent error =>
      obtain ⟨e, error⟩ := error
      rw [Pipeline.store, after]
      refine .failed gone ?_ (fault.mpr ⟨_, e, error⟩)
      rw [more count sent]
      exact List.take_prefix _ _

theorem push_returns (p : Pipeline) (queue : StageId) (gauge : Option String) (id : ConnId) (cells : (p.queues queue).capacity ≠ 0) :
    ∃ p', p.push queue gauge id = .ok p' := by
  unfold Pipeline.push
  by_cases full : (p.queues queue).contents.length = (p.queues queue).capacity - 1
  · simp only [push_full _ id cells full]
    exact ⟨p, rfl⟩
  · obtain ⟨longer, stored, _⟩ := push_room _ id cells full
    simp only [stored]
    exact ⟨_, rfl⟩

theorem push_keeps (p p' : Pipeline) (queue : StageId) (gauge : Option String) (id : ConnId)
    (pushed : p.push queue gauge id = .ok p') : p'.slab = p.slab ∧ p'.log = p.log ∧ p'.accepted = p.accepted := by
  rcases push_ok p p' queue gauge id pushed with ⟨_, rfl⟩ | ⟨_, longer, _, _, rfl⟩
  · exact ⟨rfl, rfl, rfl⟩
  · exact ⟨rfl, rfl, rfl⟩

theorem sending_same (responses : Responses) (p p' : Pipeline) (slab : p'.slab = p.slab) (log : p'.log = p.log)
    (accepted : p'.accepted = p.accepted) (sending : Sending responses p) : Sending responses p' := by
  obtain ⟨whole, fates, apart, known, older, seen, within⟩ := sending
  refine ⟨slab ▸ whole, ?_, slab ▸ apart, ?_, accepted ▸ older, ?_, slab ▸ within⟩
  · rw [slab, log]
    exact fates
  · rw [slab, accepted]
    exact known
  · rw [log, accepted]
    exact seen

theorem turn_stored (responses : Responses) (p : Pipeline) (id : ConnId) (conn : ConnState) (io : Io) (sending : Sending responses p)
    (found : p.slab.get id = some conn) : Sending responses (p.store .netOut io id conn (netOutStage io conn p.metrics)) := by
  have within := sending.within id conn found
  cases stream : conn.stream with
  | none =>
      have handled : netOutStage io conn p.metrics = ⟨.ok none, none, p.metrics, [], []⟩ := by
        simp only [netOutStage, stream, Option.isSome_none, Bool.false_eq_true, if_false]
      have log : (p.store .netOut io id conn (netOutStage io conn p.metrics)).log = p.log ++ [] := by
        rw [Pipeline.store, stream]
        rfl
      refine touched_sending responses p _ id conn [] sending found ?_ log rfl (List.forall_mem_nil _) fun socket _ same => ?_
      · rw [handled]
        exact removed_touched p.slab id conn sending.whole found
      · cases stream.symm.trans same
  | some socket =>
      have turn := net_out_turn io conn p.metrics (by rw [stream]; rfl) within
      have log : (p.store .netOut io id conn (netOutStage io conn p.metrics)).log = p.log ++
          [⟨socket, .netOut, io, (netOutStage io conn p.metrics).received, (netOutStage io conn p.metrics).sent⟩] := by
        rw [Pipeline.store, stream]
        rfl
      refine touched_sending responses p _ id conn _ sending found ?_ log rfl ?_ fun other response same member => ?_
      · cases turn with
        | finished count end' next after sent written =>
            rw [Pipeline.store, after]
            exact removed_touched p.slab id conn sending.whole found
        | short count room next after sent written =>
            rw [Pipeline.store, after]
            exact put_touched p.slab id conn _ sending.whole found rfl (Nat.le_of_lt room)
        | failed count next after sent error =>
            rw [Pipeline.store, after]
            exact removed_touched p.slab id conn sending.whole found
      · intro visit member
        rw [List.mem_singleton.mp member]
        exact stream
      · obtain rfl := Option.some.inj (stream.symm.trans same)
        have fate := turn_fate responses p id conn socket response io _ sending found stream member turn
        rwa [log, visits_to_append, visits_here ⟨socket, _, _, _, _⟩]

theorem net_out_next (io : Io) (conn : ConnState) (metrics : MetricsCollector) (within : conn.bytesWritten ≤ conn.writeBuf.length) :
    (netOutStage io conn metrics).next = .ok none ∨ (netOutStage io conn metrics).next = .ok (some (.netOut, "net_out")) := by
  by_cases stream : conn.stream.isSome = true
  · cases net_out_turn io conn metrics stream within with
    | finished count end' next after sent written => exact .inl next
    | short count room next after sent written => exact .inr next
    | failed count next after sent error => exact .inl next
  · rw [netOutStage, if_neg stream]
    exact .inl rfl

theorem net_out_delivers (responses : Responses) (p : Pipeline) (id : ConnId) (io : Io) (sending : Sending responses p)
    (cells : (p.queues .netOut).capacity ≠ 0) : ∃ p', netOutServe io id p = .ok p' ∧ Sending responses p' := by
  unfold netOutServe Pipeline.withConn
  cases found : p.slab.get id with
  | none => exact ⟨p, rfl, sending⟩
  | some conn =>
      have stored := turn_stored responses p id conn io sending found
      dsimp only
      rcases net_out_next io conn p.metrics (sending.within id conn found) with removed | again
      · rw [removed]
        exact ⟨_, rfl, stored⟩
      · rw [again]
        obtain ⟨p', pushed⟩ := push_returns (p.store .netOut io id conn (netOutStage io conn p.metrics)) .netOut (some "net_out") id cells
        obtain ⟨slab, log, accepted⟩ := push_keeps _ p' _ _ _ pushed
        exact ⟨p', pushed, sending_same responses _ p' slab log accepted stored⟩

theorem popped_cells (q q' : RingQueue) (id : ConnId) (popped : q.pop = (some id, q')) : q'.capacity ≠ 0 := by
  unfold RingQueue.pop at popped
  split at popped
  · cases popped
  · rename_i differ
    obtain ⟨_, rfl⟩ := Prod.mk.inj popped
    exact differ_nonzero q differ

theorem net_out_loop (responses : Responses) (ios : List Io) (p : Pipeline) (sending : Sending responses p) :
    ∃ p', (p.loop .netOut (some "net_out") netOutServe ios).result = .ok p' ∧ Sending responses p' := by
  induction ios generalizing p with
  | nil => exact ⟨p, rfl, sending⟩
  | cons io later ih =>
      unfold Pipeline.loop
      rcases popped : (p.queues .netOut).pop with ⟨_ | id, queue⟩
      · exact ⟨_, rfl, sending_same responses p _ rfl rfl rfl sending⟩
      · have taken : Sending responses (p.take .netOut queue (some "net_out")) := sending_same responses p _ rfl rfl rfl sending
        have cells : ((p.take .netOut queue (some "net_out")).queues .netOut).capacity ≠ 0 := by
          have same : (p.take .netOut queue (some "net_out")).queues .netOut = queue := by
            rw [Pipeline.take]
            exact Function.update_self StageId.netOut queue p.queues
          rw [same]
          exact popped_cells _ queue id popped
        obtain ⟨middle, served, kept⟩ := net_out_delivers responses _ id io taken cells
        obtain ⟨p', looped, sent⟩ := ih middle kept
        simp only [served]
        exact ⟨p', looped, sent⟩

-- A slab after a connection has come into a free slot.
structure Arrived (slab slab' : ConnSlab) (new : ConnId) (conn : ConnState) : Prop where
  whole : slab'.Exact
  vacant : slab.get new = none
  stored : slab'.get new = some conn
  others : ∀ i, i ≠ new → slab'.get i = slab.get i

theorem arrived_before (slab slab' : ConnSlab) (new i : ConnId) (conn x : ConnState) (arrived : Arrived slab slab' new conn)
    (there : slab'.get i = some x) : (i = new ∧ x = conn) ∨ slab.get i = some x := by
  by_cases same : i = new
  · subst same
    exact .inl ⟨rfl, (Option.some.inj (arrived.stored.symm.trans there)).symm⟩
  · exact .inr ((arrived.others i same).symm.trans there)

theorem arrived_fate (slab slab' : ConnSlab) (new : ConnId) (conn : ConnState) (socket : Socket) (response : Bytes)
    (visits : List Visit) (arrived : Arrived slab slab' new conn) (other : conn.stream ≠ some socket)
    (fate : Fate slab socket response visits) : Fate slab' socket response visits := by
  refine fate_carried slab slab' socket response visits (fun i x there _ => ?_) (fun i x there stream => ?_) fate
  · have differ : i ≠ new := by
      rintro rfl
      cases arrived.vacant.symm.trans there
    exact (arrived.others i differ).trans there
  · rcases arrived_before slab slab' new i conn x arrived there with ⟨_, rfl⟩ | before
    · exact absurd stream other
    · exact ⟨i, x, before, stream⟩

-- The new socket has no visit yet, and no other response is on it.
theorem first_fate (responses : Responses) (p : Pipeline) (slab : ConnSlab) (new : ConnId) (conn : ConnState)
    (sending : Sending responses p) (arrived : Arrived p.slab slab new (p.arrival conn)) :
    Fate slab p.accepted conn.writeBuf (visitsTo p.accepted p.log) := by
  have unseen : visitsTo p.accepted p.log = [] := by
    rw [visitsTo, List.filter_eq_nil_iff]
    exact fun visit member here => absurd (of_decide_eq_true here) (Nat.ne_of_lt (sending.seen visit member))
  rw [unseen]
  refine .waiting new _ arrived.stored rfl rfl (Nat.zero_le _) List.take_zero.symm ?_ (fun visited => absurd rfl visited)
  rintro ⟨before, visit, after, split, _⟩
  exact absurd split (by simp)

theorem arrived_sending (responses : Responses) (p : Pipeline) (slab : ConnSlab) (new : ConnId) (conn : ConnState)
    (sending : Sending responses p) (arrived : Arrived p.slab slab new (p.arrival conn)) :
    Sending ((p.accepted, conn.writeBuf) :: responses) { p with slab := slab, accepted := p.accepted + 1 } := by
  have back := fun i x => arrived_before p.slab slab new i (p.arrival conn) x arrived
  have later (socket : Socket) (lower : socket < p.accepted) : (p.arrival conn).stream ≠ some socket :=
    fun same => Nat.ne_of_gt lower (Option.some.inj same)
  refine ⟨arrived.whole, fun socket response member => ?_, fun i j x y socket one other here there => ?_,
    fun i x socket there stream => ?_, fun socket response member => ?_,
    fun visit member => Nat.lt_succ_of_lt (sending.seen visit member), fun i x there => ?_⟩
  · rcases List.mem_cons.mp member with same | old
    · obtain ⟨rfl, rfl⟩ := Prod.mk.inj same
      exact first_fate responses p slab new conn sending arrived
    · exact arrived_fate _ _ new _ socket response _ arrived (later socket (sending.older socket response old))
        (sending.fates socket response old)
  · rcases back i x one with ⟨rfl, rfl⟩ | before
    · rcases back j y other with ⟨rfl, rfl⟩ | also
      · rfl
      · exact absurd here (later socket (sending.known j y socket also there))
    · rcases back j y other with ⟨rfl, rfl⟩ | also
      · exact absurd there (later socket (sending.known i x socket before here))
      · exact sending.apart i j x y socket before also here there
  · rcases back i x there with ⟨_, rfl⟩ | before
    · obtain rfl := Option.some.inj stream
      exact Nat.lt_succ_self _
    · exact Nat.lt_succ_of_lt (sending.known i x socket before stream)
  · rcases List.mem_cons.mp member with same | old
    · obtain ⟨rfl, _⟩ := Prod.mk.inj same
      exact Nat.lt_succ_self _
    · exact Nat.lt_succ_of_lt (sending.older socket response old)
  · rcases back i x there with ⟨_, rfl⟩ | before
    · exact Nat.zero_le _
    · exact sending.within i x before

theorem arrive_sending (responses : Responses) (p : Pipeline) (conn : ConnState) (sending : Sending responses p) :
    Sending (p.record (.arrive conn) responses) (p.arrive conn) := by
  rcases inserted : p.slab.insert (p.arrival conn) with ⟨_ | new, slab⟩
  · obtain rfl := insert_none p.slab slab _ inserted
    simp only [Pipeline.record, Pipeline.arrive, inserted]
    exact ⟨sending.whole, sending.fates, sending.apart,
      fun id x socket there stream => Nat.lt_succ_of_lt (sending.known id x socket there stream),
      fun socket response member => Nat.lt_succ_of_lt (sending.older socket response member),
      fun visit member => Nat.lt_succ_of_lt (sending.seen visit member), sending.within⟩
  · obtain ⟨_, exact_, empty, stored, others⟩ := insert_issues p.slab slab _ new sending.whole inserted
    simp only [Pipeline.record, Pipeline.arrive, inserted]
    exact arrived_sending responses p slab new conn sending ⟨exact_, empty, stored, others⟩

theorem new_sending (config : PipelineConfig) : Sending [] (Pipeline.new config) := by
  have empty (id : ConnId) (conn : ConnState) : (Pipeline.new config).slab.get id ≠ some conn := by
    intro there
    cases (new_get config.slabCapacity id).symm.trans there
  exact ⟨new_exact config.slabCapacity, nofun, fun i j x y socket one => absurd one (empty i x),
    fun id conn socket there => absurd there (empty id conn), nofun, nofun, fun id conn there => absurd there (empty id conn)⟩

theorem step_sending (responses : Responses) (p p' : Pipeline) (call : NetOutCall) (sending : Sending responses p)
    (taken : p.netOutStep call = some p') : Sending (p.record call responses) p' := by
  cases call with
  | arrive conn =>
      obtain rfl := Option.some.inj taken
      exact arrive_sending responses p conn sending
  | queue id =>
      obtain ⟨slab, log, accepted⟩ := push_keeps p p' .netOut none id (returned_of_option _ p' taken)
      exact sending_same responses p p' slab log accepted sending
  | process ios =>
      obtain ⟨after, looped, kept⟩ := net_out_loop responses (turns ios) p sending
      obtain rfl := Except.ok.inj (looped.symm.trans (returned_of_option _ p' taken))
      exact kept

theorem history_sending (config : PipelineConfig) (calls history : List NetOutCall) (p : Pipeline)
    (reached : Reached Pipeline.netOutStep (.new config) calls history p) : Sending (responsesOf config history) p := by
  refine reached_invariant (fun history p => Sending (responsesOf config history) p) (fun _ _ _ _ => True) _ calls
    (new_sending config) ?_ (fun _ _ _ _ _ => trivial) history p reached
  intro before call p p' sending there _
  rw [responsesOf, carried_snoc _ _ p [] before call there.reached]
  exact step_sending _ p p' call sending there.taken

theorem accepted_grows (socket : Socket) (log more : List Visit) (early : log <+: more) :
    acceptedIn (visitsTo socket log) <+: acceptedIn (visitsTo socket more) := by
  obtain ⟨later, rfl⟩ := early
  rw [visits_to_append, accepted_append]
  exact List.prefix_append _ _

theorem fate_part (slab : ConnSlab) (socket : Socket) (response : Bytes) (visits : List Visit)
    (fate : Fate slab socket response visits) : acceptedIn visits <+: response := by
  cases fate with
  | waiting id conn found stream buffer within accepted fine short =>
      rw [accepted]
      exact List.take_prefix _ _
  | delivered gone visited accepted fine => exact accepted ▸ List.prefix_rfl
  | failed gone part error => exact part

theorem sending_sent (responses : Responses) (p : Pipeline) (socket : Socket) (response : Bytes) (sending : Sending responses p)
    (member : (socket, response) ∈ responses) : Sent p socket response := by
  have fate := sending.fates socket response member
  refine ⟨fun log early => ?_, fun calm id conn held => ?_, fun calm => ?_⟩
  · exact (accepted_grows socket log p.log early).trans (fate_part _ _ _ _ fate)
  · obtain ⟨found, stream⟩ := held
    obtain ⟨rfl, accepted, _, _⟩ := held_waiting responses p id conn socket response sending found stream member
    exact ⟨rfl, sending.within id conn found, accepted⟩
  · cases fate with
    | waiting id conn found stream buffer within accepted fine short =>
        constructor
        · exact fun gone => absurd ⟨found, stream⟩ (gone id conn)
        · rintro ⟨visited, whole⟩
          have full := congrArg List.length (accepted.symm.trans whole)
          rw [List.length_take, Nat.min_eq_left within] at full
          exact absurd full (Nat.ne_of_lt (short visited))
    | delivered gone visited accepted fine =>
        exact ⟨fun _ => ⟨visited, accepted⟩, fun _ id conn held => gone id conn held.1 held.2⟩
    | failed gone part error => exact absurd error calm

theorem responses_sent_in_order (config : PipelineConfig) (calls history : List NetOutCall) (p : Pipeline)
    (reached : Reached Pipeline.netOutStep (.new config) calls history p) :
    (∀ socket response, (socket, response) ∈ responsesOf config history → Sent p socket response) ∧
      (∀ id conn, p.slab.get id = some conn → conn.bytesWritten ≤ conn.writeBuf.length) ∧
      ∀ ios, ∃ p', (netOutProcess ios p).result = .ok p' := by
  have sending := history_sending config calls history p reached
  refine ⟨fun socket response member => sending_sent _ p socket response sending member, sending.within, fun ios => ?_⟩
  obtain ⟨p', processed, _⟩ := net_out_loop _ (turns ios) p sending
  exact ⟨p', processed⟩

def oneQueue : PipelineConfig := ⟨1, fun _ => 2, by decide, fun _ => by decide⟩

def greeting : ConnState := { ConnState.new 0 with writeBuf := [104, 105, 33] }

-- One byte at the first turn, and the others at the second.
def resumed : List NetOutCall :=
  [.arrive greeting, .queue 0, .process fun turn => ⟨[], if turn = 0 then [.accepted 1] else [.accepted 5]⟩]

theorem short_write_resumed : ∃ p, execute Pipeline.netOutStep (.new oneQueue) resumed = some p ∧
    responsesOf oneQueue resumed = [(0, greeting.writeBuf)] ∧ Sent p 0 greeting.writeBuf ∧
      (visitsTo 0 p.log).map Visit.sent = [[104], [105, 33]] ∧ p.slab.get 0 = none := by
  refine ⟨_, rfl, rfl, ?_, rfl, rfl⟩
  exact (responses_sent_in_order oneQueue resumed resumed _ ⟨List.prefix_rfl, rfl⟩).1 0 _ (.head _)
end Ners.Server
