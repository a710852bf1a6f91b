import Ners.Base.Refinement
import Ners.Server.Accesses
import Ners.Server.Threads

set_option autoImplicit false

namespace Ners.Server

open Function (update update_self update_of_ne update_eq_self)
open Refinement (completed run_refines)
open Runs (Run anyStep execute)

-- The threads as they are, on queues whose calls are single steps.
def Interleaved.atop (w : Interleaved) (queues : StageId → RingQueue) : System := { w.system with queues := queues }

structure Refines (w : Interleaved) (queues : StageId → RingQueue) : Prop where
  alike : ∀ queue, (w.system.queues queue).Alike (queues queue)
  orderly : ∀ queue, ∃ trace, Orderly trace (w.ring queue)
  pushing : ∀ queue id, (w.producers queue).pushing = some id → w.system.offers queue = some id
  popping : ∀ queue, w.consumers queue ≠ .idle → w.system.executors queue = .idle

-- What a thread must have been about for it to hear of an access.
def System.Asks (s : System) (queue : StageId) : Option Access → Prop
  | some (.published id) | some (.refused id) => s.offers queue = some id
  | some (.returned _) => s.executors queue = .idle
  | some (.wrote _ _) | some (.read _ _) | none => True

theorem source_output (queue stage : StageId) (source : queue.source = some stage) : stage.output = some queue := by
  cases queue <;> cases source <;> rfl

theorem sources_apart (queue other stage : StageId) (mine : queue.source = some stage) (its : other.source = some stage) :
    other = queue := Option.some.inj ((source_output other stage its).symm.trans (source_output queue stage mine))

theorem sourceless (queue : StageId) (source : queue.source = none) : queue = .parse := by
  cases queue <;> first | rfl | cases source

theorem offers_inserted (s : System) (queue : StageId) (id : ConnId) (source : queue.source = none) :
    s.offers queue = some id ↔ ∃ waiting, s.acceptor = .inserted id waiting := by
  rw [System.offers, source]
  dsimp only
  cases s.acceptor <;> simp

theorem offers_holding (s : System) (queue stage : StageId) (id : ConnId) (source : queue.source = some stage) :
    s.offers queue = some id ↔ s.executors stage = .holding (some id) := by
  rw [System.offers, source]
  dsimp only
  cases s.executors stage <;> simp

theorem hears_atop (s : System) (queues : StageId → RingQueue) (queue : StageId) (shown : Option Access) :
    System.hears { s with queues := queues } queue shown = { s.hears queue shown with queues := queues } := by
  have pushed (stored : Bool) :
      System.pushed { s with queues := queues } queue stored = { s.pushed queue stored with queues := queues } := by
    simp only [System.pushed]
    split
    · split <;> rfl
    · rfl
  have popped (result : Option ConnId) :
      System.popped { s with queues := queues } queue result = { s.popped queue result with queues := queues } := by
    cases result <;> rfl
  cases shown with
  | none => rfl
  | some access =>
      cases access with
      | published id => exact pushed true
      | refused id => exact pushed false
      | returned result => exact popped result
      | wrote cell id => rfl
      | read cell value => rfl

theorem push_taken (site : Site) (s : System) (queue : StageId) (id : ConnId) (result : Except ConnId Unit) (q : RingQueue)
    (alive : s.acceptor ≠ .dead) (offers : s.offers queue = some id) (pushed : (s.queues queue).push id = .ok (result, q)) :
    s.step site (pushInto queue) = some (System.pushed { s with queues := update s.queues queue q } queue result.isOk) := by
  unfold System.step
  rw [if_neg alive]
  cases source : queue.source with
  | none =>
      obtain rfl := sourceless queue source
      obtain ⟨waiting, inserted⟩ := (offers_inserted s .parse id source).mp offers
      cases result with
      | ok done =>
          simp only [pushInto, StageId.source, System.acceptorPush, inserted, pushed, System.pushed, Except.isOk, Except.toBool,
            if_true]
      | error back =>
          obtain ⟨_, rfl⟩ := push_returned _ q id back pushed
          simp only [pushInto, StageId.source, System.acceptorPush, inserted, pushed, System.pushed, Except.isOk, Except.toBool,
            update_eq_self]
          rfl
  | some stage =>
      have holding := (offers_holding s queue stage id source).mp offers
      simp only [pushInto, source, System.push, holding, source_output queue stage source, pushed, System.pushed]

theorem push_unwound (site : Site) (s : System) (queue : StageId) (id : ConnId) (fault : Fault) (alive : s.acceptor ≠ .dead)
    (offers : s.offers queue = some id) (pushed : (s.queues queue).push id = .error fault) :
    s.step site (pushInto queue) = some (s.unwinds queue) := by
  unfold System.step
  rw [if_neg alive]
  cases source : queue.source with
  | none =>
      obtain rfl := sourceless queue source
      obtain ⟨waiting, inserted⟩ := (offers_inserted s .parse id source).mp offers
      simp only [pushInto, StageId.source, System.acceptorPush, inserted, pushed, System.unwinds]
  | some stage =>
      have holding := (offers_holding s queue stage id source).mp offers
      simp only [pushInto, source, System.push, holding, source_output queue stage source, pushed, System.unwinds]

theorem pop_taken (site : Site) (s : System) (queue : StageId) (result : Option ConnId) (q : RingQueue)
    (alive : s.acceptor ≠ .dead) (idle : s.executors queue = .idle) (popped : (s.queues queue).pop = (result, q)) :
    s.step site (.pop queue) = some (System.popped { s with queues := update s.queues queue q } queue result) := by
  unfold System.step
  rw [if_neg alive]
  cases result with
  | none => simp only [System.pop, idle, popped, System.popped]
  | some id => simp only [System.pop, idle, popped, System.popped]

theorem hears_performed (site : Site) (s : System) (queue : StageId) (shown : Option Access) (q : RingQueue)
    (alive : s.acceptor ≠ .dead) (asks : s.Asks queue shown) (performs : Performs shown (s.queues queue) q) :
    execute (System.step site) s (callBehind queue shown).toList =
      some (System.hears { s with queues := update s.queues queue q } queue shown) := by
  have quiet (same : q = s.queues queue) : some s = some { s with queues := update s.queues queue q } := by
    rw [same, update_eq_self]
  cases shown with
  | none => exact quiet performs
  | some access =>
      cases access with
      | published id => exact (Runs.execute_one s _).trans (push_taken site s queue id (.ok ()) q alive asks performs)
      | refused id => exact (Runs.execute_one s _).trans (push_taken site s queue id (.error id) q alive asks performs)
      | returned result => exact (Runs.execute_one s _).trans (pop_taken site s queue result q alive asks performs)
      | wrote cell id => exact quiet performs
      | read cell value => exact quiet performs

theorem offers_same (s s' : System) (queue : StageId) (acceptor : queue.source = none → s'.acceptor = s.acceptor)
    (executor : ∀ stage, queue.source = some stage → s'.executors stage = s.executors stage) :
    s'.offers queue = s.offers queue := by
  rw [System.offers, System.offers]
  cases source : queue.source with
  | none => simp only [acceptor source]
  | some stage => simp only [executor stage source]

theorem pushed_elsewhere (s : System) (queue other : StageId) (stored : Bool) (apart : other ≠ queue) :
    (s.pushed queue stored).offers other = s.offers other := by
  refine offers_same s _ other (fun its => ?_) fun feeder its => ?_
  · cases source : queue.source with
    | none => exact absurd ((sourceless other its).trans (sourceless queue source).symm) apart
    | some stage => simp only [System.pushed, source]
  · cases source : queue.source with
    | none =>
        simp only [System.pushed, source]
        split
        · rfl
        · rfl
    | some stage =>
        have differ : feeder ≠ stage := fun same => apart (sources_apart queue other stage source (same ▸ its))
        simp only [System.pushed, source, update_of_ne differ]

theorem unwinds_elsewhere (s : System) (queue other : StageId) (apart : other ≠ queue) :
    (s.unwinds queue).offers other = s.offers other := by
  refine offers_same s _ other (fun its => ?_) fun feeder its => ?_
  · cases source : queue.source with
    | none => exact absurd ((sourceless other its).trans (sourceless queue source).symm) apart
    | some stage => simp only [System.unwinds, source]
  · cases source : queue.source with
    | none => simp only [System.unwinds, source]
    | some stage =>
        have differ : feeder ≠ stage := fun same => apart (sources_apart queue other stage source (same ▸ its))
        simp only [System.unwinds, source, update_of_ne differ]

-- The thread that hears of its push has nothing more to offer to the queue; the
-- others have what they had.
theorem hears_keeps_offer (s : System) (queue other : StageId) (id : ConnId) (shown : Option Access) (asks : s.Asks queue shown)
    (offers : s.offers other = some id)
    (apart : other = queue → ∀ id, shown ≠ some (.published id) ∧ shown ≠ some (.refused id)) :
    (s.hears queue shown).offers other = some id := by
  cases shown with
  | none => exact offers
  | some access =>
      cases access with
      | published stored => exact (pushed_elsewhere s queue other true fun same => (apart same stored).1 rfl).trans offers
      | refused back => exact (pushed_elsewhere s queue other false fun same => (apart same back).2 rfl).trans offers
      | wrote cell id => exact offers
      | read cell value => exact offers
      | returned result =>
          have idle : s.executors queue = .idle := asks
          cases result with
          | none => exact offers
          | some popped =>
              cases source : other.source with
              | none =>
                  rw [offers_inserted _ other id source] at offers ⊢
                  exact offers
              | some stage =>
                  rw [offers_holding _ other stage id source] at offers ⊢
                  have differ : stage ≠ queue := by
                    rintro rfl
                    cases idle.symm.trans offers
                  exact (update_of_ne differ _ _).trans offers

theorem hears_keeps_idle (s : System) (queue other : StageId) (shown : Option Access) (asks : s.Asks queue shown)
    (idle : s.executors other = .idle) (apart : other = queue → ∀ result, shown ≠ some (.returned result)) :
    (s.hears queue shown).executors other = .idle := by
  have pushed (id : ConnId) (stored : Bool) (offers : s.offers queue = some id) :
      (s.pushed queue stored).executors other = .idle := by
    cases source : queue.source with
    | none =>
        simp only [System.pushed, source]
        split
        · exact idle
        · exact idle
    | some stage =>
        have holding := (offers_holding s queue stage id source).mp offers
        have differ : other ≠ stage := by
          rintro rfl
          cases idle.symm.trans holding
        simpa only [System.pushed, source, update_of_ne differ] using idle
  cases shown with
  | none => exact idle
  | some access =>
      cases access with
      | published id => exact pushed id true asks
      | refused id => exact pushed id false asks
      | wrote cell id => exact idle
      | read cell value => exact idle
      | returned result =>
          cases result with
          | none => exact idle
          | some popped =>
              have differ : other ≠ queue := fun same => apart same _ rfl
              exact (update_of_ne differ _ _).trans idle

theorem unwinds_keeps_idle (s : System) (queue other : StageId) (id : ConnId) (offers : s.offers queue = some id)
    (idle : s.executors other = .idle) : (s.unwinds queue).executors other = .idle := by
  cases source : queue.source with
  | none => simpa only [System.unwinds, source] using idle
  | some stage =>
      have holding := (offers_holding s queue stage id source).mp offers
      have differ : other ≠ stage := by
        rintro rfl
        cases idle.symm.trans holding
      simpa only [System.unwinds, source, update_of_ne differ] using idle

-- An action that calls no queue sees none of them.
theorem step_atop (site : Site) (s s' : System) (a : Action) (queues : StageId → RingQueue) (quiet : a.calls = false)
    (taken : s.step site a = some s') :
    System.step site { s with queues := queues } a = some { s' with queues := queues } ∧ s'.queues = s.queues := by
  unfold System.step at taken ⊢
  split at taken
  · cases taken
  · rename_i alive
    rw [if_neg alive]
    cases a with
    | acceptorPush => cases quiet
    | pop stage => cases quiet
    | accept count =>
        simp only [System.accept] at taken ⊢
        split at taken
        · rename_i idle
          obtain rfl := Option.some.inj taken
          exact ⟨rfl, rfl⟩
        · cases taken
    | insert =>
        simp only [System.insert] at taken ⊢
        split at taken
        · rename_i waiting idle free
          simp only [free]
          split at taken <;> rename_i inserted
          · obtain rfl := Option.some.inj taken
            exact ⟨by simp only [free], rfl⟩
          · obtain rfl := Option.some.inj taken
            exact ⟨by simp only [free], rfl⟩
        · cases taken
    | acceptorGauge =>
        simp only [System.acceptorGauge] at taken ⊢
        split at taken
        · rename_i waiting pushed
          obtain rfl := Option.some.inj taken
          exact ⟨rfl, rfl⟩
        · cases taken
    | process stage io =>
        simp only [System.process] at taken ⊢
        split at taken
        · rename_i id popped free
          simp only [free]
          split at taken <;> rename_i returned
          · obtain rfl := Option.some.inj taken
            exact ⟨by simp only [free], rfl⟩
          · obtain rfl := Option.some.inj taken
            exact ⟨rfl, rfl⟩
        · cases taken
    | push stage =>
        have last : stage.output = none := Option.isNone_iff_eq_none.mp (Option.isSome_eq_false_iff.mp quiet)
        simp only [System.push, last] at taken ⊢
        split at taken
        · rename_i id holding
          obtain rfl := Option.some.inj taken
          exact ⟨rfl, rfl⟩
        · cases taken
    | unlock stage =>
        simp only [System.unlock] at taken ⊢
        split at taken
        · rename_i holding
          obtain rfl := Option.some.inj taken
          exact ⟨rfl, rfl⟩
        · cases taken

theorem whole_keeps_offer (site : Site) (s s' : System) (a : Action) (queue : StageId) (id : ConnId) (quiet : a.calls = false)
    (offers : s.offers queue = some id) (taken : s.step site a = some s') : s'.offers queue = some id := by
  cases source : queue.source with
  | none =>
      rw [offers_inserted _ queue id source] at offers ⊢
      obtain ⟨waiting, inserted⟩ := offers
      cases step_cases site s s' a taken with
      | accepted count idle => cases inserted.symm.trans idle
      | refused waiting slab idle => cases inserted.symm.trans idle
      | issued waiting id slab idle => cases inserted.symm.trans idle
      | gauged waiting pushed => cases inserted.symm.trans pushed
      | acceptorDied | acceptorLost | acceptorPushed => cases quiet
      | foundNone | popped | unwound | processed | finished | panicked | passed | unlocked => exact ⟨waiting, inserted⟩
  | some stage =>
      rw [offers_holding _ queue stage id source] at offers ⊢
      by_cases acting : a.thread = some stage
      · have advances := executor_advances site s s' a stage acting taken
        rw [offers] at advances
        generalize s'.executors stage = after at advances
        have never : a ≠ .push stage := by
          rintro rfl
          rw [Action.calls, source_output queue stage source] at quiet
          cases quiet
        cases advances with
        | panics acted => exact absurd (congrArg Action.push (Option.some.inj acting)) never
        | passes acted => exact absurd (congrArg Action.push (Option.some.inj acting)) never
      · exact (executors_elsewhere site s s' a stage acting taken).trans offers

theorem whole_keeps_idle (site : Site) (s s' : System) (a : Action) (stage : StageId) (quiet : a.calls = false)
    (idle : s.executors stage = .idle) (taken : s.step site a = some s') : s'.executors stage = .idle := by
  by_cases acting : a.thread = some stage
  · have advances := executor_advances site s s' a stage acting taken
    rw [idle] at advances
    generalize s'.executors stage = after at advances ⊢
    cases advances with
    | finds => rfl
    | pops => cases quiet
  · exact (executors_elsewhere site s s' a stage acting taken).trans idle

theorem ring_put (w : Interleaved) (queue : StageId) (ring : Spsc) : (w.put queue ring).ring queue = ring := by
  simp only [Interleaved.ring, Interleaved.put, update_self]

theorem ring_put_other (w : Interleaved) (queue other : StageId) (ring : Spsc) (differ : other ≠ queue) :
    (w.put queue ring).ring other = w.ring other := by
  simp only [Interleaved.ring, Interleaved.put, update_of_ne differ]

-- What the threads must be about for one of them to make a move.
def Interleaved.Ventures (w : Interleaved) (queue : StageId) : Move → Prop
  | .push id => w.system.offers queue = some id ∧ id ≠ usizeMax
  | .producer => True
  | .consumer => w.system.executors queue = .idle

theorem move_asks (w : Interleaved) (queues : StageId → RingQueue) (queue : StageId) (move : Move) (refines : Refines w queues)
    (ventures : w.Ventures queue move) : w.system.Asks queue ((w.ring queue).observe move) := by
  cases shown : (w.ring queue).observe move with
  | none => trivial
  | some access =>
      cases access with
      | published id => exact refines.pushing queue id (observed_push _ move id (.inl shown))
      | refused id => exact refines.pushing queue id (observed_push _ move id (.inr shown))
      | returned result =>
          obtain rfl := observed_pop _ move result shown
          exact ventures
      | wrote cell id => trivial
      | read cell value => trivial

theorem move_performs (w : Interleaved) (queues : StageId → RingQueue) (queue : StageId) (move : Move) (ring : Spsc)
    (refines : Refines w queues) (taken : (w.ring queue).step move = some ring) :
    ∃ q, Performs ((w.ring queue).observe move) (queues queue) q ∧ ring.queue.Alike q := by
  obtain ⟨trace, orderly⟩ := refines.orderly queue
  have alike : (w.ring queue).queue.Alike (queues queue) := refines.alike queue
  cases move with
  | push id =>
      refine ⟨queues queue, rfl, ?_⟩
      simp only [Spsc.step] at taken
      split at taken
      · split at taken
        · cases taken
        · exact Option.some.inj taken ▸ alike
      · cases taken
  | producer => exact producer_performs trace _ ring _ orderly alike taken
  | consumer => exact consumer_performs trace _ ring _ orderly alike taken

-- One access, whichever thread makes it: either the call takes effect whole, or
-- nothing shows.
theorem access_refines (site : Site) (w w' : Interleaved) (queues : StageId → RingQueue) (queue : StageId) (move : Move)
    (refines : Refines w queues) (alive : w.system.acceptor ≠ .dead) (ventures : w.Ventures queue move)
    (taken : w.access queue move = some w') :
    ∃ queues', execute (System.step site) (w.atop queues) (callBehind queue ((w.ring queue).observe move)).toList =
      some (w'.atop queues') ∧ Refines w' queues' := by
  obtain ⟨ring, moved, rfl⟩ := Option.map_eq_some_iff.mp taken
  obtain ⟨q, performs, alike⟩ := move_performs w queues queue move ring refines moved
  have asks := move_asks w queues queue move refines ventures
  refine ⟨update queues queue q, ?_, fun other => ?_, fun other => ?_, fun other id still => ?_, fun other still => ?_⟩
  · rw [hears_performed site (w.atop queues) queue _ q alive asks performs]
    simp only [Interleaved.atop, Interleaved.put, hears_atop]
  · simp only [Interleaved.put, hears_atop]
    by_cases same : other = queue
    · subst same
      rw [update_self, update_self]
      exact alike
    · rw [update_of_ne same, update_of_ne same]
      exact refines.alike other
  · have shown : Interleaved.ring { w.put queue ring with
        system := (w.put queue ring).system.hears queue ((w.ring queue).observe move) } other = (w.put queue ring).ring other := by
      simp only [Interleaved.ring, Interleaved.put, hears_atop]
    rw [shown]
    by_cases same : other = queue
    · subst same
      obtain ⟨trace, orderly⟩ := refines.orderly other
      have genuine : move.Genuine := by
        cases move with
        | push id => exact ventures.2
        | producer => trivial
        | consumer => trivial
      rw [ring_put]
      exact ⟨_, step_orderly trace _ ring move orderly genuine moved⟩
    · rw [ring_put_other w queue other ring same]
      exact refines.orderly other
  · have offers : w.system.offers other = some id ∧
        (other = queue → ∀ id, (w.ring queue).observe move ≠ some (.published id) ∧
          (w.ring queue).observe move ≠ some (.refused id)) := by
      by_cases same : other = queue
      · subst same
        simp only [Interleaved.put, update_self] at still
        obtain ⟨begun | before, quiet⟩ := pushing_after _ ring move id moved still
        · subst begun
          exact ⟨ventures.1, fun _ => quiet⟩
        · exact ⟨refines.pushing other id before, fun _ => quiet⟩
      · simp only [Interleaved.put, update_of_ne same] at still
        exact ⟨refines.pushing other id still, fun equal => absurd equal same⟩
    have kept := hears_keeps_offer w.system queue other id _ asks offers.1 offers.2
    simp only [Interleaved.put, hears_atop]
    exact kept
  · have idle : w.system.executors other = .idle ∧
        (other = queue → ∀ result, (w.ring queue).observe move ≠ some (.returned result)) := by
      by_cases same : other = queue
      · subst same
        simp only [Interleaved.put, update_self] at still
        obtain ⟨begun | before, quiet⟩ := popping_after _ ring move moved still
        · subst begun
          exact ⟨ventures, fun _ => quiet⟩
        · exact ⟨refines.popping other before, fun _ => quiet⟩
      · simp only [Interleaved.put, update_of_ne same] at still
        exact ⟨refines.popping other still, fun equal => absurd equal same⟩
    have kept := hears_keeps_idle w.system queue other _ asks idle.1 idle.2
    simp only [Interleaved.put, hears_atop]
    exact kept

theorem offered_real (site : Site) (s : System) (t : Tickets) (queue : StageId) (id : ConnId) (ledger : Ledger site s t)
    (offers : s.offers queue = some id) : id ≠ usizeMax := by
  have placed : ∃ p, s.ids p = [id] := by
    cases source : queue.source with
    | none =>
        obtain ⟨waiting, inserted⟩ := (offers_inserted s queue id source).mp offers
        exact ⟨.acceptor, inserted_ids s id waiting inserted⟩
    | some stage =>
        have holding := (offers_holding s queue stage id source).mp offers
        exact ⟨.passing stage, passing_ids s stage _ holding⟩
  obtain ⟨p, front⟩ := placed
  obtain ⟨socket, later, shape, _⟩ := ledger_front site s t p id [] ledger front
  obtain ⟨conn, found, _⟩ := ledger.standing p (id, socket) (shape ▸ List.mem_cons_self)
  have within := get_within s.slab id conn found
  exact Nat.ne_of_lt (Nat.lt_of_lt_of_le within (Nat.le_sub_one_of_lt ledger.word))

theorem unwinds_atop (s : System) (queues : StageId → RingQueue) (queue : StageId) :
    System.unwinds { s with queues := queues } queue = { s.unwinds queue with queues := queues } := by
  simp only [System.unwinds]
  split <;> rfl

-- Dividing by a capacity of zero is the whole of such a push.
theorem unwound_refines (site : Site) (w : Interleaved) (queues : StageId → RingQueue) (queue : StageId) (id : ConnId)
    (refines : Refines w queues) (alive : w.system.acceptor ≠ .dead) (offers : w.system.offers queue = some id)
    (idle : w.producers queue = .idle) (zero : (w.system.queues queue).capacity = 0) :
    execute (System.step site) (w.atop queues) [pushInto queue] =
        some (Interleaved.atop { w with system := w.system.unwinds queue } queues) ∧
      Refines { w with system := w.system.unwinds queue } queues := by
  have kept : (w.system.unwinds queue).queues = w.system.queues := by
    simp only [System.unwinds]
    split <;> rfl
  refine ⟨?_, fun other => ?_, fun other => ?_, fun other still pushing => ?_, fun other busy => ?_⟩
  · have panics := push_panics (queues queue) id ((refines.alike queue).capacity ▸ zero)
    rw [Runs.execute_one, push_unwound site (w.atop queues) queue id .panic alive offers panics]
    exact congrArg some (unwinds_atop w.system queues queue)
  · rw [kept]
    exact refines.alike other
  · have same : Interleaved.ring { w with system := w.system.unwinds queue } other = w.ring other := by
      simp only [Interleaved.ring, kept]
    rw [same]
    exact refines.orderly other
  · have apart : other ≠ queue := by
      rintro rfl
      rw [idle] at pushing
      cases pushing
    exact (unwinds_elsewhere w.system queue other apart).trans (refines.pushing other still pushing)
  · exact unwinds_keeps_idle w.system queue other id offers (refines.popping other busy)

theorem beat_refines (site : Site) (w w' : Interleaved) (queues : StageId → RingQueue) (t : Tickets) (beat : Beat)
    (refines : Refines w queues) (ledger : Ledger site (w.atop queues) t) (taken : w.step site beat = some w') :
    ∃ queues', execute (System.step site) (w.atop queues) (w.call beat).toList = some (w'.atop queues') ∧
      Refines w' queues' := by
  unfold Interleaved.step at taken
  split at taken
  · cases taken
  · rename_i alive
    cases beat with
    | whole action =>
        dsimp only at taken
        split at taken
        · cases taken
        · rename_i apart
          obtain ⟨s, stepped, rfl⟩ := Option.map_eq_some_iff.mp taken
          have quiet : action.calls = false := Bool.eq_false_iff.mpr apart
          obtain ⟨onward, same⟩ := step_atop site w.system s action queues quiet stepped
          refine ⟨queues, (Runs.execute_one _ _).trans onward, fun queue => ?_, fun queue => ?_, fun queue id pushing => ?_,
            fun queue busy => ?_⟩
          · rw [same]
            exact refines.alike queue
          · have ring : Interleaved.ring { w with system := s } queue = w.ring queue := by
              simp only [Interleaved.ring, same]
            rw [ring]
            exact refines.orderly queue
          · exact whole_keeps_offer site w.system s action queue id quiet (refines.pushing queue id pushing) stepped
          · exact whole_keeps_idle site w.system s action queue quiet (refines.popping queue busy) stepped
    | push queue =>
        dsimp only at taken
        split at taken
        · rename_i id offers idle
          by_cases zero : (w.system.queues queue).capacity = 0
          · rw [if_pos zero] at taken
            obtain rfl := Option.some.inj taken
            rw [Interleaved.call, if_pos zero]
            exact ⟨queues, unwound_refines site w queues queue id refines alive offers idle zero⟩
          · rw [if_neg zero] at taken
            rw [Interleaved.call, if_neg zero]
            have real := offered_real site (w.atop queues) t queue id ledger offers
            exact access_refines site w w' queues queue (.push id) refines alive ⟨offers, real⟩ taken
        · cases taken
    | produce queue => exact access_refines site w w' queues queue .producer refines alive trivial taken
    | consume queue =>
        dsimp only at taken
        split at taken
        · rename_i idle
          exact access_refines site w w' queues queue .consumer refines alive idle taken
        · cases taken

theorem outside_refines (config : OrchestratorConfig) : Refines (System.new config).outside (System.new config).queues where
  alike := fun queue => alike_refl _
  orderly := fun queue => ⟨[], new_orderly _⟩
  pushing := fun queue id pushing => by cases pushing
  popping := fun queue busy => absurd rfl busy

theorem interleaved_run (site : Site) (config : OrchestratorConfig) (beats : List Beat) (w : Interleaved)
    (executed : execute (Interleaved.step site) (System.new config).outside beats = some w) :
    ∃ queues, execute (System.step site) (.new config)
        (completed (Interleaved.step site) Interleaved.call (System.new config).outside beats) = some (w.atop queues) ∧
      Refines w queues := by
  let Shown (w : Interleaved) (s : System) : Prop :=
    ∃ queues, w.atop queues = s ∧ Refines w queues ∧ Run (System.step site) anyStep (.new config) s
  have follows : ∀ w s beat w', Shown w s → w.step site beat = some w' →
      ∃ s', execute (System.step site) s (w.call beat).toList = some s' ∧ Shown w' s' := by
    rintro w _ beat w' ⟨queues, rfl, refines, run⟩ taken
    obtain ⟨t, followed⟩ := ticketed site config _ run
    have ledger := run_ledger site config _ t followed
    obtain ⟨queues', onward, refines'⟩ := beat_refines site w w' queues t beat refines ledger taken
    exact ⟨w'.atop queues', onward, queues', rfl, refines', Runs.execute_run _ _ _ _ run onward⟩
  have start : Shown (System.new config).outside (.new config) := ⟨_, rfl, outside_refines config, .start⟩
  obtain ⟨s, reached, queues, rfl, refines, _⟩ := run_refines Shown _ _ start follows beats w executed
  exact ⟨queues, reached, refines⟩

-- A call never waits: its next access is always there to be made, brings it
-- nearer to its end, and is not undone by what the other threads do.
structure Interleaved.WaitFree (site : Site) (w : Interleaved) : Prop where
  produces : ∀ queue, w.producers queue ≠ .idle →
    ∃ w', w.step site (.produce queue) = some w' ∧ (w'.producers queue).left < (w.producers queue).left
  consumes : ∀ queue, w.consumers queue ≠ .idle →
    ∃ w', w.step site (.consume queue) = some w' ∧ (w'.consumers queue).left < (w.consumers queue).left
  pushesAlone : ∀ queue beat w', w.producers queue ≠ .idle → beat ≠ .produce queue → w.step site beat = some w' →
    w'.producers queue = w.producers queue
  popsAlone : ∀ queue beat w', beat ≠ .consume queue → w.step site beat = some w' → w'.consumers queue = w.consumers queue

theorem access_taken (w : Interleaved) (queue : StageId) (move : Move) (ring : Spsc)
    (moved : (w.ring queue).step move = some ring) :
    ∃ w', w.access queue move = some w' ∧ w'.producers queue = ring.producer ∧ w'.consumers queue = ring.consumer := by
  refine ⟨_, congrArg (Option.map _) moved, ?_, ?_⟩
  · exact update_self queue ring.producer w.producers
  · exact update_self queue ring.consumer w.consumers

theorem access_leaves (w w' : Interleaved) (queue other : StageId) (move : Move) (taken : w.access queue move = some w') :
    (other = queue ∧ (w.ring queue).step move = some ⟨w'.system.queues queue, w'.producers queue, w'.consumers queue⟩) ∨
      w'.producers other = w.producers other ∧ w'.consumers other = w.consumers other := by
  obtain ⟨ring, moved, rfl⟩ := Option.map_eq_some_iff.mp taken
  by_cases same : other = queue
  · subst same
    refine .inl ⟨rfl, ?_⟩
    simp only [Interleaved.put, hears_atop, update_self]
    exact moved
  · exact .inr ⟨update_of_ne same _ _, update_of_ne same _ _⟩

theorem pushes_alone (site : Site) (w w' : Interleaved) (queue : StageId) (beat : Beat) (busy : w.producers queue ≠ .idle)
    (other : beat ≠ .produce queue) (taken : w.step site beat = some w') : w'.producers queue = w.producers queue := by
  unfold Interleaved.step at taken
  split at taken
  · cases taken
  · cases beat with
    | whole action =>
        dsimp only at taken
        split at taken
        · cases taken
        · obtain ⟨s, _, rfl⟩ := Option.map_eq_some_iff.mp taken
          rfl
    | push begun =>
        dsimp only at taken
        split at taken
        · rename_i id offers idle
          split at taken
          · obtain rfl := Option.some.inj taken
            rfl
          · rcases access_leaves w w' begun queue _ taken with ⟨rfl, _⟩ | ⟨kept, _⟩
            · exact absurd idle busy
            · exact kept
        · cases taken
    | produce acting =>
        rcases access_leaves w w' acting queue _ taken with ⟨rfl, _⟩ | ⟨kept, _⟩
        · exact absurd rfl other
        · exact kept
    | consume acting =>
        dsimp only at taken
        split at taken
        · rcases access_leaves w w' acting queue _ taken with ⟨rfl, moved⟩ | ⟨kept, _⟩
          · exact producer_untouched _ _ moved
          · exact kept
        · cases taken

theorem pops_alone (site : Site) (w w' : Interleaved) (queue : StageId) (beat : Beat)
    (other : beat ≠ .consume queue) (taken : w.step site beat = some w') : w'.consumers queue = w.consumers queue := by
  have untouched (acting : StageId) (move : Move) (apart : acting = queue → move ≠ .consumer)
      (took : w.access acting move = some w') :
      w'.consumers queue = w.consumers queue := by
    rcases access_leaves w w' acting queue move took with ⟨rfl, moved⟩ | ⟨_, kept⟩
    · exact consumer_untouched _ _ move moved (apart rfl)
    · exact kept
  unfold Interleaved.step at taken
  split at taken
  · cases taken
  · cases beat with
    | whole action =>
        dsimp only at taken
        split at taken
        · cases taken
        · obtain ⟨s, _, rfl⟩ := Option.map_eq_some_iff.mp taken
          rfl
    | push begun =>
        dsimp only at taken
        split at taken
        · split at taken
          · obtain rfl := Option.some.inj taken
            rfl
          · exact untouched begun _ (fun _ equal => by cases equal) taken
        · cases taken
    | produce acting => exact untouched acting .producer (fun _ equal => by cases equal) taken
    | consume acting =>
        dsimp only at taken
        split at taken
        · exact untouched acting .consumer (fun same => absurd (congrArg Beat.consume same) other) taken
        · cases taken

theorem refines_wait_free (site : Site) (w : Interleaved) (queues : StageId → RingQueue) (refines : Refines w queues)
    (alive : w.system.acceptor ≠ .dead) : w.WaitFree site where
  produces := by
    intro queue busy
    obtain ⟨trace, orderly⟩ := refines.orderly queue
    obtain ⟨ring, moved⟩ := producer_goes_on _ _ (w.consumers queue) orderly.producer busy
    obtain ⟨w', taken, producer, _⟩ := access_taken w queue .producer ring moved
    refine ⟨w', ?_, ?_⟩
    · unfold Interleaved.step
      rw [if_neg alive]
      exact taken
    · rw [producer]
      exact producer_left _ ring moved
  consumes := by
    intro queue busy
    obtain ⟨trace, orderly⟩ := refines.orderly queue
    obtain ⟨ring, moved⟩ := consumer_goes_on _ (w.producers queue) _ orderly.consumer
    obtain ⟨w', taken, _, consumer⟩ := access_taken w queue .consumer ring moved
    refine ⟨w', ?_, ?_⟩
    · unfold Interleaved.step
      rw [if_neg alive]
      dsimp only
      rw [if_pos (refines.popping queue busy)]
      exact taken
    · rw [consumer]
      exact consumer_left _ ring moved busy
  pushesAlone := fun queue beat w' busy other taken => pushes_alone site w w' queue beat busy other taken
  popsAlone := fun queue beat w' other taken => pops_alone site w w' queue beat other taken

end Ners.Server
