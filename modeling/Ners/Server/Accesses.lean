import Ners.Server.Spsc
import Ners.Server.System

set_option autoImplicit false

namespace Ners.Server

open Function (update)

-- The stage whose executor pushes to a queue. The accept loop feeds the first.
def StageId.source : StageId → Option StageId
  | .parse => none
  | .route => some .parse
  | .app => some .route
  | .encode => some .app
  | .netOut => some .encode

def pushInto (queue : StageId) : Action :=
  match queue.source with
  | none => .acceptorPush
  | some stage => .push stage

-- Actions that push to a queue or pop from one.
def Action.calls : Action → Bool
  | .acceptorPush | .pop _ => true
  | .push stage => stage.output.isSome
  | .accept _ | .insert | .acceptorGauge | .process _ _ | .unlock _ => false

-- The id that a thread has in hand to push to a queue.
def System.offers (s : System) (queue : StageId) : Option ConnId :=
  match queue.source with
  | none =>
      match s.acceptor with
      | .inserted id _ => some id
      | _ => none
  | some stage =>
      match s.executors stage with
      | .holding next => next
      | _ => none

-- What the thread does once push has returned, or unwound, and once pop has
-- returned.
def System.pushed (s : System) (queue : StageId) (stored : Bool) : System :=
  match queue.source with
  | none =>
      match s.acceptor with
      | .inserted _ waiting => { s with acceptor := if stored then .pushed waiting else .idle waiting }
      | _ => s
  | some stage => { s with executors := update s.executors stage (.holding none) }

def System.unwinds (s : System) (queue : StageId) : System :=
  match queue.source with
  | none => { s with acceptor := .dead }
  | some stage => { s with executors := update s.executors stage .dead, lock := none }

def System.popped (s : System) (queue : StageId) : Option ConnId → System
  | none => s
  | some id => { s with executors := update s.executors queue (.popped id) }

def System.hears (s : System) (queue : StageId) : Option Access → System
  | some (.published _) => s.pushed queue true
  | some (.refused _) => s.pushed queue false
  | some (.returned result) => s.popped queue result
  | some (.wrote _ _) | some (.read _ _) | none => s

def callBehind (queue : StageId) : Option Access → Option Action
  | some (.published _) | some (.refused _) => some (pushInto queue)
  | some (.returned _) => some (.pop queue)
  | some (.wrote _ _) | some (.read _ _) | none => none

-- The server as it runs on its queues: one load or store at a time, with the
-- threads anywhere in their calls of push and pop.
structure Interleaved where
  system : System
  producers : StageId → Producer
  consumers : StageId → Consumer

def System.outside (s : System) : Interleaved := ⟨s, fun _ => .idle, fun _ => .idle⟩

-- An action that calls neither push nor pop, the first access of a push, the
-- next one, and the next of a pop.
inductive Beat where
  | whole (action : Action)
  | push (queue : StageId)
  | produce (queue : StageId)
  | consume (queue : StageId)
deriving DecidableEq

def Interleaved.ring (w : Interleaved) (queue : StageId) : Spsc := ⟨w.system.queues queue, w.producers queue, w.consumers queue⟩

def Interleaved.put (w : Interleaved) (queue : StageId) (ring : Spsc) : Interleaved where
  system := { w.system with queues := update w.system.queues queue ring.queue }
  producers := update w.producers queue ring.producer
  consumers := update w.consumers queue ring.consumer

def Interleaved.access (w : Interleaved) (queue : StageId) (move : Move) : Option Interleaved :=
  ((w.ring queue).step move).map fun ring =>
    { w.put queue ring with system := (w.put queue ring).system.hears queue ((w.ring queue).observe move) }

def Interleaved.step (site : Site) (w : Interleaved) (beat : Beat) : Option Interleaved :=
  if w.system.acceptor = .dead then none
  else
    match beat with
    | .whole action => if action.calls then none else (w.system.step site action).map fun s => { w with system := s }
    | .push queue =>
        match w.system.offers queue, w.producers queue with
        | some id, .idle =>
            if (w.system.queues queue).capacity = 0 then some { w with system := w.system.unwinds queue }
            else w.access queue (.push id)
        | _, _ => none
    | .produce queue => w.access queue .producer
    | .consume queue => if w.system.executors queue = .idle then w.access queue .consumer else none

-- The action of the threads that takes effect at a beat.
def Interleaved.call (w : Interleaved) : Beat → Option Action
  | .whole action => some action
  | .push queue => if (w.system.queues queue).capacity = 0 then some (pushInto queue) else none
  | .produce queue => callBehind queue ((w.ring queue).observe .producer)
  | .consume queue => callBehind queue ((w.ring queue).observe .consumer)

-- Equal but for the cell that a push has written and not yet published.
structure RingQueue.Alike (q p : RingQueue) : Prop where
  capacity : q.capacity = p.capacity
  head : q.head = p.head
  tail : q.tail = p.tail
  contents : q.contents = p.contents

def Producer.pushing : Producer → Option ConnId
  | .idle => none
  | .loadedTail id _ | .foundRoom id _ | .storedCell id _ => some id

-- The accesses that the thread in a call still has to make.
def Producer.left : Producer → Nat
  | .idle => 0
  | .loadedTail _ _ => 3
  | .foundRoom _ _ => 2
  | .storedCell _ _ => 1

def Consumer.left : Consumer → Nat
  | .idle => 0
  | .loadedHead _ => 3
  | .foundItem _ => 2
  | .loadedCell _ _ => 1

-- What an access amounts to on a queue whose calls are single steps.
def Performs (shown : Option Access) (p p' : RingQueue) : Prop :=
  match shown with
  | some (.published id) => p.push id = .ok (.ok (), p')
  | some (.refused id) => p.push id = .ok (.error id, p')
  | some (.returned result) => p.pop = (result, p')
  | some (.wrote _ _) | some (.read _ _) | none => p' = p

theorem alike_refl (q : RingQueue) : q.Alike q := ⟨rfl, rfl, rfl, rfl⟩

theorem alike_store_cell (q p : RingQueue) (id : ConnId) (nonzero : q.capacity ≠ 0) (alike : q.Alike p) :
    (q.storeCell q.tail id).Alike p :=
  ⟨alike.capacity, alike.head, alike.tail, (store_cell_contents q id nonzero).trans alike.contents⟩

theorem alike_full (q p : RingQueue) (alike : q.Alike p) :
    (p.tail + 1) % p.capacity = p.head ↔ (q.tail + 1) % q.capacity = q.head := by
  rw [alike.capacity, alike.head, alike.tail]

-- The store of the tail is where a push takes effect.
theorem store_tail_performs (q p : RingQueue) (id : ConnId) (room : q.HasRoom) (written : q.buffer[q.tail]? = some id)
    (alike : q.Alike p) :
    ∃ p', p.push id = .ok (.ok (), p') ∧ (q.storeTail ((q.tail + 1) % q.capacity) (mod_in _ _ room.1)).Alike p' := by
  have nonzero : p.capacity ≠ 0 := alike.capacity ▸ room.1
  have free : (p.tail + 1) % p.capacity ≠ p.head := fun full => room_free q room ((alike_full q p alike).mp full)
  refine ⟨p.store id nonzero, ?_, alike.capacity, alike.head, ?_, ?_⟩
  · rw [RingQueue.push, dif_neg nonzero, if_neg free]
  · simp only [RingQueue.storeTail, RingQueue.store, alike.tail, alike.capacity]
  · rw [store_tail_contents q id room written, store_contents p id nonzero free, alike.contents]

-- The store of the head is where a pop takes effect that finds an item.
theorem store_head_performs (q p : RingQueue) (value : Nat) (nonzero : q.capacity ≠ 0) (differ : q.head ≠ q.tail)
    (loaded : q.buffer[q.head]? = some value) (alike : q.Alike p) :
    ∃ p', p.pop = (if value = usizeMax then none else some value, p') ∧
      (q.storeHead ((q.head + 1) % q.capacity) (mod_in _ _ nonzero)).Alike p' := by
  have apart : p.head ≠ p.tail := by
    rw [← alike.head, ← alike.tail]
    exact differ
  have mine := store_head_contents q nonzero differ
  have its := contents_advance p (differ_nonzero p apart) apart
  have front : q.buffer.getD q.head usizeMax = value := by
    rw [List.getD_eq_getElem?_getD, loaded, Option.getD_some]
  rw [alike.contents, its, front] at mine
  obtain ⟨same, later⟩ := List.cons.inj mine
  refine ⟨p.advance (differ_nonzero p apart), ?_, alike.capacity, ?_, alike.tail, later.symm⟩
  · rw [RingQueue.pop, dif_neg apart]
    simp only [same]
  · simp only [RingQueue.storeHead, RingQueue.advance, alike.head, alike.capacity]

theorem producer_performs (trace : List Access) (ring ring' : Spsc) (p : RingQueue) (orderly : Orderly trace ring)
    (alike : ring.queue.Alike p) (taken : ring.step .producer = some ring') :
    ∃ p', Performs (ring.observe .producer) p p' ∧ ring'.queue.Alike p' := by
  obtain ⟨q, producer, consumer⟩ := ring
  cases producer with
  | idle => cases taken
  | loadedTail id tail =>
      obtain rfl : tail = q.tail := orderly.producer.2.1
      have nonzero : q.capacity ≠ 0 := orderly.producer.2.2
      simp only [Spsc.step, Spsc.observe] at taken ⊢
      by_cases full : (q.tail + 1) % q.capacity = q.head
      · rw [if_pos full] at taken ⊢
        obtain rfl := Option.some.inj taken
        refine ⟨p, ?_, alike⟩
        have divides : p.capacity ≠ 0 := alike.capacity ▸ nonzero
        rw [Performs, RingQueue.push, dif_neg divides, if_pos ((alike_full q p alike).mpr full)]
      · rw [if_neg full] at taken ⊢
        obtain rfl := Option.some.inj taken
        exact ⟨p, rfl, alike⟩
  | foundRoom id tail =>
      obtain rfl : tail = q.tail := orderly.producer.2.1
      have room : q.HasRoom := orderly.producer.2.2
      simp only [Spsc.step, Spsc.observe] at taken ⊢
      split at taken
      · obtain rfl := Option.some.inj taken
        exact ⟨p, rfl, alike_store_cell q p id room.1 alike⟩
      · cases taken
  | storedCell id tail =>
      obtain rfl : tail = q.tail := orderly.producer.2.1
      obtain ⟨_, _, room, written⟩ := orderly.producer
      simp only [Spsc.step, Spsc.observe] at taken ⊢
      split at taken
      · cases taken
      · obtain rfl := Option.some.inj taken
        exact store_tail_performs q p id room written alike

theorem consumer_performs (trace : List Access) (ring ring' : Spsc) (p : RingQueue) (orderly : Orderly trace ring)
    (alike : ring.queue.Alike p) (taken : ring.step .consumer = some ring') :
    ∃ p', Performs (ring.observe .consumer) p p' ∧ ring'.queue.Alike p' := by
  obtain ⟨q, producer, consumer⟩ := ring
  cases consumer with
  | idle =>
      obtain rfl := Option.some.inj taken
      exact ⟨p, rfl, alike⟩
  | loadedHead head =>
      obtain rfl : head = q.head := orderly.consumer
      simp only [Spsc.step, Spsc.observe] at taken ⊢
      by_cases empty : q.head = q.tail
      · rw [if_pos empty] at taken ⊢
        obtain rfl := Option.some.inj taken
        refine ⟨p, ?_, alike⟩
        have same : p.head = p.tail := by rw [← alike.head, ← alike.tail, empty]
        rw [Performs, RingQueue.pop, dif_pos same]
      · rw [if_neg empty] at taken ⊢
        obtain rfl := Option.some.inj taken
        exact ⟨p, rfl, alike⟩
  | foundItem head =>
      simp only [Spsc.step, Spsc.observe] at taken ⊢
      obtain ⟨value, loaded, rfl⟩ := Option.map_eq_some_iff.mp taken
      rw [loaded]
      exact ⟨p, rfl, alike⟩
  | loadedCell head value =>
      obtain rfl : head = q.head := orderly.consumer.1
      obtain ⟨_, differ, loaded⟩ := orderly.consumer
      simp only [Spsc.step, Spsc.observe] at taken ⊢
      split at taken
      · cases taken
      · rename_i nonzero
        obtain rfl := Option.some.inj taken
        exact store_head_performs q p value nonzero differ loaded alike

theorem producer_untouched (ring ring' : Spsc) (taken : ring.step .consumer = some ring') : ring'.producer = ring.producer := by
  obtain ⟨q, producer, consumer⟩ := ring
  cases consumer with
  | idle => exact Option.some.inj taken ▸ rfl
  | loadedHead head =>
      simp only [Spsc.step] at taken
      split at taken
      · exact Option.some.inj taken ▸ rfl
      · exact Option.some.inj taken ▸ rfl
  | foundItem head =>
      simp only [Spsc.step] at taken
      obtain ⟨value, _, rfl⟩ := Option.map_eq_some_iff.mp taken
      rfl
  | loadedCell head value =>
      simp only [Spsc.step] at taken
      split at taken
      · cases taken
      · exact Option.some.inj taken ▸ rfl

theorem consumer_untouched (ring ring' : Spsc) (move : Move) (taken : ring.step move = some ring') (other : move ≠ .consumer) :
    ring'.consumer = ring.consumer := by
  obtain ⟨q, producer, consumer⟩ := ring
  cases move with
  | consumer => exact absurd rfl other
  | push begun =>
      cases producer with
      | idle =>
          simp only [Spsc.step] at taken
          split at taken
          · cases taken
          · exact Option.some.inj taken ▸ rfl
      | loadedTail | foundRoom | storedCell => cases taken
  | producer =>
      cases producer with
      | idle => cases taken
      | loadedTail begun tail =>
          simp only [Spsc.step] at taken
          split at taken
          · exact Option.some.inj taken ▸ rfl
          · exact Option.some.inj taken ▸ rfl
      | foundRoom begun tail =>
          simp only [Spsc.step] at taken
          split at taken
          · exact Option.some.inj taken ▸ rfl
          · cases taken
      | storedCell begun tail =>
          simp only [Spsc.step] at taken
          split at taken
          · cases taken
          · exact Option.some.inj taken ▸ rfl

theorem observed_push (ring : Spsc) (move : Move) (id : ConnId)
    (shown : ring.observe move = some (.published id) ∨ ring.observe move = some (.refused id)) :
    ring.producer.pushing = some id := by
  obtain ⟨q, producer, consumer⟩ := ring
  cases move with
  | push begun => simp [Spsc.observe] at shown
  | producer =>
      cases producer with
      | idle => simp [Spsc.observe] at shown
      | loadedTail begun tail =>
          simp only [Spsc.observe] at shown
          split at shown
          · simpa [Producer.pushing] using shown
          · simp at shown
      | foundRoom begun tail => simp [Spsc.observe] at shown
      | storedCell begun tail => simpa [Spsc.observe, Producer.pushing] using shown
  | consumer =>
      cases consumer with
      | idle => simp [Spsc.observe] at shown
      | loadedHead head =>
          simp only [Spsc.observe] at shown
          split at shown
          · simp at shown
          · simp at shown
      | foundItem head => simp [Spsc.observe] at shown
      | loadedCell head value => simp [Spsc.observe] at shown

theorem observed_pop (ring : Spsc) (move : Move) (result : Option ConnId) (shown : ring.observe move = some (.returned result)) :
    move = .consumer := by
  obtain ⟨q, producer, consumer⟩ := ring
  cases move with
  | push begun => cases shown
  | producer =>
      cases producer with
      | idle => cases shown
      | loadedTail begun tail =>
          simp only [Spsc.observe] at shown
          split at shown
          · cases shown
          · cases shown
      | foundRoom begun tail => cases shown
      | storedCell begun tail => cases shown
  | consumer => rfl

-- A call is begun by its own move, and is over at the access that it answers by.
theorem pushing_after (ring ring' : Spsc) (move : Move) (id : ConnId) (taken : ring.step move = some ring')
    (still : ring'.producer.pushing = some id) :
    (move = .push id ∨ ring.producer.pushing = some id) ∧
      ∀ other, ring.observe move ≠ some (.published other) ∧ ring.observe move ≠ some (.refused other) := by
  obtain ⟨q, producer, consumer⟩ := ring
  cases move with
  | push begun =>
      cases producer with
      | idle =>
          simp only [Spsc.step] at taken
          split at taken
          · cases taken
          · obtain rfl := Option.some.inj taken
            obtain rfl := Option.some.inj still
            exact ⟨.inl rfl, fun other => ⟨by simp [Spsc.observe], by simp [Spsc.observe]⟩⟩
      | loadedTail | foundRoom | storedCell => cases taken
  | producer =>
      cases producer with
      | idle => cases taken
      | loadedTail begun tail =>
          simp only [Spsc.step, Spsc.observe] at taken ⊢
          split at taken
          · obtain rfl := Option.some.inj taken
            cases still
          · rename_i free
            obtain rfl := Option.some.inj taken
            exact ⟨.inr still, fun other => ⟨by simp [free], by simp [free]⟩⟩
      | foundRoom begun tail =>
          simp only [Spsc.step] at taken
          split at taken
          · obtain rfl := Option.some.inj taken
            exact ⟨.inr still, fun other => ⟨by simp [Spsc.observe], by simp [Spsc.observe]⟩⟩
          · cases taken
      | storedCell begun tail =>
          simp only [Spsc.step] at taken
          split at taken
          · cases taken
          · obtain rfl := Option.some.inj taken
            cases still
  | consumer =>
      have same : ring'.producer = producer := producer_untouched _ ring' taken
      refine ⟨.inr (same ▸ still), fun other => ?_⟩
      cases consumer with
      | idle => exact ⟨by simp [Spsc.observe], by simp [Spsc.observe]⟩
      | loadedHead head =>
          by_cases empty : head = q.tail
          · exact ⟨by simp [Spsc.observe, empty], by simp [Spsc.observe, empty]⟩
          · exact ⟨by simp [Spsc.observe, empty], by simp [Spsc.observe, empty]⟩
      | foundItem head => exact ⟨by simp [Spsc.observe], by simp [Spsc.observe]⟩
      | loadedCell head value => exact ⟨by simp [Spsc.observe], by simp [Spsc.observe]⟩

theorem popping_after (ring ring' : Spsc) (move : Move) (taken : ring.step move = some ring') (still : ring'.consumer ≠ .idle) :
    (move = .consumer ∨ ring.consumer ≠ .idle) ∧ ∀ result, ring.observe move ≠ some (.returned result) := by
  obtain ⟨q, producer, consumer⟩ := ring
  cases move with
  | push begun =>
      have same : ring'.consumer = consumer := consumer_untouched _ ring' _ taken (fun equal => by cases equal)
      exact ⟨.inr (same ▸ still), fun result => by simp [Spsc.observe]⟩
  | producer =>
      have same : ring'.consumer = consumer := consumer_untouched _ ring' _ taken (fun equal => by cases equal)
      refine ⟨.inr (same ▸ still), fun result => ?_⟩
      cases producer with
      | idle => simp [Spsc.observe]
      | loadedTail begun tail => by_cases full : (tail + 1) % q.capacity = q.head <;> simp [Spsc.observe, full]
      | foundRoom begun tail => simp [Spsc.observe]
      | storedCell begun tail => simp [Spsc.observe]
  | consumer =>
      refine ⟨.inl rfl, fun result => ?_⟩
      cases consumer with
      | idle => simp [Spsc.observe]
      | loadedHead head =>
          simp only [Spsc.step, Spsc.observe] at taken ⊢
          split at taken
          · exact absurd (Option.some.inj taken ▸ rfl) still
          · rename_i differ
            simp [differ]
      | foundItem head => simp [Spsc.observe]
      | loadedCell head value =>
          simp only [Spsc.step] at taken
          split at taken
          · cases taken
          · exact absurd (Option.some.inj taken ▸ rfl) still

theorem producer_left (ring ring' : Spsc) (taken : ring.step .producer = some ring') :
    ring'.producer.left < ring.producer.left := by
  obtain ⟨q, producer, consumer⟩ := ring
  cases producer with
  | idle => cases taken
  | loadedTail id tail =>
      simp only [Spsc.step] at taken
      split at taken
      · obtain rfl := Option.some.inj taken
        exact Nat.succ_pos 2
      · obtain rfl := Option.some.inj taken
        exact Nat.lt_succ_self 2
  | foundRoom id tail =>
      simp only [Spsc.step] at taken
      split at taken
      · obtain rfl := Option.some.inj taken
        exact Nat.lt_succ_self 1
      · cases taken
  | storedCell id tail =>
      simp only [Spsc.step] at taken
      split at taken
      · cases taken
      · obtain rfl := Option.some.inj taken
        exact Nat.lt_succ_self 0

theorem consumer_left (ring ring' : Spsc) (taken : ring.step .consumer = some ring') (busy : ring.consumer ≠ .idle) :
    ring'.consumer.left < ring.consumer.left := by
  obtain ⟨q, producer, consumer⟩ := ring
  cases consumer with
  | idle => exact absurd rfl busy
  | loadedHead head =>
      simp only [Spsc.step] at taken
      split at taken
      · obtain rfl := Option.some.inj taken
        exact Nat.succ_pos 2
      · obtain rfl := Option.some.inj taken
        exact Nat.lt_succ_self 2
  | foundItem head =>
      simp only [Spsc.step] at taken
      obtain ⟨value, _, rfl⟩ := Option.map_eq_some_iff.mp taken
      exact Nat.lt_succ_self 1
  | loadedCell head value =>
      simp only [Spsc.step] at taken
      split at taken
      · cases taken
      · obtain rfl := Option.some.inj taken
        exact Nat.lt_succ_self 0

end Ners.Server
