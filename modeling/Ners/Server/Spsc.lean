import Ners.Base.Runs
import Ners.Server.Cells

set_option autoImplicit false

namespace Ners.Server

open Runs (Reached Taken carried carried_snoc execute reached_invariant)

-- How far the producer is in a push, and the consumer in a pop, with what they
-- have loaded so far.
inductive Producer where
  | idle
  | loadedTail (id : ConnId) (tail : Nat)
  | foundRoom (id : ConnId) (tail : Nat)
  | storedCell (id : ConnId) (tail : Nat)

inductive Consumer where
  | idle
  | loadedHead (head : Nat)
  | foundItem (head : Nat)
  | loadedCell (head value : Nat)

structure Spsc where
  queue : RingQueue
  producer : Producer
  consumer : Consumer

def Spsc.new (capacity : Nat) : Spsc := ⟨.new capacity, .idle, .idle⟩

-- A push begins with its first load; each other move is the next atomic load or
-- store of the call that its thread is in.
inductive Move where
  | push (id : ConnId)
  | producer
  | consumer

-- No step where the thread has none to take, or panics on a division by zero or
-- an index out of the buffer.
def Spsc.step (s : Spsc) : Move → Option Spsc
  | .push id =>
      match s.producer with
      | .idle => if s.queue.capacity = 0 then none else some { s with producer := .loadedTail id s.queue.tail }
      | _ => none
  | .producer =>
      match s.producer with
      | .idle => none
      | .loadedTail id tail =>
          if (tail + 1) % s.queue.capacity = s.queue.head then some { s with producer := .idle }
          else some { s with producer := .foundRoom id tail }
      | .foundRoom id tail =>
          if tail < s.queue.buffer.length then
            some { s with queue := s.queue.storeCell tail id, producer := .storedCell id tail }
          else none
      | .storedCell _ tail =>
          if nonzero : s.queue.capacity = 0 then none
          else
            let next := (tail + 1) % s.queue.capacity
            some { s with queue := s.queue.storeTail next (mod_in _ _ nonzero), producer := .idle }
  | .consumer =>
      match s.consumer with
      | .idle => some { s with consumer := .loadedHead s.queue.head }
      | .loadedHead head =>
          if head = s.queue.tail then some { s with consumer := .idle } else some { s with consumer := .foundItem head }
      | .foundItem head => s.queue.buffer[head]?.map fun value => { s with consumer := .loadedCell head value }
      | .loadedCell head _ =>
          if nonzero : s.queue.capacity = 0 then none
          else
            let next := (head + 1) % s.queue.capacity
            some { s with queue := s.queue.storeHead next (mod_in _ _ nonzero), consumer := .idle }

-- What a step shows: an access to a cell, a push that has stored the new tail or
-- found the queue full, a pop that returns.
inductive Access where
  | wrote (cell : Nat) (id : ConnId)
  | read (cell : Nat) (value : Nat)
  | published (id : ConnId)
  | refused (id : ConnId)
  | returned (id : Option ConnId)
deriving DecidableEq

def Spsc.observe (s : Spsc) : Move → Option Access
  | .push _ => none
  | .producer =>
      match s.producer with
      | .loadedTail id tail => if (tail + 1) % s.queue.capacity = s.queue.head then some (.refused id) else none
      | .foundRoom id tail => some (.wrote tail id)
      | .storedCell id _ => some (.published id)
      | .idle => none
  | .consumer =>
      match s.consumer with
      | .loadedHead head => if head = s.queue.tail then some (.returned none) else none
      | .foundItem head => s.queue.buffer[head]?.map fun value => .read head value
      | .loadedCell _ value => some (.returned (if value = usizeMax then none else some value))
      | .idle => none

def trace (capacity : Nat) (moves : List Move) : List Access :=
  carried Spsc.step (fun s move trace => trace ++ (s.observe move).toList) (.new capacity) [] moves

def published (trace : List Access) : List ConnId :=
  trace.filterMap fun access =>
    match access with
    | .published id => some id
    | _ => none

def returned (trace : List Access) : List ConnId :=
  trace.filterMap fun access =>
    match access with
    | .returned id => id
    | _ => none

def Access.on (cell : Nat) : Access → Bool
  | .wrote other _ | .read other _ => other = cell
  | _ => false

def lastOn (cell : Nat) (trace : List Access) : Option Access := (trace.filter (Access.on cell)).getLast?

-- A cell is written when what was in it has been read, and read when it has
-- been written since.
def InOrder (before : List Access) : Access → Prop
  | .wrote cell _ => ∀ last, lastOn cell before = some last → ∃ value, last = .read cell value
  | .read cell value => lastOn cell before = some (.wrote cell value)
  | _ => True

def Move.Genuine : Move → Prop
  | .push id => id ≠ usizeMax
  | _ => True

instance (move : Move) : Decidable move.Genuine :=
  match move with
  | .push id => inferInstanceAs (Decidable (id ≠ usizeMax))
  | .producer | .consumer => .isTrue trivial

def Producer.At (q : RingQueue) : Producer → Prop
  | .idle => True
  | .loadedTail id tail => id ≠ usizeMax ∧ tail = q.tail ∧ q.capacity ≠ 0
  | .foundRoom id tail => id ≠ usizeMax ∧ tail = q.tail ∧ q.HasRoom
  | .storedCell id tail => id ≠ usizeMax ∧ tail = q.tail ∧ q.HasRoom ∧ q.buffer[tail]? = some id

def Consumer.At (q : RingQueue) : Consumer → Prop
  | .idle => True
  | .loadedHead head => head = q.head
  | .foundItem head => head = q.head ∧ q.head ≠ q.tail
  | .loadedCell head value => head = q.head ∧ q.head ≠ q.tail ∧ q.buffer[head]? = some value

-- The cell that a thread has been at and that its next store is about.
def Producer.holds (cell : Nat) : Producer → Prop
  | .storedCell _ tail => cell = tail
  | _ => False

def Consumer.holds (cell : Nat) : Consumer → Prop
  | .loadedCell head _ => cell = head
  | _ => False

-- A cell that was written and not yet read.
def Spsc.Unread (s : Spsc) (cell : Nat) : Prop :=
  (s.queue.Occupied cell ∧ ¬ s.consumer.holds cell) ∨ s.producer.holds cell

structure Orderly (trace : List Access) (s : Spsc) : Prop where
  balance : published trace = returned trace ++ s.queue.contents
  real : ∀ id ∈ s.queue.contents, id ≠ usizeMax
  producer : s.producer.At s.queue
  consumer : s.consumer.At s.queue
  unread : ∀ cell, s.Unread cell → ∃ id, s.queue.buffer[cell]? = some id ∧ lastOn cell trace = some (.wrote cell id)
  free : ∀ cell, ¬ s.Unread cell → ∀ last, lastOn cell trace = some last → ∃ value, last = .read cell value
  inOrder : ∀ before access, before ++ [access] <+: trace → InOrder before access

-- The steps of one call without a step of the other thread between them are the
-- call itself.
theorem push_uninterleaved (q q' : RingQueue) (id : ConnId) (consumer : Consumer) (pushed : q.push id = .ok (.ok (), q')) :
    execute Spsc.step ⟨q, .idle, consumer⟩ [.push id, .producer, .producer, .producer] = some ⟨q', .idle, consumer⟩ := by
  rw [RingQueue.push] at pushed
  split at pushed
  · cases pushed
  · rename_i nonzero
    split at pushed
    · cases pushed
    · rename_i free
      obtain ⟨_, rfl⟩ := Prod.mk.inj (Except.ok.inj pushed)
      have within := tail_within q nonzero
      have divides : (q.storeCell q.tail id).capacity ≠ 0 := nonzero
      simp only [execute, Spsc.step, if_neg nonzero, Option.bind_some, if_neg free, if_pos within, dif_neg divides]
      rfl

theorem push_refused_uninterleaved (q q' : RingQueue) (id : ConnId) (consumer : Consumer)
    (refused : q.push id = .ok (.error id, q')) :
    execute Spsc.step ⟨q, .idle, consumer⟩ [.push id, .producer] = some ⟨q', .idle, consumer⟩ := by
  rw [RingQueue.push] at refused
  split at refused
  · cases refused
  · rename_i nonzero
    split at refused
    · rename_i full
      obtain ⟨_, rfl⟩ := Prod.mk.inj (Except.ok.inj refused)
      simp only [execute, Spsc.step, if_neg nonzero, Option.bind_some, if_pos full]
    · cases refused

theorem pop_uninterleaved (q : RingQueue) (producer : Producer) (differ : q.head ≠ q.tail) :
    ∃ last, execute Spsc.step ⟨q, producer, .idle⟩ [.consumer, .consumer, .consumer] = some last ∧
      last.observe .consumer = some (.returned q.pop.1) ∧ last.step .consumer = some ⟨q.pop.2, producer, .idle⟩ := by
  have within := head_within q (differ_nonzero q differ)
  have loaded := List.getElem?_eq_getElem within
  have front : q.buffer.getD q.head usizeMax = q.buffer[q.head] := by
    rw [List.getD_eq_getElem?_getD, loaded, Option.getD_some]
  refine ⟨⟨q, producer, .loadedCell q.head q.buffer[q.head]⟩, ?_, ?_, ?_⟩
  · simp only [execute, Spsc.step, Option.bind_some, if_neg differ, loaded, Option.map_some]
  · simp only [Spsc.observe, RingQueue.pop, dif_neg differ, front]
  · simp only [Spsc.step, RingQueue.pop, dif_neg differ, dif_neg (differ_nonzero q differ)]
    rfl

theorem pop_empty_uninterleaved (q : RingQueue) (producer : Producer) (same : q.head = q.tail) :
    execute Spsc.step ⟨q, producer, .idle⟩ [.consumer, .consumer] = some ⟨q.pop.2, producer, .idle⟩ := by
  simp only [execute, Spsc.step, Option.bind_some, if_pos same, RingQueue.pop, dif_pos same]

theorem trace_snoc (capacity : Nat) (before : List Move) (s : Spsc) (move : Move)
    (reached : execute Spsc.step (.new capacity) before = some s) :
    trace capacity (before ++ [move]) = trace capacity before ++ (s.observe move).toList :=
  carried_snoc _ _ s [] before move reached

theorem published_snoc (trace : List Access) (access : Access) :
    published (trace ++ [access]) = published trace ++ published [access] := List.filterMap_append

theorem returned_snoc (trace : List Access) (access : Access) :
    returned (trace ++ [access]) = returned trace ++ returned [access] := List.filterMap_append

theorem last_on_snoc (cell : Nat) (trace : List Access) (access : Access) :
    lastOn cell (trace ++ [access]) = if access.on cell = true then some access else lastOn cell trace := by
  rw [lastOn, List.filter_append, List.filter_singleton]
  by_cases here : access.on cell = true
  · rw [if_pos here, here]
    exact List.getLast?_concat
  · rw [if_neg here, Bool.eq_false_iff.mpr here]
    exact congrArg List.getLast? (List.append_nil _)

theorem in_order_snoc (trace : List Access) (access : Access)
    (earlier : ∀ before access, before ++ [access] <+: trace → InOrder before access) (next : InOrder trace access)
    (before : List Access) (other : Access) (within : before ++ [other] <+: trace ++ [access]) : InOrder before other := by
  rcases List.prefix_concat_iff.mp within with whole | inside
  · obtain ⟨rfl, same⟩ := List.append_inj' whole rfl
    obtain rfl := List.singleton_inj.mp same
    exact next
  · exact earlier before other inside

-- A step that leaves the queue as it is and touches no cell.
theorem orderly_quiet (trace : List Access) (s s' : Spsc) (shown : Option Access) (orderly : Orderly trace s)
    (queue : s'.queue = s.queue) (producer : s'.producer.At s'.queue) (consumer : s'.consumer.At s'.queue)
    (unread : ∀ cell, s'.Unread cell ↔ s.Unread cell)
    (quiet : ∀ access, shown = some access →
      published [access] = [] ∧ returned [access] = [] ∧ InOrder trace access ∧ ∀ cell, access.on cell = false) :
    Orderly (trace ++ shown.toList) s' := by
  cases shown with
  | none =>
      rw [Option.toList_none, List.append_nil]
      refine ⟨?_, ?_, producer, consumer, fun cell there => ?_, fun cell gone => ?_, orderly.inOrder⟩
      · rw [queue]
        exact orderly.balance
      · rw [queue]
        exact orderly.real
      · rw [queue]
        exact orderly.unread cell ((unread cell).mp there)
      · exact orderly.free cell fun there => gone ((unread cell).mpr there)
  | some access =>
      obtain ⟨unpublished, unreturned, next, off⟩ := quiet access rfl
      rw [Option.toList_some]
      refine ⟨?_, ?_, producer, consumer, fun cell there => ?_, fun cell gone => ?_, in_order_snoc _ _ orderly.inOrder next⟩
      · rw [published_snoc, returned_snoc, unpublished, unreturned, List.append_nil, List.append_nil, queue]
        exact orderly.balance
      · rw [queue]
        exact orderly.real
      · rw [queue, last_on_snoc, if_neg (by rw [off cell]; decide)]
        exact orderly.unread cell ((unread cell).mp there)
      · rw [last_on_snoc, if_neg (by rw [off cell]; decide)]
        exact orderly.free cell fun there => gone ((unread cell).mpr there)

theorem access_on_other (cell other : Nat) (id : ConnId) (apart : cell ≠ other) :
    (Access.wrote other id).on cell = false ∧ (Access.read other id).on cell = false :=
  ⟨decide_eq_false (Ne.symm apart), decide_eq_false (Ne.symm apart)⟩

-- What one thread knows of the queue outlasts the stores of the other.
theorem consumer_store_cell (q : RingQueue) (id : ConnId) (consumer : Consumer) (known : consumer.At q) :
    consumer.At (q.storeCell q.tail id) := by
  cases consumer with
  | idle => exact known
  | loadedHead head => exact known
  | foundItem head => exact known
  | loadedCell head value =>
      obtain ⟨rfl, differ, loaded⟩ := known
      exact ⟨rfl, differ, (List.getElem?_set_ne (Ne.symm differ)).trans loaded⟩

theorem consumer_store_tail (q : RingQueue) (consumer : Consumer) (room : q.HasRoom) (known : consumer.At q) :
    consumer.At (q.storeTail ((q.tail + 1) % q.capacity) (mod_in _ _ room.1)) := by
  have differ := Ne.symm (room_free q room)
  cases consumer with
  | idle => exact known
  | loadedHead head => exact known
  | foundItem head => exact ⟨known.1, differ⟩
  | loadedCell head value => exact ⟨known.1, differ, known.2.2⟩

theorem producer_store_head (q : RingQueue) (producer : Producer) (nonzero : q.capacity ≠ 0) (differ : q.head ≠ q.tail)
    (known : producer.At q) : producer.At (q.storeHead ((q.head + 1) % q.capacity) (mod_in _ _ nonzero)) := by
  cases producer with
  | idle => exact known
  | loadedTail id tail => exact known
  | foundRoom id tail => exact ⟨known.1, known.2.1, store_head_room q known.2.2 differ⟩
  | storedCell id tail => exact ⟨known.1, known.2.1, store_head_room q known.2.2.1 differ, known.2.2.2⟩

theorem producer_holds_tail (q : RingQueue) (producer : Producer) (cell : Nat) (known : producer.At q)
    (held : producer.holds cell) : cell = q.tail := by
  cases producer with
  | storedCell id tail => exact Eq.trans held known.2.1
  | _ => exact held.elim

theorem consumer_holds_head (q : RingQueue) (consumer : Consumer) (cell : Nat) (known : consumer.At q)
    (held : consumer.holds cell) : cell = q.head ∧ q.head ≠ q.tail := by
  cases consumer with
  | loadedCell head value => exact ⟨Eq.trans held known.1, known.2.1⟩
  | _ => exact held.elim

-- Which cells are unread before and after each access.
theorem unread_store_cell (q : RingQueue) (id : ConnId) (tail : Nat) (consumer : Consumer) (cell : Nat) (apart : cell ≠ tail) :
    Spsc.Unread ⟨q.storeCell tail id, .storedCell id tail, consumer⟩ cell ↔ Spsc.Unread ⟨q, .foundRoom id tail, consumer⟩ cell := by
  constructor
  · rintro (occupied | held)
    · exact .inl occupied
    · exact absurd held apart
  · rintro (occupied | held)
    · exact .inl occupied
    · exact held.elim

theorem unread_store_tail (q : RingQueue) (id : ConnId) (consumer : Consumer) (room : q.HasRoom) (known : consumer.At q)
    (cell : Nat) :
    Spsc.Unread ⟨q.storeTail ((q.tail + 1) % q.capacity) (mod_in _ _ room.1), .idle, consumer⟩ cell ↔
      Spsc.Unread ⟨q, .storedCell id q.tail, consumer⟩ cell := by
  rw [Spsc.Unread, store_tail_occupied q room cell, Spsc.Unread]
  simp only [Producer.holds, or_false]
  constructor
  · rintro ⟨occupied | mine, kept⟩
    · exact .inl ⟨occupied, kept⟩
    · exact .inr mine
  · rintro (⟨occupied, kept⟩ | mine)
    · exact ⟨.inl occupied, kept⟩
    · refine ⟨.inr mine, fun held => ?_⟩
      obtain ⟨front, differ⟩ := consumer_holds_head q consumer cell known held
      exact differ (front.symm.trans mine)

theorem unread_load_cell (q : RingQueue) (producer : Producer) (value : Nat) (differ : q.head ≠ q.tail)
    (known : producer.At q) (cell : Nat) :
    Spsc.Unread ⟨q, producer, .loadedCell q.head value⟩ cell ↔
      Spsc.Unread ⟨q, producer, .foundItem q.head⟩ cell ∧ cell ≠ q.head := by
  constructor
  · rintro (⟨occupied, kept⟩ | held)
    · exact ⟨.inl ⟨occupied, id⟩, kept⟩
    · have back := producer_holds_tail q producer cell known held
      exact ⟨.inr held, fun front => differ (front.symm.trans back)⟩
  · rintro ⟨⟨occupied, _⟩ | held, apart⟩
    · exact .inl ⟨occupied, apart⟩
    · exact .inr held

theorem unread_store_head (q : RingQueue) (producer : Producer) (value : Nat) (nonzero : q.capacity ≠ 0)
    (differ : q.head ≠ q.tail) (cell : Nat) :
    Spsc.Unread ⟨q.storeHead ((q.head + 1) % q.capacity) (mod_in _ _ nonzero), producer, .idle⟩ cell ↔
      Spsc.Unread ⟨q, producer, .loadedCell q.head value⟩ cell := by
  rw [Spsc.Unread, store_head_occupied q nonzero differ cell, Spsc.Unread]
  simp only [Consumer.holds, not_false_eq_true, and_true, ne_eq]

theorem store_cell_orderly (trace : List Access) (q : RingQueue) (consumer : Consumer) (id : ConnId)
    (orderly : Orderly trace ⟨q, .foundRoom id q.tail, consumer⟩) :
    Orderly (trace ++ [.wrote q.tail id]) ⟨q.storeCell q.tail id, .storedCell id q.tail, consumer⟩ := by
  obtain ⟨balance, real, ⟨fresh, _, room⟩, known, unread, free, inOrder⟩ := orderly
  have contents := store_cell_contents q id room.1
  have within := tail_within q room.1
  have vacant : ¬ Spsc.Unread ⟨q, .foundRoom id q.tail, consumer⟩ q.tail := by
    rintro (⟨occupied, _⟩ | held)
    · exact tail_vacant q occupied
    · exact held
  refine ⟨?_, ?_, ?_, consumer_store_cell q id consumer known, fun cell there => ?_, fun cell gone => ?_,
    in_order_snoc _ _ inOrder (free _ vacant)⟩
  · rw [published_snoc, returned_snoc, contents]
    simpa [published, returned] using balance
  · rw [contents]
    exact real
  · refine ⟨fresh, rfl, ⟨room.1, ?_⟩, List.getElem?_set_self within⟩
    rw [contents]
    exact room.2
  · rw [last_on_snoc]
    by_cases mine : cell = q.tail
    · subst mine
      exact ⟨id, List.getElem?_set_self within, if_pos (decide_eq_true rfl)⟩
    · obtain ⟨value, stored, last⟩ := unread cell ((unread_store_cell q id _ consumer cell mine).mp there)
      refine ⟨value, (List.getElem?_set_ne (Ne.symm mine)).trans stored, ?_⟩
      rw [if_neg (by rw [(access_on_other cell _ id mine).1]; decide), last]
  · have apart : cell ≠ q.tail := by
      rintro rfl
      exact gone (.inr rfl)
    rw [last_on_snoc, if_neg (by rw [(access_on_other cell _ id apart).1]; decide)]
    exact free cell fun there => gone ((unread_store_cell q id _ consumer cell apart).mpr there)

theorem store_tail_orderly (trace : List Access) (q : RingQueue) (consumer : Consumer) (id : ConnId)
    (nonzero : q.capacity ≠ 0) (orderly : Orderly trace ⟨q, .storedCell id q.tail, consumer⟩) :
    Orderly (trace ++ [.published id]) ⟨q.storeTail ((q.tail + 1) % q.capacity) (mod_in _ _ nonzero), .idle, consumer⟩ := by
  obtain ⟨balance, real, ⟨fresh, _, room, written⟩, known, unread, free, inOrder⟩ := orderly
  have contents := store_tail_contents q id room written
  have same := unread_store_tail q id consumer room known
  have off (cell : Nat) : (Access.published id).on cell = false := rfl
  refine ⟨?_, ?_, trivial, consumer_store_tail q consumer room known, fun cell there => ?_, fun cell gone => ?_,
    in_order_snoc _ _ inOrder trivial⟩
  · rw [published_snoc, returned_snoc, contents, balance]
    simp [published, returned]
  · rw [contents]
    intro other member
    rcases List.mem_append.mp member with old | last
    · exact real other old
    · exact List.mem_singleton.mp last ▸ fresh
  · rw [last_on_snoc, if_neg (by rw [off cell]; decide)]
    exact unread cell ((same cell).mp there)
  · rw [last_on_snoc, if_neg (by rw [off cell]; decide)]
    exact free cell fun there => gone ((same cell).mpr there)

theorem load_cell_orderly (trace : List Access) (q : RingQueue) (producer : Producer) (value : Nat)
    (orderly : Orderly trace ⟨q, producer, .foundItem q.head⟩) (loaded : q.buffer[q.head]? = some value) :
    Orderly (trace ++ [.read q.head value]) ⟨q, producer, .loadedCell q.head value⟩ := by
  obtain ⟨balance, real, known, ⟨_, differ⟩, unread, free, inOrder⟩ := orderly
  have same := unread_load_cell q producer value differ known
  obtain ⟨stored, held, last⟩ := unread _ (.inl ⟨head_occupied q differ, id⟩)
  have next : InOrder trace (.read q.head value) := by
    rw [InOrder, last, Option.some.inj (held.symm.trans loaded)]
  refine ⟨?_, real, known, ⟨rfl, differ, loaded⟩, fun cell there => ?_, fun cell gone => ?_, in_order_snoc _ _ inOrder next⟩
  · rw [published_snoc, returned_snoc]
    simpa [published, returned] using balance
  · obtain ⟨before, apart⟩ := (same cell).mp there
    rw [last_on_snoc, if_neg (by rw [(access_on_other cell _ value apart).2]; decide)]
    exact unread cell before
  · rw [last_on_snoc]
    by_cases mine : cell = q.head
    · subst mine
      have self : (Access.read q.head value).on q.head = true := decide_eq_true rfl
      rw [if_pos self]
      intro last there
      exact ⟨value, (Option.some.inj there).symm⟩
    · rw [if_neg (by rw [(access_on_other cell _ value mine).2]; decide)]
      exact free cell fun there => gone ((same cell).mpr ⟨there, mine⟩)

theorem store_head_orderly (trace : List Access) (q : RingQueue) (producer : Producer) (value : Nat)
    (nonzero : q.capacity ≠ 0) (orderly : Orderly trace ⟨q, producer, .loadedCell q.head value⟩) :
    Orderly (trace ++ [.returned (if value = usizeMax then none else some value)])
      ⟨q.storeHead ((q.head + 1) % q.capacity) (mod_in _ _ nonzero), producer, .idle⟩ := by
  obtain ⟨balance, real, known, ⟨_, differ, loaded⟩, unread, free, inOrder⟩ := orderly
  have contents := store_head_contents q nonzero differ
  have front : q.buffer.getD q.head usizeMax = value := by
    rw [List.getD_eq_getElem?_getD, loaded, Option.getD_some]
  rw [front] at contents
  have fresh : value ≠ usizeMax := real value (contents ▸ List.mem_cons_self)
  have same := unread_store_head q producer value nonzero differ
  have off (cell : Nat) (id : Option ConnId) : (Access.returned id).on cell = false := rfl
  refine ⟨?_, fun id member => real id (contents ▸ List.mem_cons_of_mem _ member),
    producer_store_head q producer nonzero differ known, trivial, fun cell there => ?_, fun cell gone => ?_,
    in_order_snoc _ _ inOrder trivial⟩
  · rw [published_snoc, returned_snoc, balance, contents, if_neg fresh]
    simp [published, returned]
  · rw [last_on_snoc, if_neg (by rw [off]; decide)]
    exact unread cell ((same cell).mp there)
  · rw [last_on_snoc, if_neg (by rw [off]; decide)]
    exact free cell fun there => gone ((same cell).mpr there)

theorem producer_orderly (trace : List Access) (s s' : Spsc) (orderly : Orderly trace s) (taken : s.step .producer = some s') :
    Orderly (trace ++ (s.observe .producer).toList) s' := by
  obtain ⟨q, producer, consumer⟩ := s
  cases producer with
  | idle => cases taken
  | loadedTail id tail =>
      obtain rfl : tail = q.tail := orderly.producer.2.1
      obtain ⟨fresh, _, nonzero⟩ := orderly.producer
      simp only [Spsc.step, Spsc.observe] at taken ⊢
      by_cases full : (q.tail + 1) % q.capacity = q.head
      · rw [if_pos full] at taken ⊢
        obtain rfl := Option.some.inj taken
        refine orderly_quiet trace _ _ _ orderly rfl trivial orderly.consumer (fun cell => Iff.rfl) fun access shown => ?_
        obtain rfl := Option.some.inj shown
        exact ⟨rfl, rfl, trivial, fun _ => rfl⟩
      · rw [if_neg full] at taken ⊢
        obtain rfl := Option.some.inj taken
        exact orderly_quiet trace _ _ none orderly rfl ⟨fresh, rfl, free_room q nonzero full⟩ orderly.consumer
          (fun cell => Iff.rfl) fun access shown => by cases shown
  | foundRoom id tail =>
      obtain rfl : tail = q.tail := orderly.producer.2.1
      simp only [Spsc.step, Spsc.observe] at taken ⊢
      split at taken
      · obtain rfl := Option.some.inj taken
        exact store_cell_orderly trace q consumer id orderly
      · cases taken
  | storedCell id tail =>
      obtain rfl : tail = q.tail := orderly.producer.2.1
      simp only [Spsc.step, Spsc.observe] at taken ⊢
      split at taken
      · cases taken
      · rename_i nonzero
        obtain rfl := Option.some.inj taken
        exact store_tail_orderly trace q consumer id nonzero orderly

theorem consumer_orderly (trace : List Access) (s s' : Spsc) (orderly : Orderly trace s) (taken : s.step .consumer = some s') :
    Orderly (trace ++ (s.observe .consumer).toList) s' := by
  obtain ⟨q, producer, consumer⟩ := s
  cases consumer with
  | idle =>
      obtain rfl := Option.some.inj taken
      exact orderly_quiet trace _ _ none orderly rfl orderly.producer rfl (fun cell => Iff.rfl) fun access shown => by cases shown
  | loadedHead head =>
      obtain rfl : head = q.head := orderly.consumer
      simp only [Spsc.step, Spsc.observe] at taken ⊢
      by_cases empty : q.head = q.tail
      · rw [if_pos empty] at taken ⊢
        obtain rfl := Option.some.inj taken
        refine orderly_quiet trace _ _ _ orderly rfl orderly.producer trivial (fun cell => Iff.rfl) fun access shown => ?_
        obtain rfl := Option.some.inj shown
        exact ⟨rfl, rfl, trivial, fun _ => rfl⟩
      · rw [if_neg empty] at taken ⊢
        obtain rfl := Option.some.inj taken
        exact orderly_quiet trace _ _ none orderly rfl orderly.producer ⟨rfl, empty⟩ (fun cell => Iff.rfl)
          fun access shown => by cases shown
  | foundItem head =>
      obtain rfl : head = q.head := orderly.consumer.1
      simp only [Spsc.step, Spsc.observe] at taken ⊢
      obtain ⟨value, loaded, rfl⟩ := Option.map_eq_some_iff.mp taken
      rw [loaded]
      exact load_cell_orderly trace q producer value orderly loaded
  | loadedCell head value =>
      obtain rfl : head = q.head := orderly.consumer.1
      simp only [Spsc.step, Spsc.observe] at taken ⊢
      split at taken
      · cases taken
      · rename_i nonzero
        obtain rfl := Option.some.inj taken
        exact store_head_orderly trace q producer value nonzero orderly

theorem push_orderly (trace : List Access) (s s' : Spsc) (id : ConnId) (orderly : Orderly trace s) (real : id ≠ usizeMax)
    (taken : s.step (.push id) = some s') : Orderly (trace ++ (s.observe (.push id)).toList) s' := by
  obtain ⟨q, producer, consumer⟩ := s
  cases producer with
  | idle =>
      simp only [Spsc.step] at taken
      split at taken
      · cases taken
      · rename_i nonzero
        obtain rfl := Option.some.inj taken
        exact orderly_quiet trace _ _ none orderly rfl ⟨real, rfl, nonzero⟩ orderly.consumer (fun cell => Iff.rfl)
          fun access shown => by cases shown
  | _ => cases taken

theorem step_orderly (trace : List Access) (s s' : Spsc) (move : Move) (orderly : Orderly trace s) (real : move.Genuine)
    (taken : s.step move = some s') : Orderly (trace ++ (s.observe move).toList) s' := by
  cases move with
  | push id => exact push_orderly trace s s' id orderly real taken
  | producer => exact producer_orderly trace s s' orderly taken
  | consumer => exact consumer_orderly trace s s' orderly taken

theorem new_orderly (capacity : Nat) : Orderly [] (.new capacity) := by
  refine ⟨rfl, fun id member => ?_, trivial, trivial, fun cell there => ?_, fun cell _ last there => ?_,
    fun before access within => ?_⟩
  · cases member
  · rcases there with ⟨occupied, _⟩ | held
    · rcases (occupied_iff _ cell).mp occupied with ⟨_, _, low⟩ | ⟨low, _⟩
      · exact absurd low (Nat.not_lt_zero cell)
      · exact absurd low (Nat.lt_irrefl 0)
    · exact held.elim
  · cases there
  · have short := within.length_le
    rw [List.length_append, List.length_singleton, List.length_nil] at short
    omega

theorem run_orderly (capacity : Nat) (moves : List Move) (s : Spsc) (real : ∀ move ∈ moves, move.Genuine)
    (executed : execute Spsc.step (.new capacity) moves = some s) : Orderly (trace capacity moves) s := by
  refine reached_invariant (fun before s => Orderly (trace capacity before) s) (fun _ _ move _ => move.Genuine) _ moves
    (new_orderly capacity) (fun before move s s' orderly there may => ?_) (fun before move s s' there => ?_) moves s
    ⟨List.prefix_refl _, executed⟩
  · rw [trace_snoc capacity before s move there.reached]
    exact step_orderly _ s s' move orderly may there.taken
  · exact real move (there.within.subset (List.mem_append_right _ (List.mem_singleton_self _)))

theorem spsc_in_order (capacity : Nat) (moves : List Move) (s : Spsc) (real : ∀ move ∈ moves, move.Genuine)
    (executed : execute Spsc.step (.new capacity) moves = some s) :
    returned (trace capacity moves) <+: published (trace capacity moves) ∧
      published (trace capacity moves) = returned (trace capacity moves) ++ s.queue.contents ∧
      ∀ before access, before ++ [access] <+: trace capacity moves → InOrder before access := by
  have orderly := run_orderly capacity moves s real executed
  exact ⟨⟨_, orderly.balance.symm⟩, orderly.balance, orderly.inOrder⟩

theorem consumer_goes_on (q : RingQueue) (producer : Producer) (consumer : Consumer) (known : consumer.At q) :
    ∃ s', Spsc.step ⟨q, producer, consumer⟩ .consumer = some s' := by
  cases consumer with
  | idle => exact ⟨_, rfl⟩
  | loadedHead head =>
      simp only [Spsc.step]
      split
      · exact ⟨_, rfl⟩
      · exact ⟨_, rfl⟩
  | foundItem head =>
      obtain ⟨rfl, differ⟩ := known
      have within := head_within q (differ_nonzero q differ)
      simp only [Spsc.step, List.getElem?_eq_getElem within, Option.map_some]
      exact ⟨_, rfl⟩
  | loadedCell head value =>
      simp only [Spsc.step, dif_neg (differ_nonzero q known.2.1)]
      exact ⟨_, rfl⟩

theorem producer_goes_on (q : RingQueue) (producer : Producer) (consumer : Consumer) (known : producer.At q)
    (busy : producer ≠ .idle) : ∃ s', Spsc.step ⟨q, producer, consumer⟩ .producer = some s' := by
  cases producer with
  | idle => exact absurd rfl busy
  | loadedTail id tail =>
      simp only [Spsc.step]
      split
      · exact ⟨_, rfl⟩
      · exact ⟨_, rfl⟩
  | foundRoom id tail =>
      obtain ⟨_, rfl, room⟩ := known
      have within := tail_within q room.1
      simp only [Spsc.step, if_pos within]
      exact ⟨_, rfl⟩
  | storedCell id tail =>
      simp only [Spsc.step, dif_neg known.2.2.1.1]
      exact ⟨_, rfl⟩

-- Neither thread ever panics: each has its next step, whatever the other does.
theorem threads_go_on (capacity : Nat) (moves : List Move) (s : Spsc) (real : ∀ move ∈ moves, move.Genuine)
    (executed : execute Spsc.step (.new capacity) moves = some s) :
    (∃ s', s.step .consumer = some s') ∧ (s.producer ≠ .idle → ∃ s', s.step .producer = some s') := by
  have orderly := run_orderly capacity moves s real executed
  constructor
  · exact consumer_goes_on s.queue s.producer s.consumer orderly.consumer
  · exact producer_goes_on s.queue s.producer s.consumer orderly.producer

-- Between two steps of the second push the first id is read: the ring of two
-- cells wraps.
theorem steps_interleave : ∃ s, execute Spsc.step (.new 2)
      [.push 5, .producer, .producer, .producer, .consumer, .consumer, .push 6, .consumer, .consumer, .producer, .producer,
        .consumer, .producer, .consumer] = some s ∧
    returned (trace 2 [.push 5, .producer, .producer, .producer, .consumer, .consumer, .push 6, .consumer, .consumer, .producer,
      .producer, .consumer, .producer, .consumer]) <+: [5, 6] := by
  refine ⟨_, rfl, ?_⟩
  exact (spsc_in_order 2 [.push 5, .producer, .producer, .producer, .consumer, .consumer, .push 6, .consumer, .consumer, .producer,
    .producer, .consumer, .producer, .consumer] _ (by decide) rfl).1

end Ners.Server
