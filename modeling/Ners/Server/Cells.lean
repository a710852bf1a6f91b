import Ners.Server.Queue

set_option autoImplicit false

namespace Ners.Server

-- The stores of push and pop, each by itself.
def RingQueue.storeCell (q : RingQueue) (index : Nat) (id : ConnId) : RingQueue :=
  { q with
    buffer := q.buffer.set index id
    sized := List.length_set.trans q.sized }

def RingQueue.storeTail (q : RingQueue) (next : Nat) (within : next ≤ q.capacity - 1) : RingQueue :=
  { q with
    tail := next
    tailIn := within }

def RingQueue.storeHead (q : RingQueue) (next : Nat) (within : next ≤ q.capacity - 1) : RingQueue :=
  { q with
    head := next
    headIn := within }

theorem tail_within (q : RingQueue) (nonzero : q.capacity ≠ 0) : q.tail < q.buffer.length := by
  have tailIn := q.tailIn
  have sized := q.sized
  omega

theorem head_within (q : RingQueue) (nonzero : q.capacity ≠ 0) : q.head < q.buffer.length := by
  have headIn := q.headIn
  have sized := q.sized
  omega

-- The cells from head up to tail.
def RingQueue.Occupied (q : RingQueue) (i : Nat) : Prop :=
  if q.head ≤ q.tail then q.head ≤ i ∧ i < q.tail else (q.head ≤ i ∧ i < q.capacity) ∨ i < q.tail

theorem occupied_iff (q : RingQueue) (i : Nat) :
    q.Occupied i ↔ (q.head ≤ q.tail ∧ q.head ≤ i ∧ i < q.tail) ∨
      (q.tail < q.head ∧ ((q.head ≤ i ∧ i < q.capacity) ∨ i < q.tail)) := by
  unfold RingQueue.Occupied
  split <;> omega

theorem tail_vacant (q : RingQueue) : ¬ q.Occupied q.tail := by
  unfold RingQueue.Occupied
  split <;> omega

theorem head_occupied (q : RingQueue) (differ : q.head ≠ q.tail) : q.Occupied q.head := by
  have headIn := q.headIn
  unfold RingQueue.Occupied
  split <;> omega

theorem store_cell_contents (q : RingQueue) (id : ConnId) (nonzero : q.capacity ≠ 0) :
    (q.storeCell q.tail id).contents = q.contents := by
  have same : (q.storeCell q.tail id).len = q.len := rfl
  rw [RingQueue.contents, RingQueue.contents, same]
  refine List.map_congr_left fun i member => ?_
  have other := tail_apart q nonzero i (List.mem_range.mp member)
  simp only [RingQueue.storeCell, List.getD_eq_getElem?_getD, List.getElem?_set_ne other]

theorem room_free (q : RingQueue) (room : q.HasRoom) : (q.tail + 1) % q.capacity ≠ q.head :=
  fun full => room.2 ((full_iff q room.1).mp full)

theorem free_room (q : RingQueue) (nonzero : q.capacity ≠ 0) (free : (q.tail + 1) % q.capacity ≠ q.head) : q.HasRoom :=
  ⟨nonzero, fun full => free ((full_iff q nonzero).mpr full)⟩

theorem store_tail_push (q : RingQueue) (id : ConnId) (nonzero : q.capacity ≠ 0) (written : q.buffer[q.tail]? = some id) :
    q.storeTail ((q.tail + 1) % q.capacity) (mod_in _ _ nonzero) = q.store id nonzero := by
  obtain ⟨within, value⟩ := List.getElem?_eq_some_iff.mp written
  have same : q.buffer.set q.tail id = q.buffer := by
    rw [← value]
    exact List.set_getElem_self within
  simp only [RingQueue.storeTail, RingQueue.store, same]

theorem store_tail_contents (q : RingQueue) (id : ConnId) (room : q.HasRoom) (written : q.buffer[q.tail]? = some id) :
    (q.storeTail ((q.tail + 1) % q.capacity) (mod_in _ _ room.1)).contents = q.contents ++ [id] := by
  rw [store_tail_push q id room.1 written]
  exact store_contents q id room.1 (room_free q room)

theorem store_tail_occupied (q : RingQueue) (room : q.HasRoom) (i : Nat) :
    (q.storeTail ((q.tail + 1) % q.capacity) (mod_in _ _ room.1)).Occupied i ↔ q.Occupied i ∨ i = q.tail := by
  have nonzero := room.1
  have free := room_free q room
  have headIn := q.headIn
  have tailIn := q.tailIn
  have next := wrap_index (q.tail + 1) q.capacity (by omega)
  rw [occupied_iff, occupied_iff]
  simp only [RingQueue.storeTail]
  split at next <;> omega

theorem store_head_contents (q : RingQueue) (nonzero : q.capacity ≠ 0) (differ : q.head ≠ q.tail) :
    q.contents = q.buffer.getD q.head usizeMax ::
      (q.storeHead ((q.head + 1) % q.capacity) (mod_in _ _ nonzero)).contents := contents_advance q nonzero differ

theorem store_head_occupied (q : RingQueue) (nonzero : q.capacity ≠ 0) (differ : q.head ≠ q.tail) (i : Nat) :
    (q.storeHead ((q.head + 1) % q.capacity) (mod_in _ _ nonzero)).Occupied i ↔ q.Occupied i ∧ i ≠ q.head := by
  have headIn := q.headIn
  have tailIn := q.tailIn
  have next := wrap_index (q.head + 1) q.capacity (by omega)
  rw [occupied_iff, occupied_iff]
  simp only [RingQueue.storeHead]
  split at next <;> omega

theorem store_head_room (q : RingQueue) (room : q.HasRoom) (differ : q.head ≠ q.tail) :
    (q.storeHead ((q.head + 1) % q.capacity) (mod_in _ _ room.1)).HasRoom := by
  refine ⟨room.1, fun full => ?_⟩
  have bound := len_bound q
  have lengths := congrArg List.length (store_head_contents q room.1 differ)
  have same : (q.storeHead ((q.head + 1) % q.capacity) (mod_in _ _ room.1)).capacity = q.capacity := rfl
  rw [List.length_cons, full, same, contents_length] at lengths
  omega

end Ners.Server
