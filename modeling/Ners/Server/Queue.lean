import Ners.Base.Machine

set_option autoImplicit false

namespace Ners.Server

-- ConnId(usize), an index into the slab.
abbrev ConnId := Nat

def usizeMax : Nat := 2 ^ 64 - 1

structure RingQueue where
  buffer : List Nat
  capacity : Nat
  head : Nat
  tail : Nat
  sized : buffer.length = capacity
  headIn : head ≤ capacity - 1
  tailIn : tail ≤ capacity - 1

def RingQueue.new (capacity : Nat) : RingQueue where
  buffer := List.replicate capacity usizeMax
  capacity := capacity
  head := 0
  tail := 0
  sized := List.length_replicate
  headIn := Nat.zero_le _
  tailIn := Nat.zero_le _

theorem mod_in (a capacity : Nat) (nonzero : capacity ≠ 0) : a % capacity ≤ capacity - 1 :=
  Nat.le_sub_one_of_lt (Nat.mod_lt a (Nat.pos_of_ne_zero nonzero))

-- The two stores of push: the cell at tail, then tail itself.
def RingQueue.store (q : RingQueue) (id : ConnId) (nonzero : q.capacity ≠ 0) : RingQueue :=
  { q with
    buffer := q.buffer.set q.tail id
    tail := (q.tail + 1) % q.capacity
    sized := List.length_set.trans q.sized
    tailIn := mod_in _ _ nonzero }

-- The store of pop to head.
def RingQueue.advance (q : RingQueue) (nonzero : q.capacity ≠ 0) : RingQueue :=
  { q with
    head := (q.head + 1) % q.capacity
    headIn := mod_in _ _ nonzero }

-- A queue without cells divides by zero before it can be full.
def RingQueue.push (q : RingQueue) (id : ConnId) : Except Fault (Except ConnId Unit × RingQueue) :=
  if nonzero : q.capacity = 0 then .error .panic
  else if (q.tail + 1) % q.capacity = q.head then .ok (.error id, q)
  else .ok (.ok (), q.store id nonzero)

theorem differ_nonzero (q : RingQueue) (differ : q.head ≠ q.tail) : q.capacity ≠ 0 := by
  have headIn := q.headIn
  have tailIn := q.tailIn
  omega

-- The cell at head is inside the buffer whenever head and tail differ, and the
-- divisor is not zero there.
def RingQueue.pop (q : RingQueue) : Option ConnId × RingQueue :=
  if differ : q.head = q.tail then (none, q)
  else
    let value := q.buffer.getD q.head usizeMax
    (if value = usizeMax then none else some value, q.advance (differ_nonzero q differ))

def RingQueue.len (q : RingQueue) : Nat :=
  if q.head ≤ q.tail then q.tail - q.head else q.capacity - q.head + q.tail

def RingQueue.isEmpty (q : RingQueue) : Bool := q.len = 0

def RingQueue.contents (q : RingQueue) : List ConnId :=
  (List.range q.len).map fun i => q.buffer.getD ((q.head + i) % q.capacity) usizeMax

theorem contents_length (q : RingQueue) : q.contents.length = q.len := by
  rw [RingQueue.contents, List.length_map, List.length_range]

theorem len_bound (q : RingQueue) : q.len ≤ q.capacity - 1 := by
  have headIn := q.headIn
  have tailIn := q.tailIn
  unfold RingQueue.len
  split <;> omega

theorem wrap_index (a capacity : Nat) (low : a < 2 * capacity) : a % capacity = if a < capacity then a else a - capacity := by
  by_cases small : a < capacity
  · rw [if_pos small, Nat.mod_eq_of_lt small]
  · rw [if_neg small, Nat.mod_eq_sub_mod (by omega), Nat.mod_eq_of_lt (by omega)]

theorem tail_index (q : RingQueue) (nonzero : q.capacity ≠ 0) : (q.head + q.len) % q.capacity = q.tail := by
  have headIn := q.headIn
  have tailIn := q.tailIn
  have bound := len_bound q
  rw [wrap_index _ _ (by omega)]
  unfold RingQueue.len at *
  split at bound <;> rename_i order
  · rw [if_pos order, if_pos (by omega)]
    omega
  · rw [if_neg order, if_neg (by omega)]
    omega

theorem full_iff (q : RingQueue) (nonzero : q.capacity ≠ 0) :
    (q.tail + 1) % q.capacity = q.head ↔ q.contents.length = q.capacity - 1 := by
  have headIn := q.headIn
  have tailIn := q.tailIn
  rw [contents_length, wrap_index _ _ (by omega)]
  unfold RingQueue.len
  split <;> split <;> omega

-- One cell stays empty, so that head and tail meet only in an empty queue.
def RingQueue.HasRoom (q : RingQueue) : Prop := q.capacity ≠ 0 ∧ q.contents.length ≠ q.capacity - 1

theorem push_panics (q : RingQueue) (id : ConnId) (zero : q.capacity = 0) : q.push id = .error .panic := dif_pos zero

theorem push_full (q : RingQueue) (id : ConnId) (nonzero : q.capacity ≠ 0) (full : q.contents.length = q.capacity - 1) :
    q.push id = .ok (.error id, q) := by
  rw [RingQueue.push, dif_neg nonzero, if_pos ((full_iff q nonzero).mpr full)]

theorem store_len (q : RingQueue) (id : ConnId) (nonzero : q.capacity ≠ 0) (free : (q.tail + 1) % q.capacity ≠ q.head) :
    (q.store id nonzero).len = q.len + 1 := by
  have headIn := q.headIn
  have tailIn := q.tailIn
  have next := wrap_index (q.tail + 1) q.capacity (by omega)
  simp only [RingQueue.len, RingQueue.store]
  grind

theorem advance_len (q : RingQueue) (nonzero : q.capacity ≠ 0) (differ : q.head ≠ q.tail) :
    (q.advance nonzero).len + 1 = q.len := by
  have headIn := q.headIn
  have tailIn := q.tailIn
  have next := wrap_index (q.head + 1) q.capacity (by omega)
  simp only [RingQueue.len, RingQueue.advance]
  grind

-- Cells in front of the new one are not the cell at tail.
theorem tail_apart (q : RingQueue) (nonzero : q.capacity ≠ 0) (i : Nat) (within : i < q.len) :
    q.tail ≠ (q.head + i) % q.capacity := by
  have headIn := q.headIn
  have bound := len_bound q
  have behind := tail_index q nonzero
  have here := wrap_index (q.head + i) q.capacity (by omega)
  have there := wrap_index (q.head + q.len) q.capacity (by omega)
  split at here <;> split at there <;> omega

theorem store_contents (q : RingQueue) (id : ConnId) (nonzero : q.capacity ≠ 0)
    (free : (q.tail + 1) % q.capacity ≠ q.head) : (q.store id nonzero).contents = q.contents ++ [id] := by
  have headIn := q.headIn
  have tailIn := q.tailIn
  have sized := q.sized
  have behind := tail_index q nonzero
  rw [RingQueue.contents, store_len q id nonzero free, List.range_succ, List.map_append, List.map_singleton, RingQueue.contents]
  simp only [RingQueue.store, behind]
  congr 1
  · apply List.map_congr_left
    intro i member
    have other := tail_apart q nonzero i (List.mem_range.mp member)
    rw [List.getD_eq_getElem?_getD, List.getD_eq_getElem?_getD, List.getElem?_set_ne other]
  · rw [List.getD_eq_getElem?_getD, List.getElem?_set_self (by omega)]
    rfl

theorem contents_advance (q : RingQueue) (nonzero : q.capacity ≠ 0) (differ : q.head ≠ q.tail) :
    q.contents = q.buffer.getD q.head usizeMax :: (q.advance nonzero).contents := by
  have headIn := q.headIn
  rw [RingQueue.contents, ← advance_len q nonzero differ, List.range_succ_eq_map, List.map_cons, List.map_map, Nat.add_zero,
    Nat.mod_eq_of_lt (show q.head < q.capacity by omega), RingQueue.contents]
  congr 1
  apply List.map_congr_left
  intro i _
  simp only [RingQueue.advance, Function.comp_apply, Nat.mod_add_mod]
  congr 2
  omega

theorem push_room (q : RingQueue) (id : ConnId) (nonzero : q.capacity ≠ 0) (room : q.contents.length ≠ q.capacity - 1) :
    ∃ q', q.push id = .ok (.ok (), q') ∧ q'.contents = q.contents ++ [id] ∧ q'.capacity = q.capacity := by
  have free : (q.tail + 1) % q.capacity ≠ q.head := fun full => room ((full_iff q nonzero).mp full)
  exact ⟨q.store id nonzero, by rw [RingQueue.push, dif_neg nonzero, if_neg free], store_contents q id nonzero free, rfl⟩

theorem push_cases (q : RingQueue) (id : ConnId) :
    (¬ q.HasRoom ∧ (q.push id = .error .panic ∨ q.push id = .ok (.error id, q))) ∨
      (q.HasRoom ∧ ∃ q', q.push id = .ok (.ok (), q') ∧ q'.contents = q.contents ++ [id]) := by
  by_cases zero : q.capacity = 0
  · exact .inl ⟨fun room => room.1 zero, .inl (push_panics q id zero)⟩
  · by_cases full : q.contents.length = q.capacity - 1
    · exact .inl ⟨fun room => room.2 full, .inr (push_full q id zero full)⟩
    · obtain ⟨q', pushed, contents, _⟩ := push_room q id zero full
      exact .inr ⟨⟨zero, full⟩, q', pushed, contents⟩

theorem push_panicked (q : RingQueue) (id : ConnId) (fault : Fault) (pushed : q.push id = .error fault) : ¬ q.HasRoom := by
  rcases push_cases q id with ⟨noRoom, _⟩ | ⟨_, q', stored, _⟩
  · exact noRoom
  · cases stored.symm.trans pushed

theorem push_returned (q q' : RingQueue) (id back : ConnId) (pushed : q.push id = .ok (.error back, q')) :
    ¬ q.HasRoom ∧ q' = q := by
  rcases push_cases q id with ⟨noRoom, panics | full⟩ | ⟨_, _, stored, _⟩
  · cases panics.symm.trans pushed
  · cases full.symm.trans pushed
    exact ⟨noRoom, rfl⟩
  · cases stored.symm.trans pushed

theorem push_stored (q q' : RingQueue) (id : ConnId) (pushed : q.push id = .ok (.ok (), q')) :
    q.HasRoom ∧ q'.contents = q.contents ++ [id] := by
  rcases push_cases q id with ⟨_, panics | full⟩ | ⟨room, _, stored, contents⟩
  · cases panics.symm.trans pushed
  · cases full.symm.trans pushed
  · cases stored.symm.trans pushed
    exact ⟨room, contents⟩

theorem pop_empty (q : RingQueue) (empty : q.contents = []) : q.pop = (none, q) := by
  by_cases same : q.head = q.tail
  · rw [RingQueue.pop, dif_pos same]
  · rw [contents_advance q (differ_nonzero q same) same] at empty
    cases empty

theorem pop_front (q : RingQueue) (id : ConnId) (rest : List ConnId) (front : q.contents = id :: rest) (real : id ≠ usizeMax) :
    ∃ q', q.pop = (some id, q') ∧ q'.contents = rest ∧ q'.capacity = q.capacity := by
  by_cases same : q.head = q.tail
  · have none : q.len = 0 := by rw [RingQueue.len, if_pos (by omega), same, Nat.sub_self]
    rw [← contents_length, front] at none
    cases none
  · have nonzero := differ_nonzero q same
    obtain ⟨value, later⟩ := List.cons.inj ((contents_advance q nonzero same).symm.trans front)
    exact ⟨q.advance nonzero, by simp only [RingQueue.pop, dif_neg same, value, if_neg real], later, rfl⟩

theorem popped_none (q q' : RingQueue) (real : ∀ id ∈ q.contents, id ≠ usizeMax) (popped : q.pop = (none, q')) :
    q.contents = [] ∧ q' = q := by
  cases contents : q.contents with
  | nil =>
      cases (pop_empty q contents).symm.trans popped
      exact ⟨rfl, rfl⟩
  | cons id rest =>
      obtain ⟨_, front, _⟩ := pop_front q id rest contents (real id (contents ▸ List.mem_cons_self))
      cases front.symm.trans popped

theorem popped_some (q q' : RingQueue) (id : ConnId) (real : ∀ id ∈ q.contents, id ≠ usizeMax) (popped : q.pop = (some id, q')) :
    q.contents = id :: q'.contents := by
  cases contents : q.contents with
  | nil => cases (pop_empty q contents).symm.trans popped
  | cons oldest rest =>
      obtain ⟨_, front, shorter, _⟩ := pop_front q oldest rest contents (real oldest (contents ▸ List.mem_cons_self))
      cases front.symm.trans popped
      rw [shorter]

end Ners.Server
