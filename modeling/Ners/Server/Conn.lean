import Ners.Server.Queue

set_option autoImplicit false

namespace Ners.Server

-- A TcpStream, numbered in the order in which the accept loop takes them up.
abbrev Socket := Nat

inductive ConnLifecycle where
  | waitingForRequest
  | parsing
  | routed
  | processing
  | sending
  | closed
deriving DecidableEq

-- RouteId(usize)
abbrev RouteId := Nat

structure ConnState where
  readBuf : Bytes
  writeBuf : Bytes
  state : ConnLifecycle
  routeId : Option RouteId
  requestMethod : Option String
  requestPath : Option String
  stream : Option Socket
  bytesWritten : Nat
deriving DecidableEq

def ConnState.new (stream : Socket) : ConnState := ⟨[], [], .waitingForRequest, none, none, none, some stream, 0⟩

-- The free list is a stack whose top, the end of the Vec, comes first here.
structure ConnSlab where
  slots : List (Option ConnState)
  freeList : List Nat
  capacity : Nat
  sized : slots.length = capacity
  inRange : ∀ i ∈ freeList, i < capacity

def ConnSlab.new (capacity : Nat) : ConnSlab where
  slots := List.replicate capacity none
  freeList := List.range capacity
  capacity := capacity
  sized := List.length_replicate
  inRange := fun _ member => List.mem_range.mp member

def ConnSlab.put (slab : ConnSlab) (id : ConnId) (slot : Option ConnState) : ConnSlab :=
  { slab with
    slots := slab.slots.set id slot
    sized := List.length_set.trans slab.sized }

def ConnSlab.insert (slab : ConnSlab) (conn : ConnState) : Option ConnId × ConnSlab :=
  match free : slab.freeList with
  | [] => (none, slab)
  | idx :: rest =>
      (some idx, { slab.put idx (some conn) with
        freeList := rest
        inRange := fun i member => slab.inRange i (free ▸ List.mem_cons_of_mem _ member) })

def ConnSlab.get (slab : ConnSlab) (id : ConnId) : Option ConnState := slab.slots[id]?.join

-- The occupant is reset and dropped, which closes its stream.
def ConnSlab.remove (slab : ConnSlab) (id : ConnId) : ConnSlab :=
  if within : id < slab.capacity then
    { slab.put id none with
      freeList := id :: slab.freeList
      inRange := fun i member => (List.mem_cons.mp member).elim (fun same => same ▸ within) (slab.inRange i) }
  else slab

def ConnSlab.activeCount (slab : ConnSlab) : Nat := slab.capacity - slab.freeList.length

theorem get_within (slab : ConnSlab) (id : ConnId) (conn : ConnState) (found : slab.get id = some conn) :
    id < slab.capacity := by
  rw [← slab.sized]
  cases access : slab.slots[id]? with
  | none => simp [ConnSlab.get, access] at found
  | some slot => exact (List.getElem?_eq_some_iff.mp access).1

theorem put_get_same (slab : ConnSlab) (id : ConnId) (slot : Option ConnState) (within : id < slab.capacity) :
    (slab.put id slot).get id = slot := by
  simp only [ConnSlab.get, ConnSlab.put, List.getElem?_set_self (slab.sized.symm ▸ within), Option.join_some]

theorem put_get_other (slab : ConnSlab) (id other : ConnId) (slot : Option ConnState) (differ : other ≠ id) :
    (slab.put id slot).get other = slab.get other := by
  simp only [ConnSlab.get, ConnSlab.put, List.getElem?_set_ne (Ne.symm differ)]

structure ConnSlab.Exact (slab : ConnSlab) : Prop where
  distinct : slab.freeList.Nodup
  free : ∀ i, i < slab.capacity → (i ∈ slab.freeList ↔ slab.get i = none)

theorem free_iff_empty (slab : ConnSlab) (whole : slab.Exact) (i : Nat) :
    i ∈ slab.freeList ↔ slab.slots[i]? = some none := by
  by_cases within : i < slab.capacity
  · have inside : i < slab.slots.length := slab.sized.symm ▸ within
    rw [whole.free i within, ConnSlab.get, List.getElem?_eq_getElem inside, Option.join_some, Option.some.injEq]
  · have outside : slab.slots[i]? = none := List.getElem?_eq_none (Nat.le_of_not_lt (slab.sized.symm ▸ within))
    rw [outside]
    exact iff_of_false (fun listed => within (slab.inRange i listed)) (by simp)

theorem new_get (capacity : Nat) (id : ConnId) : (ConnSlab.new capacity).get id = none := by
  simp only [ConnSlab.get, ConnSlab.new, List.getElem?_replicate]
  split <;> rfl

theorem new_exact (capacity : Nat) : (ConnSlab.new capacity).Exact :=
  ⟨List.nodup_range, fun i within => ⟨fun _ => new_get capacity i, fun _ => List.mem_range.mpr within⟩⟩

theorem put_exact (slab : ConnSlab) (id : ConnId) (old new : ConnState) (found : slab.get id = some old) (whole : slab.Exact) :
    (slab.put id (some new)).Exact := by
  refine ⟨whole.distinct, ?_⟩
  intro i within
  by_cases same : i = id
  · subst same
    rw [put_get_same slab i _ within]
    exact (whole.free i within).trans (by rw [found]; simp)
  · rw [put_get_other slab id i _ same]
    exact whole.free i within

theorem remove_get_same (slab : ConnSlab) (id : ConnId) (within : id < slab.capacity) : (slab.remove id).get id = none := by
  rw [ConnSlab.remove, dif_pos within]
  exact put_get_same slab id none within

theorem remove_get_other (slab : ConnSlab) (id other : ConnId) (differ : other ≠ id) :
    (slab.remove id).get other = slab.get other := by
  by_cases within : id < slab.capacity
  · rw [ConnSlab.remove, dif_pos within]
    exact put_get_other slab id other none differ
  · rw [ConnSlab.remove, dif_neg within]

@[simp] theorem remove_capacity (slab : ConnSlab) (id : ConnId) : (slab.remove id).capacity = slab.capacity := by
  unfold ConnSlab.remove
  split <;> rfl

theorem remove_exact (slab : ConnSlab) (id : ConnId) (conn : ConnState) (found : slab.get id = some conn)
    (whole : slab.Exact) : (slab.remove id).Exact := by
  have within := get_within slab id conn found
  have occupied : id ∉ slab.freeList := by
    intro listed
    rw [(whole.free id within).mp listed] at found
    cases found
  have list : (slab.remove id).freeList = id :: slab.freeList := by rw [ConnSlab.remove, dif_pos within]
  refine ⟨list ▸ List.nodup_cons.mpr ⟨occupied, whole.distinct⟩, ?_⟩
  intro i inside
  rw [remove_capacity] at inside
  rw [list]
  by_cases same : i = id
  · subst same
    simp [remove_get_same slab i within]
  · rw [remove_get_other slab id i same, List.mem_cons]
    exact ⟨fun listed => (whole.free i inside).mp (listed.resolve_left same), fun empty => .inr ((whole.free i inside).mpr empty)⟩

theorem insert_full (slab : ConnSlab) (conn : ConnState) (full : slab.freeList = []) : slab.insert conn = (none, slab) := by
  unfold ConnSlab.insert
  split
  · rfl
  · rename_i list
    rw [full] at list
    cases list

theorem insert_none (slab slab' : ConnSlab) (conn : ConnState) (inserted : slab.insert conn = (none, slab')) : slab' = slab := by
  unfold ConnSlab.insert at inserted
  split at inserted
  · exact (Prod.mk.inj inserted).2.symm
  · simp at inserted

-- The slot comes off the top of the free list.
theorem insert_some (slab slab' : ConnSlab) (conn : ConnState) (id : ConnId) (inserted : slab.insert conn = (some id, slab')) :
    slab.freeList = id :: slab'.freeList ∧ slab'.capacity = slab.capacity ∧ slab'.slots = slab.slots.set id (some conn) := by
  unfold ConnSlab.insert at inserted
  split at inserted
  · cases inserted
  · rename_i top rest free
    obtain ⟨same, rfl⟩ := Prod.mk.inj inserted
    obtain rfl := Option.some.inj same
    exact ⟨free, rfl, rfl⟩

theorem insert_free (slab : ConnSlab) (conn : ConnState) (idx : Nat) (rest : List Nat) (free : slab.freeList = idx :: rest)
    (whole : slab.Exact) :
    ∃ slab', slab.insert conn = (some idx, slab') ∧ slab'.capacity = slab.capacity ∧ slab'.Exact ∧
      slab.get idx = none ∧ slab'.get idx = some conn ∧ ∀ other, other ≠ idx → slab'.get other = slab.get other := by
  have within := slab.inRange idx (free ▸ List.mem_cons_self)
  have empty := (whole.free idx within).mp (free ▸ List.mem_cons_self)
  have distinct := whole.distinct
  rw [free, List.nodup_cons] at distinct
  have inserted : slab.insert conn = (some idx, { slab.put idx (some conn) with
      freeList := rest
      inRange := fun i member => slab.inRange i (free ▸ List.mem_cons_of_mem _ member) }) := by
    unfold ConnSlab.insert
    split
    · rename_i list
      rw [free] at list
      cases list
    · rename_i top later list
      obtain ⟨rfl, rfl⟩ := List.cons.inj (free.symm.trans list)
      rfl
  refine ⟨_, inserted, rfl, ⟨distinct.2, ?_⟩, empty, put_get_same slab idx _ within,
    fun other differ => put_get_other slab idx other _ differ⟩
  intro i inside
  by_cases same : i = idx
  · subst same
    have occupied := put_get_same slab i (some conn) within
    exact ⟨fun listed => absurd listed distinct.1, fun none => by cases occupied.symm.trans none⟩
  · have before := whole.free i inside
    rw [free, List.mem_cons, or_iff_right same] at before
    exact before.trans (by rw [← put_get_other slab idx i (some conn) same]; rfl)

theorem insert_issues (slab slab' : ConnSlab) (conn : ConnState) (id : ConnId) (whole : slab.Exact)
    (inserted : slab.insert conn = (some id, slab')) :
    slab'.capacity = slab.capacity ∧ slab'.Exact ∧ slab.get id = none ∧ slab'.get id = some conn ∧
      ∀ other, other ≠ id → slab'.get other = slab.get other := by
  cases free : slab.freeList with
  | nil =>
      rw [insert_full slab conn free] at inserted
      cases inserted
  | cons idx rest =>
      obtain ⟨after, result, facts⟩ := insert_free slab conn idx rest free whole
      obtain ⟨same, rfl⟩ := Prod.mk.inj (result.symm.trans inserted)
      obtain rfl := Option.some.inj same
      exact facts

end Ners.Server
