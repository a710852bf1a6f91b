import Ners.Server.Conn
import Mathlib.Data.UInt

set_option autoImplicit false

namespace Ners.Server

structure NumaInfo where
  numNodes : Nat
  coresPerNode : Nat
  totalCores : Nat
  coreToNode : List Nat
deriving DecidableEq

def NumaInfo.nodeForCore (numaInfo : NumaInfo) (coreId : Nat) : Nat := numaInfo.coreToNode[coreId]?.getD 0

-- The counter is an AtomicUsize and wraps. The top of the free list comes first.
structure SlabShard where
  coreId : Nat
  numaNode : Nat
  slots : List (Option ConnState)
  freeList : List Nat
  allocated : UInt64
  capacity : Nat
  sized : slots.length = capacity
  inRange : ∀ i ∈ freeList, i < capacity

def SlabShard.new (coreId numaNode capacity : Nat) : SlabShard where
  coreId := coreId
  numaNode := numaNode
  slots := List.replicate capacity none
  freeList := List.range capacity
  allocated := 0
  capacity := capacity
  sized := (ConnSlab.new capacity).sized
  inRange := (ConnSlab.new capacity).inRange

def SlabShard.allocate (shard : SlabShard) : Option (Nat × SlabShard) :=
  match free : shard.freeList with
  | [] => none
  | slotIdx :: rest =>
      some (slotIdx, { shard with
        freeList := rest
        allocated := shard.allocated + 1
        inRange := fun i member => shard.inRange i (free ▸ List.mem_cons_of_mem _ member) })

def SlabShard.deallocate (shard : SlabShard) (slotIdx : Nat) : SlabShard :=
  if within : slotIdx < shard.capacity then
    { shard with
      slots := shard.slots.set slotIdx none
      freeList := slotIdx :: shard.freeList
      allocated := shard.allocated - 1
      sized := List.length_set.trans shard.sized
      inRange := fun i member => (List.mem_cons.mp member).elim (fun same => same ▸ within) (shard.inRange i) }
  else shard

def SlabShard.insert (shard : SlabShard) (slotIdx : Nat) (conn : ConnState) : Bool × SlabShard :=
  if slotIdx < shard.capacity then
    (true, { shard with
      slots := shard.slots.set slotIdx (some conn)
      sized := List.length_set.trans shard.sized })
  else (false, shard)

def SlabShard.get (shard : SlabShard) (slotIdx : Nat) : Option ConnState := shard.slots[slotIdx]?.join

def SlabShard.len (shard : SlabShard) : Nat := shard.allocated.toNat

def SlabShard.isEmpty (shard : SlabShard) : Bool := shard.len = 0

structure ShardedSlabManager where
  shards : List SlabShard
  numShards : Nat
  numaInfo : NumaInfo
  capacityPerShard : Nat

def ShardedSlabManager.new (numaInfo : NumaInfo) (numShards capacityPerShard : Nat) : ShardedSlabManager where
  shards := (List.range numShards).map fun coreId => .new coreId (numaInfo.nodeForCore coreId) capacityPerShard
  numShards := numShards
  numaInfo := numaInfo
  capacityPerShard := capacityPerShard

def ShardedSlabManager.allocate (m : ShardedSlabManager) (coreId : Nat) (conn : ConnState) :
    Option (Nat × Nat) × ShardedSlabManager :=
  match m.shards[coreId]? with
  | none => (none, m)
  | some shard =>
      match shard.allocate with
      | none => (none, m)
      | some (slotIdx, shard) =>
          (some (coreId, slotIdx), { m with shards := m.shards.set coreId (shard.insert slotIdx conn).2 })

def ShardedSlabManager.deallocate (m : ShardedSlabManager) (coreId slotIdx : Nat) : ShardedSlabManager :=
  match m.shards[coreId]? with
  | none => m
  | some shard => { m with shards := m.shards.set coreId (shard.deallocate slotIdx) }

def ShardedSlabManager.get (m : ShardedSlabManager) (coreId slotIdx : Nat) : Option ConnState :=
  m.shards[coreId]?.bind fun shard => shard.get slotIdx

def ShardedSlabManager.totalAllocated (m : ShardedSlabManager) : Nat := (m.shards.map SlabShard.allocated).sum.toNat

-- A shard is a connection slab with a counter beside it.
def SlabShard.slab (shard : SlabShard) : ConnSlab := ⟨shard.slots, shard.freeList, shard.capacity, shard.sized, shard.inRange⟩

theorem shard_new_slab (coreId numaNode capacity : Nat) : (SlabShard.new coreId numaNode capacity).slab = .new capacity := rfl

theorem shard_get (shard : SlabShard) (slotIdx : Nat) : shard.get slotIdx = shard.slab.get slotIdx := rfl

theorem deallocate_slab (shard : SlabShard) (slotIdx : Nat) : (shard.deallocate slotIdx).slab = shard.slab.remove slotIdx := by
  by_cases within : slotIdx < shard.capacity
  · have inside : slotIdx < shard.slab.capacity := within
    rw [SlabShard.deallocate, dif_pos within, ConnSlab.remove, dif_pos inside]
    rfl
  · have outside : ¬ slotIdx < shard.slab.capacity := within
    rw [SlabShard.deallocate, dif_neg within, ConnSlab.remove, dif_neg outside]

theorem deallocate_count (shard : SlabShard) (slotIdx : Nat) :
    (shard.deallocate slotIdx).allocated = if slotIdx < shard.capacity then shard.allocated - 1 else shard.allocated := by
  unfold SlabShard.deallocate
  split <;> rfl

theorem allocate_none (shard : SlabShard) (conn : ConnState) (full : shard.freeList = []) :
    shard.allocate = none ∧ shard.slab.insert conn = (none, shard.slab) := by
  refine ⟨?_, insert_full shard.slab conn full⟩
  unfold SlabShard.allocate
  split
  · rfl
  · rename_i list
    rw [full] at list
    cases list

-- allocate and then insert are one insert of the slab, and count it.
theorem allocate_some (shard : SlabShard) (conn : ConnState) (idx : Nat) (rest : List Nat) (free : shard.freeList = idx :: rest) :
    ∃ taken, shard.allocate = some (idx, taken) ∧ shard.slab.insert conn = (some idx, (taken.insert idx conn).2.slab) ∧
      (taken.insert idx conn).2.allocated = shard.allocated + 1 ∧ (taken.insert idx conn).2.freeList = rest := by
  have within : idx < shard.capacity := shard.inRange idx (free ▸ List.mem_cons_self)
  have allocated : shard.allocate = some (idx, { shard with
      freeList := rest
      allocated := shard.allocated + 1
      inRange := fun i member => shard.inRange i (free ▸ List.mem_cons_of_mem _ member) }) := by
    unfold SlabShard.allocate
    split
    · rename_i list
      rw [free] at list
      cases list
    · rename_i list
      obtain ⟨rfl, rfl⟩ := List.cons.inj (free.symm.trans list)
      rfl
  refine ⟨_, allocated, ?_, ?_, ?_⟩
  · unfold ConnSlab.insert
    split
    · rename_i list
      have empty : shard.freeList = [] := list
      rw [free] at empty
      cases empty
    · rename_i list
      obtain ⟨rfl, rfl⟩ := List.cons.inj (free.symm.trans list)
      simp only [SlabShard.insert, if_pos within]
      rfl
  · simp only [SlabShard.insert, if_pos within]
  · simp only [SlabShard.insert, if_pos within]

end Ners.Server
