import Ners.Base.Leveling
import Ners.Base.Unsigned
import Ners.Server.ShardRuns

set_option autoImplicit false

namespace Ners.Server

open Leveling
open Unsigned

-- min_by_key keeps the first of equal shards.
def ShardedSlabManager.leastLoadedCore (m : ShardedSlabManager) : Nat := (leastIndex SlabShard.len m.shards).getD 0

def ShardedSlabManager.place (m : ShardedSlabManager) (conn : ConnState) : Option Handle × ShardedSlabManager :=
  m.allocate m.leastLoadedCore conn

def ShardedSlabManager.placeAll (m : ShardedSlabManager) : List ConnState → List (Option Handle) × ShardedSlabManager
  | [] => ([], m)
  | conn :: later =>
      let (answer, m) := m.place conn
      let (answers, m) := m.placeAll later
      (answer :: answers, m)

structure Spread (numShards capacityPerShard : Nat) (answers : List (Option Handle)) (m : ShardedSlabManager) : Prop where
  number : m.shards.length = numShards
  level : ∀ a ∈ m.shards, ∀ b ∈ m.shards, a.len ≤ b.len + 1
  distinct : (answers.filterMap id).Nodup
  exhausted : ∀ i answer, answers[i]? = some answer → (answer = none ↔ numShards * capacityPerShard ≤ i)

-- A shard that only allocates hands its slots out in order.
structure SlabShard.Filled (shard : SlabShard) (capacity : Nat) : Prop where
  same : shard.capacity = capacity
  bound : shard.len ≤ capacity
  free : shard.freeList = (List.range capacity).drop shard.len

structure Filling (numShards capacityPerShard : Nat) (answers : List (Option Handle)) (m : ShardedSlabManager) : Prop where
  number : m.shards.length = numShards
  filled : ∀ shard ∈ m.shards, shard.Filled capacityPerShard
  level : Level SlabShard.len m.shards
  total : (m.shards.map SlabShard.len).sum = min answers.length (numShards * capacityPerShard)
  handed : ∀ handle, some handle ∈ answers → ∃ shard, m.shards[handle.1]? = some shard ∧ handle.2 < shard.len
  distinct : (answers.filterMap id).Nodup
  exhausted : ∀ i answer, answers[i]? = some answer → (answer = none ↔ numShards * capacityPerShard ≤ i)

theorem filled_full (shard : SlabShard) (capacity : Nat) (filled : shard.Filled capacity) (full : ¬ shard.len < capacity) :
    shard.len = capacity ∧ shard.freeList = [] := by
  have bound := filled.bound
  refine ⟨by omega, ?_⟩
  rw [filled.free, List.drop_eq_nil_iff, List.length_range]
  omega

theorem filled_allocate (shard : SlabShard) (capacity : Nat) (conn : ConnState) (word : capacity < 2 ^ 64)
    (filled : shard.Filled capacity) (room : shard.len < capacity) :
    ∃ taken, shard.allocate = some (shard.len, taken) ∧ (taken.insert shard.len conn).2.len = shard.len + 1 ∧
      (taken.insert shard.len conn).2.Filled capacity := by
  have free : shard.freeList = shard.len :: (List.range capacity).drop (shard.len + 1) := by
    rw [filled.free, List.drop_eq_getElem_cons (by rw [List.length_range]; exact room), List.getElem_range]
  obtain ⟨taken, allocated, inserted, count, list⟩ := allocate_some shard conn _ _ free
  have more : (taken.insert shard.len conn).2.len = shard.len + 1 := by
    have small : shard.allocated.toNat < capacity := room
    rw [SlabShard.len, count, inc_exact _ (by omega)]
    rfl
  refine ⟨taken, allocated, more, (insert_some _ _ conn _ inserted).2.1.trans filled.same, by omega, ?_⟩
  rw [list, more]

theorem new_filling (numaInfo : NumaInfo) (numShards capacityPerShard : Nat) :
    Filling numShards capacityPerShard [] (.new numaInfo numShards capacityPerShard) := by
  have each (shard : SlabShard) (member : shard ∈ (ShardedSlabManager.new numaInfo numShards capacityPerShard).shards) :
      shard.Filled capacityPerShard ∧ shard.len = 0 := by
    obtain ⟨coreId, _, rfl⟩ := List.mem_map.mp member
    exact ⟨⟨rfl, Nat.zero_le _, rfl⟩, rfl⟩
  refine ⟨?_, fun shard member => (each shard member).1, fun a here b there => ?_, ?_, fun handle none => ?_, List.nodup_nil, ?_⟩
  · rw [ShardedSlabManager.new, List.length_map, List.length_range]
  · rw [(each a here).2, (each b there).2]
    decide
  · rw [List.length_nil, Nat.zero_min, List.sum_eq_zero_iff]
    intro n member
    obtain ⟨shard, there, rfl⟩ := List.mem_map.mp member
    exact (each shard there).2
  · cases none
  · intro i answer none
    cases none

theorem answer_snoc (answers : List (Option Handle)) (last : Option Handle) (bound : Nat)
    (exhausted : ∀ i answer, answers[i]? = some answer → (answer = none ↔ bound ≤ i)) (late : last = none ↔ bound ≤ answers.length)
    (i : Nat) (answer : Option Handle) (there : (answers ++ [last])[i]? = some answer) : answer = none ↔ bound ≤ i := by
  rcases Nat.lt_trichotomy i answers.length with earlier | rfl | beyond
  · rw [List.getElem?_append_left earlier] at there
    exact exhausted i answer there
  · rw [List.getElem?_concat_length] at there
    exact Option.some.inj there ▸ late
  · rw [List.getElem?_eq_none (by rw [List.length_append, List.length_singleton]; omega)] at there
    cases there

theorem refused_filling (numShards capacityPerShard : Nat) (answers : List (Option Handle)) (m : ShardedSlabManager)
    (filling : Filling numShards capacityPerShard answers m)
    (full : (m.shards.map SlabShard.len).sum = numShards * capacityPerShard) :
    Filling numShards capacityPerShard (answers ++ [none]) m := by
  have total := filling.total
  refine ⟨filling.number, filling.filled, filling.level, ?_, fun handle member => ?_, ?_, ?_⟩
  · rw [List.length_append, List.length_singleton]
    omega
  · rw [List.mem_append, List.mem_singleton] at member
    exact filling.handed handle (member.resolve_right nofun)
  · rw [List.filterMap_append]
    simpa using filling.distinct
  · exact answer_snoc answers none _ filling.exhausted (iff_of_true rfl (by omega))

theorem handed_filling (numShards capacityPerShard : Nat) (answers : List (Option Handle)) (m : ShardedSlabManager) (coreId : Nat)
    (shard after : SlabShard) (filling : Filling numShards capacityPerShard answers m) (found : m.shards[coreId]? = some shard)
    (least : ∀ other ∈ m.shards, shard.len ≤ other.len) (room : shard.len < capacityPerShard) (more : after.len = shard.len + 1)
    (filled : after.Filled capacityPerShard) :
    Filling numShards capacityPerShard (answers ++ [some (coreId, shard.len)]) { m with shards := m.shards.set coreId after } := by
  have inside := (List.getElem?_eq_some_iff.mp found).1
  have total := filling.total
  have below := partial_sum m.shards shard capacityPerShard (List.mem_of_getElem? found) room
    fun other member => (filling.filled other member).bound
  rw [filling.number] at below
  refine ⟨?_, fun other member => ?_, raise_level m.shards coreId shard after found least more filling.level, ?_,
    fun handle member => ?_, ?_, ?_⟩
  · rw [List.length_set]
    exact filling.number
  · rcases List.mem_or_eq_of_mem_set member with old | rfl
    · exact filling.filled other old
    · exact filled
  · rw [raise_sum m.shards coreId shard after found more, List.length_append, List.length_singleton]
    omega
  · rw [List.mem_append, List.mem_singleton] at member
    rcases member with old | new
    · obtain ⟨other, there, slot⟩ := filling.handed handle old
      by_cases mine : handle.1 = coreId
      · rw [mine] at there ⊢
        obtain rfl := Option.some.inj (found.symm.trans there)
        exact ⟨after, List.getElem?_set_self inside, by omega⟩
      · exact ⟨other, (List.getElem?_set_ne (Ne.symm mine)).trans there, slot⟩
    · obtain rfl := Option.some.inj new
      exact ⟨after, List.getElem?_set_self inside, by omega⟩
  · -- A handle that was there before lies below the length of its shard.
    rw [List.filterMap_append, List.nodup_append]
    refine ⟨filling.distinct, List.nodup_singleton _, fun handle old other new same => ?_⟩
    obtain ⟨_, member, rfl⟩ := List.mem_filterMap.mp old
    obtain rfl := List.mem_singleton.mp new
    subst same
    obtain ⟨also, there, slot⟩ := filling.handed _ member
    obtain rfl := Option.some.inj (found.symm.trans there)
    exact Nat.lt_irrefl _ slot
  · exact answer_snoc answers _ _ filling.exhausted (iff_of_false nofun (by omega))

theorem place_filling (numShards capacityPerShard : Nat) (word : capacityPerShard < 2 ^ 64) (answers : List (Option Handle))
    (m : ShardedSlabManager) (conn : ConnState) (filling : Filling numShards capacityPerShard answers m) :
    Filling numShards capacityPerShard (answers ++ [(m.place conn).1]) (m.place conn).2 := by
  cases choice : leastIndex SlabShard.len m.shards with
  | none =>
      have empty := least_index_none SlabShard.len m.shards choice
      have shardless : numShards = 0 := by rw [← filling.number, empty, List.length_nil]
      have refused : m.place conn = (none, m) := by
        rw [ShardedSlabManager.place, ShardedSlabManager.allocate, empty, List.getElem?_nil]
      rw [refused]
      exact refused_filling _ _ answers m filling (by rw [empty, shardless, Nat.zero_mul]; rfl)
  | some coreId =>
      have core : m.leastLoadedCore = coreId := by rw [ShardedSlabManager.leastLoadedCore, choice, Option.getD_some]
      obtain ⟨shard, found, least⟩ := least_index SlabShard.len m.shards coreId choice
      have filled := filling.filled shard (List.mem_of_getElem? found)
      rw [ShardedSlabManager.place, core]
      by_cases room : shard.len < capacityPerShard
      · obtain ⟨taken, allocated, more, after⟩ := filled_allocate shard capacityPerShard conn word filled room
        simp only [ShardedSlabManager.allocate, found, allocated]
        exact handed_filling _ _ answers m coreId shard _ filling found least room more after
      · obtain ⟨full, empty⟩ := filled_full shard capacityPerShard filled room
        simp only [ShardedSlabManager.allocate, found, (allocate_none shard conn empty).1]
        refine refused_filling _ _ answers m filling ?_
        rw [← filling.number]
        exact full_sum m.shards shard capacityPerShard least full fun other member => (filling.filled other member).bound

theorem place_all_filling (numShards capacityPerShard : Nat) (word : capacityPerShard < 2 ^ 64) (answers : List (Option Handle))
    (m : ShardedSlabManager) (conns : List ConnState) (filling : Filling numShards capacityPerShard answers m) :
    Filling numShards capacityPerShard (answers ++ (m.placeAll conns).1) (m.placeAll conns).2 := by
  induction conns generalizing answers m with
  | nil =>
      rw [ShardedSlabManager.placeAll, List.append_nil]
      exact filling
  | cons conn later ih =>
      have onward := ih _ _ (place_filling numShards capacityPerShard word answers m conn filling)
      rw [List.append_assoc, List.singleton_append] at onward
      exact onward

-- capacityPerShard is a usize. A run that stops earlier is a run of fewer connections.
theorem least_loaded_spread (numaInfo : NumaInfo) (numShards : Nat) (capacityPerShard : UInt64) (conns : List ConnState) :
    Spread numShards capacityPerShard.toNat
      ((ShardedSlabManager.new numaInfo numShards capacityPerShard.toNat).placeAll conns).1
      ((ShardedSlabManager.new numaInfo numShards capacityPerShard.toNat).placeAll conns).2 := by
  have filling := place_all_filling numShards capacityPerShard.toNat capacityPerShard.toNat_lt [] _ conns
    (new_filling numaInfo numShards capacityPerShard.toNat)
  rw [List.nil_append] at filling
  exact ⟨filling.number, filling.level, filling.distinct, filling.exhausted⟩

end Ners.Server
