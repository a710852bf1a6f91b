import Mathlib.Algebra.Order.BigOperators.Group.List
import Mathlib.Algebra.Order.Group.Nat
import Ners.Base.Runs
import Ners.Base.Unsigned
import Ners.Server.Shard
import Ners.Server.SlabRuns

set_option autoImplicit false

namespace Ners.Server

open Runs (Reached Taken carried carried_snoc each_kept_iff execute)
open Unsigned

-- A core and a slot of its shard.
abbrev Handle := Nat × Nat

-- The slots of all shards are in memory at once, each under its own address.
structure ShardSizes where
  numShards : Nat
  capacityPerShard : Nat
  word : numShards * capacityPerShard < 2 ^ 64

inductive ShardCall where
  | allocate (coreId : Nat) (conn : ConnState)
  | deallocate (coreId slotIdx : Nat)

def ShardedSlabManager.step (m : ShardedSlabManager) : ShardCall → Option ShardedSlabManager
  | .allocate coreId conn => some (m.allocate coreId conn).2
  | .deallocate coreId slotIdx => some (m.deallocate coreId slotIdx)

-- The handles returned and not yet deallocated, each with its connection.
def ShardedSlabManager.handOut (m : ShardedSlabManager) (call : ShardCall) (live : List (Handle × ConnState)) :
    List (Handle × ConnState) :=
  match call with
  | .allocate coreId conn =>
      match (m.allocate coreId conn).1 with
      | some handle => (handle, conn) :: live
      | none => live
  | .deallocate coreId slotIdx => live.filter fun held => held.1 ≠ (coreId, slotIdx)

def liveHandles (numaInfo : NumaInfo) (sizes : ShardSizes) (history : List ShardCall) : List (Handle × ConnState) :=
  carried ShardedSlabManager.step ShardedSlabManager.handOut (.new numaInfo sizes.numShards sizes.capacityPerShard) [] history

def liveOn (coreId : Nat) (live : List (Handle × ConnState)) : Nat := live.countP fun held => held.1.1 = coreId

structure Unaliased (live : List (Handle × ConnState)) (m : ShardedSlabManager) : Prop where
  distinct : (live.map Prod.fst).Nodup
  stored : ∀ handle conn, (handle, conn) ∈ live → m.get handle.1 handle.2 = some conn
  counted : ∀ (coreId : Nat) shard, m.shards[coreId]? = some shard →
    shard.len = liveOn coreId live ∧ shard.len ≤ shard.capacity
  total : m.totalAllocated = (m.shards.map SlabShard.len).sum

-- A call that counts a shard down finds it above zero.
def ShardedSlabManager.Unwrapped (m : ShardedSlabManager) : ShardCall → Prop
  | .allocate _ _ => True
  | .deallocate coreId slotIdx => ∀ shard, m.shards[coreId]? = some shard → slotIdx < shard.capacity → 0 < shard.len

def ShardedSlabManager.Frees (m : ShardedSlabManager) : ShardCall → Prop
  | .allocate _ _ => True
  | .deallocate coreId slotIdx => ∀ shard, m.shards[coreId]? = some shard → slotIdx < shard.capacity → shard.get slotIdx ≠ none

structure Tallied (sizes : ShardSizes) (live : List (Handle × ConnState)) (m : ShardedSlabManager) : Prop where
  number : m.shards.length = sizes.numShards
  capacity : ∀ shard ∈ m.shards, shard.capacity = sizes.capacityPerShard
  slabs : ∀ shard ∈ m.shards, shard.slab.InStep ∧ shard.len = shard.slab.activeCount
  counted : ∀ (coreId : Nat) shard, m.shards[coreId]? = some shard → shard.len = liveOn coreId live
  listed : ∀ handle conn, (handle, conn) ∈ live ↔ m.get handle.1 handle.2 = some conn
  distinct : (live.map Prod.fst).Nodup

theorem live_handles_snoc (numaInfo : NumaInfo) (sizes : ShardSizes) (before : List ShardCall) (m : ShardedSlabManager)
    (call : ShardCall)
    (reached : execute ShardedSlabManager.step (.new numaInfo sizes.numShards sizes.capacityPerShard) before = some m) :
    liveHandles numaInfo sizes (before ++ [call]) = m.handOut call (liveHandles numaInfo sizes before) :=
  carried_snoc _ _ m [] before call reached

theorem shard_word (sizes : ShardSizes) (live : List (Handle × ConnState)) (m : ShardedSlabManager) (tallied : Tallied sizes live m)
    (shard : SlabShard) (member : shard ∈ m.shards) : shard.capacity < 2 ^ 64 := by
  have some : 0 < m.shards.length := List.length_pos_of_mem member
  rw [tallied.capacity shard member]
  rw [tallied.number] at some
  exact Nat.lt_of_le_of_lt (Nat.le_mul_of_pos_left _ some) sizes.word

theorem shard_len_bound (shard : SlabShard) (active : shard.len = shard.slab.activeCount) : shard.len ≤ shard.capacity := by
  rw [active]
  exact Nat.sub_le _ _

theorem tallied_total (sizes : ShardSizes) (live : List (Handle × ConnState)) (m : ShardedSlabManager)
    (tallied : Tallied sizes live m) : m.totalAllocated = (m.shards.map SlabShard.len).sum := by
  have bound : (m.shards.map SlabShard.len).sum ≤ m.shards.length * sizes.capacityPerShard := by
    refine (List.sum_le_card_nsmul _ sizes.capacityPerShard ?_).trans ?_
    · intro n member
      obtain ⟨shard, there, rfl⟩ := List.mem_map.mp member
      rw [← tallied.capacity shard there]
      exact shard_len_bound shard (tallied.slabs shard there).2
    · rw [List.length_map]
      exact Nat.le_refl _
  have word := sizes.word
  rw [tallied.number] at bound
  have lens : (m.shards.map SlabShard.allocated).map UInt64.toNat = m.shards.map SlabShard.len := List.map_map
  rw [ShardedSlabManager.totalAllocated, sum_exact, lens]
  rw [lens]
  omega

theorem tallied_unaliased (sizes : ShardSizes) (live : List (Handle × ConnState)) (m : ShardedSlabManager)
    (tallied : Tallied sizes live m) : Unaliased live m := by
  refine ⟨tallied.distinct, fun handle conn held => (tallied.listed handle conn).mp held, fun coreId shard found => ?_,
    tallied_total sizes live m tallied⟩
  have member := List.mem_of_getElem? found
  exact ⟨tallied.counted coreId shard found, shard_len_bound shard (tallied.slabs shard member).2⟩

theorem new_tallied (numaInfo : NumaInfo) (sizes : ShardSizes) :
    Tallied sizes [] (.new numaInfo sizes.numShards sizes.capacityPerShard) := by
  have fresh (shard : SlabShard) (member : shard ∈ (ShardedSlabManager.new numaInfo sizes.numShards sizes.capacityPerShard).shards) :
      ∃ coreId numaNode, shard = .new coreId numaNode sizes.capacityPerShard := by
    obtain ⟨coreId, _, rfl⟩ := List.mem_map.mp member
    exact ⟨_, _, rfl⟩
  refine ⟨?_, fun shard member => ?_, fun shard member => ?_, fun coreId shard found => ?_, fun handle conn => ?_, List.nodup_nil⟩
  · rw [ShardedSlabManager.new, List.length_map, List.length_range]
  · obtain ⟨_, _, rfl⟩ := fresh shard member
    rfl
  · obtain ⟨_, _, rfl⟩ := fresh shard member
    refine ⟨new_in_step _, ?_⟩
    have all := List.length_range (n := sizes.capacityPerShard)
    rw [shard_new_slab, ConnSlab.activeCount]
    exact (Nat.sub_eq_zero_of_le all.ge).symm
  · obtain ⟨_, _, rfl⟩ := fresh shard (List.mem_of_getElem? found)
    rfl
  · refine iff_of_false (fun held => by cases held) fun found => ?_
    rw [ShardedSlabManager.get, Option.bind_eq_some_iff] at found
    obtain ⟨shard, there, occupied⟩ := found
    obtain ⟨_, _, rfl⟩ := fresh shard (List.mem_of_getElem? there)
    rw [shard_get, shard_new_slab, new_get] at occupied
    cases occupied

theorem get_replaced (m : ShardedSlabManager) (coreId : Nat) (old new : SlabShard) (found : m.shards[coreId]? = some old)
    (handle : Handle) :
    ({ m with shards := m.shards.set coreId new } : ShardedSlabManager).get handle.1 handle.2 =
      if handle.1 = coreId then new.get handle.2 else m.get handle.1 handle.2 := by
  have within := (List.getElem?_eq_some_iff.mp found).1
  by_cases mine : handle.1 = coreId
  · rw [if_pos mine, mine, ShardedSlabManager.get, List.getElem?_set_self within, Option.bind_some]
  · rw [if_neg mine, ShardedSlabManager.get, List.getElem?_set_ne (Ne.symm mine), ShardedSlabManager.get]

theorem found_get (m : ShardedSlabManager) (coreId slotIdx : Nat) (shard : SlabShard) (found : m.shards[coreId]? = some shard) :
    m.get coreId slotIdx = shard.get slotIdx := by
  rw [ShardedSlabManager.get, found, Option.bind_some]

-- One shard is replaced, and the handles on it change with it.
theorem replaced_tallied (sizes : ShardSizes) (live live' : List (Handle × ConnState)) (m : ShardedSlabManager) (coreId : Nat)
    (old new : SlabShard) (tallied : Tallied sizes live m) (found : m.shards[coreId]? = some old)
    (capacity : new.capacity = old.capacity) (slab : new.slab.InStep ∧ new.len = new.slab.activeCount)
    (counted : new.len = liveOn coreId live') (others : ∀ other, other ≠ coreId → liveOn other live' = liveOn other live)
    (listed : ∀ (handle : Handle) conn, (handle, conn) ∈ live' ↔
      if handle.1 = coreId then new.get handle.2 = some conn else (handle, conn) ∈ live)
    (distinct : (live'.map Prod.fst).Nodup) : Tallied sizes live' { m with shards := m.shards.set coreId new } := by
  have within := (List.getElem?_eq_some_iff.mp found).1
  refine ⟨List.length_set.trans tallied.number, fun shard member => ?_, fun shard member => ?_, fun other shard there => ?_,
    fun handle conn => ?_, distinct⟩
  · rcases List.mem_or_eq_of_mem_set member with before | rfl
    · exact tallied.capacity shard before
    · exact capacity.trans (tallied.capacity old (List.mem_of_getElem? found))
  · rcases List.mem_or_eq_of_mem_set member with before | rfl
    · exact tallied.slabs shard before
    · exact slab
  · by_cases mine : other = coreId
    · subst mine
      rw [List.getElem?_set_self within] at there
      obtain rfl := Option.some.inj there
      exact counted
    · rw [List.getElem?_set_ne (Ne.symm mine)] at there
      rw [others other mine]
      exact tallied.counted other shard there
  · rw [get_replaced m coreId old new found handle, listed handle conn]
    by_cases mine : handle.1 = coreId
    · rw [if_pos mine, if_pos mine]
    · rw [if_neg mine, if_neg mine]
      exact tallied.listed handle conn

theorem live_on_cons (coreId other slotIdx : Nat) (conn : ConnState) (live : List (Handle × ConnState)) :
    liveOn other (((coreId, slotIdx), conn) :: live) = liveOn other live + if coreId = other then 1 else 0 := by
  rw [liveOn, List.countP_cons, liveOn]
  simp only [decide_eq_true_eq]

theorem released_on (live : List (Handle × ConnState)) (handle : Handle) (conn : ConnState)
    (distinct : (live.map Prod.fst).Nodup) (held : (handle, conn) ∈ live) :
    liveOn handle.1 (live.filter fun held => held.1 ≠ handle) + 1 = liveOn handle.1 live := by
  induction live with
  | nil => cases held
  | cons first rest ih =>
      rw [List.map_cons, List.nodup_cons] at distinct
      obtain ⟨⟨coreId, slotIdx⟩, other⟩ := first
      by_cases mine : (coreId, slotIdx) = handle
      · subst mine
        have kept : rest.filter (fun held => held.1 ≠ (coreId, slotIdx)) = rest := by
          refine List.filter_eq_self.mpr fun later there => ?_
          refine decide_eq_true fun same => distinct.1 ?_
          exact same ▸ List.mem_map.mpr ⟨later, there, rfl⟩
        rw [List.filter_cons_of_neg (by simp), kept, live_on_cons, if_pos rfl]
      · have behind : (handle, conn) ∈ rest := by
          rcases List.mem_cons.mp held with same | behind
          · exact absurd (congrArg Prod.fst same).symm mine
          · exact behind
        rw [List.filter_cons_of_pos (by simpa using mine), live_on_cons, live_on_cons]
        have fewer := ih distinct.2 behind
        omega

theorem released_off (live : List (Handle × ConnState)) (handle : Handle) (other : Nat) (apart : other ≠ handle.1) :
    liveOn other (live.filter fun held => held.1 ≠ handle) = liveOn other live := by
  rw [liveOn, List.countP_filter, liveOn]
  refine List.countP_congr fun held _ => ?_
  simp only [Bool.and_eq_true, decide_eq_true_eq]
  refine and_iff_left_of_imp ?_
  rintro here rfl
  exact apart here.symm

theorem allocate_counts (shard taken : SlabShard) (conn : ConnState) (idx : Nat) (rest : List Nat)
    (inStep : shard.slab.InStep) (active : shard.len = shard.slab.activeCount) (word : shard.capacity < 2 ^ 64)
    (free : shard.freeList = idx :: rest)
    (inserted : shard.slab.insert conn = (some idx, (taken.insert idx conn).2.slab))
    (count : (taken.insert idx conn).2.allocated = shard.allocated + 1) (list : (taken.insert idx conn).2.freeList = rest) :
    (taken.insert idx conn).2.len = shard.len + 1 ∧ (taken.insert idx conn).2.slab.InStep ∧
      (taken.insert idx conn).2.len = (taken.insert idx conn).2.slab.activeCount := by
  have after := (insert_in_step shard.slab conn inStep).1
  rw [inserted] at after
  have same : (taken.insert idx conn).2.slab.capacity = shard.capacity := (insert_issues _ _ conn idx inStep.whole inserted).1
  have bound : shard.freeList.length ≤ shard.capacity := inStep.bound
  have before : shard.len = shard.capacity - shard.freeList.length := active
  have left : (taken.insert idx conn).2.slab.freeList.length = rest.length := congrArg List.length list
  rw [free, List.length_cons] at bound before
  have small : shard.allocated.toNat < shard.capacity := by
    rw [SlabShard.len] at before
    omega
  have more : (taken.insert idx conn).2.len = shard.len + 1 := by
    rw [SlabShard.len, count, inc_exact _ (by omega)]
    rfl
  refine ⟨more, after, ?_⟩
  rw [more, before, ConnSlab.activeCount, same, left]
  omega

theorem allocate_tallied (sizes : ShardSizes) (live : List (Handle × ConnState)) (m : ShardedSlabManager) (coreId : Nat)
    (conn : ConnState) (tallied : Tallied sizes live m) :
    Tallied sizes (m.handOut (.allocate coreId conn) live) (m.allocate coreId conn).2 := by
  cases found : m.shards[coreId]? with
  | none =>
      simp only [ShardedSlabManager.handOut, ShardedSlabManager.allocate, found]
      exact tallied
  | some shard =>
      cases free : shard.freeList with
      | nil =>
          simp only [ShardedSlabManager.handOut, ShardedSlabManager.allocate, found, (allocate_none shard conn free).1]
          exact tallied
      | cons idx rest =>
          have member := List.mem_of_getElem? found
          have word := shard_word sizes live m tallied shard member
          obtain ⟨inStep, active⟩ := tallied.slabs shard member
          obtain ⟨taken, allocated, inserted, count, list⟩ := allocate_some shard conn idx rest free
          obtain ⟨capacity, _, empty, stored, others⟩ := insert_issues _ _ conn idx inStep.whole inserted
          obtain ⟨more, after⟩ := allocate_counts shard taken conn idx rest inStep active word free inserted count list
          simp only [ShardedSlabManager.handOut, ShardedSlabManager.allocate, found, allocated]
          refine replaced_tallied sizes live _ m coreId shard _ tallied found capacity after ?_ (fun other apart => ?_)
            (fun handle other => ?_) ?_
          · rw [more, live_on_cons, if_pos rfl, tallied.counted coreId shard found]
          · rw [live_on_cons, if_neg (Ne.symm apart), Nat.add_zero]
          · obtain ⟨core, slotIdx⟩ := handle
            by_cases mine : core = coreId
            · subst mine
              rw [if_pos rfl, List.mem_cons, tallied.listed, shard_get, found_get m core slotIdx shard found, shard_get]
              by_cases same : slotIdx = idx
              · subst same
                rw [stored, empty]
                simp [eq_comm]
              · rw [others slotIdx same]
                simp [same]
            · rw [if_neg mine, List.mem_cons]
              refine or_iff_right fun same => mine ?_
              exact congrArg (fun held => held.1.1) same
          · rw [List.map_cons, List.nodup_cons]
            refine ⟨fun held => ?_, tallied.distinct⟩
            obtain ⟨⟨_, other⟩, there, rfl⟩ := List.mem_map.mp held
            have occupied := (tallied.listed _ _).mp there
            rw [found_get m coreId idx shard found, shard_get, empty] at occupied
            cases occupied

-- The slot is occupied, so its handle is live.
theorem deallocate_tallied (sizes : ShardSizes) (live : List (Handle × ConnState)) (m : ShardedSlabManager)
    (coreId slotIdx : Nat) (shard : SlabShard) (conn : ConnState) (tallied : Tallied sizes live m)
    (found : m.shards[coreId]? = some shard) (occupied : shard.get slotIdx = some conn) :
    Tallied sizes (live.filter fun held => held.1 ≠ (coreId, slotIdx)) (m.deallocate coreId slotIdx) ∧ 0 < shard.len := by
  have within : slotIdx < shard.capacity := get_within shard.slab slotIdx conn occupied
  have held : ((coreId, slotIdx), conn) ∈ live :=
    (tallied.listed _ _).mpr ((found_get m coreId slotIdx shard found).trans occupied)
  obtain ⟨inStep, active⟩ := tallied.slabs shard (List.mem_of_getElem? found)
  have after := (remove_in_step shard.slab slotIdx inStep).mpr fun _ empty => by cases empty.symm.trans occupied
  have fewer : liveOn coreId (live.filter fun held => held.1 ≠ (coreId, slotIdx)) + 1 = liveOn coreId live :=
    released_on live (coreId, slotIdx) conn tallied.distinct held
  have here := tallied.counted coreId shard found
  have above : 0 < shard.allocated.toNat := by
    rw [SlabShard.len] at here
    omega
  have less : (shard.deallocate slotIdx).len + 1 = shard.len := by
    rw [SlabShard.len, deallocate_count, if_pos within, dec_exact _ above, SlabShard.len]
    omega
  refine ⟨?_, above⟩
  rw [ShardedSlabManager.deallocate, found]
  refine replaced_tallied sizes live _ m coreId shard _ tallied found ?_ ⟨?_, ?_⟩ ?_ (fun other apart => ?_)
    (fun handle other => ?_) ?_
  · exact congrArg ConnSlab.capacity (deallocate_slab shard slotIdx) |>.trans (remove_capacity _ _)
  · rw [deallocate_slab]
    exact after
  · have inside : slotIdx < shard.slab.capacity := within
    have list : (shard.slab.remove slotIdx).freeList.length = shard.slab.freeList.length + 1 := by
      rw [ConnSlab.remove, dif_pos inside, List.length_cons]
    rw [deallocate_slab, ConnSlab.activeCount, list, remove_capacity]
    rw [active, ConnSlab.activeCount] at less
    omega
  · omega
  · exact released_off live (coreId, slotIdx) other apart
  · obtain ⟨core, slot⟩ := handle
    rw [List.mem_filter, decide_eq_true_eq]
    by_cases mine : core = coreId
    · subst mine
      rw [if_pos rfl, shard_get, deallocate_slab, tallied.listed, found_get m core slot shard found, shard_get]
      by_cases same : slot = slotIdx
      · subst same
        rw [remove_get_same _ _ within]
        simp
      · rw [remove_get_other _ _ _ same]
        simp [same]
    · rw [if_neg mine]
      simp [mine]
  · exact tallied.distinct.sublist (List.filter_sublist.map _)

theorem vacant_unheld (sizes : ShardSizes) (live : List (Handle × ConnState)) (m : ShardedSlabManager) (coreId slotIdx : Nat)
    (tallied : Tallied sizes live m) (vacant : m.get coreId slotIdx = none) :
    live.filter (fun held => held.1 ≠ (coreId, slotIdx)) = live := by
  refine List.filter_eq_self.mpr fun held there => decide_eq_true fun same => ?_
  have occupied := (tallied.listed held.1 held.2).mp there
  rw [same, vacant] at occupied
  cases occupied

-- A slot that is vacant is counted down all the same.
theorem vacant_miscounts (sizes : ShardSizes) (live : List (Handle × ConnState)) (m : ShardedSlabManager) (coreId slotIdx : Nat)
    (shard : SlabShard) (tallied : Tallied sizes live m) (found : m.shards[coreId]? = some shard)
    (within : slotIdx < shard.capacity) (vacant : shard.get slotIdx = none) :
    ¬ Unaliased (live.filter fun held => held.1 ≠ (coreId, slotIdx)) (m.deallocate coreId slotIdx) := by
  intro unaliased
  have inside := (List.getElem?_eq_some_iff.mp found).1
  rw [vacant_unheld sizes live m coreId slotIdx tallied ((found_get m coreId slotIdx shard found).trans vacant),
    ShardedSlabManager.deallocate, found] at unaliased
  have after := (unaliased.counted coreId _ (List.getElem?_set_self inside)).1
  rw [← tallied.counted coreId shard found, SlabShard.len, deallocate_count, if_pos within] at after
  exact dec_moves shard.allocated after

theorem deallocate_outside (m : ShardedSlabManager) (coreId slotIdx : Nat)
    (outside : ∀ shard, m.shards[coreId]? = some shard → ¬ slotIdx < shard.capacity) :
    m.deallocate coreId slotIdx = m ∧ m.get coreId slotIdx = none := by
  cases found : m.shards[coreId]? with
  | none => exact ⟨by rw [ShardedSlabManager.deallocate, found], by rw [ShardedSlabManager.get, found, Option.bind_none]⟩
  | some shard =>
      have beyond := outside shard found
      have same : shard.deallocate slotIdx = shard := dif_neg beyond
      have inside := (List.getElem?_eq_some_iff.mp found).1
      constructor
      · rw [ShardedSlabManager.deallocate, found]
        simp only [same]
        rw [List.getElem?_eq_getElem inside] at found
        rw [← Option.some.inj found, List.set_getElem_self]
      · rw [found_get m coreId slotIdx shard found, SlabShard.get, List.getElem?_eq_none (shard.sized ▸ Nat.le_of_not_lt beyond)]
        rfl

theorem call_tallied (sizes : ShardSizes) (live : List (Handle × ConnState)) (m m' : ShardedSlabManager) (call : ShardCall)
    (tallied : Tallied sizes live m) (taken : m.step call = some m') (frees : m.Frees call) :
    Tallied sizes (m.handOut call live) m' ∧ m.Unwrapped call := by
  cases call with
  | allocate coreId conn =>
      obtain rfl := Option.some.inj taken
      exact ⟨allocate_tallied sizes live m coreId conn tallied, trivial⟩
  | deallocate coreId slotIdx =>
      obtain rfl := Option.some.inj taken
      by_cases inside : ∃ shard, m.shards[coreId]? = some shard ∧ slotIdx < shard.capacity
      · obtain ⟨shard, found, within⟩ := inside
        obtain ⟨conn, occupied⟩ := Option.ne_none_iff_exists'.mp (frees shard found within)
        obtain ⟨after, above⟩ := deallocate_tallied sizes live m coreId slotIdx shard conn tallied found occupied
        refine ⟨after, fun other also _ => ?_⟩
        obtain rfl := Option.some.inj (found.symm.trans also)
        exact above
      · have outside shard (found : m.shards[coreId]? = some shard) : ¬ slotIdx < shard.capacity :=
          fun within => inside ⟨shard, found, within⟩
        obtain ⟨same, vacant⟩ := deallocate_outside m coreId slotIdx outside
        rw [ShardedSlabManager.handOut, vacant_unheld sizes live m coreId slotIdx tallied vacant, same]
        exact ⟨tallied, fun shard found within => absurd within (outside shard found)⟩

theorem call_unaliased_iff (sizes : ShardSizes) (live : List (Handle × ConnState)) (m m' : ShardedSlabManager) (call : ShardCall)
    (tallied : Tallied sizes live m) (taken : m.step call = some m') :
    Unaliased (m.handOut call live) m' ∧ m.Unwrapped call ↔ m.Frees call := by
  constructor
  · rintro ⟨unaliased, _⟩
    cases call with
    | allocate coreId conn => trivial
    | deallocate coreId slotIdx =>
        obtain rfl := Option.some.inj taken
        intro shard found within vacant
        exact vacant_miscounts sizes live m coreId slotIdx shard tallied found within vacant unaliased
  · intro frees
    obtain ⟨after, unwrapped⟩ := call_tallied sizes live m m' call tallied taken frees
    exact ⟨tallied_unaliased sizes _ m' after, unwrapped⟩

theorem shards_unaliased_iff (numaInfo : NumaInfo) (sizes : ShardSizes) (calls : List ShardCall) :
    (∀ history m, Reached ShardedSlabManager.step (.new numaInfo sizes.numShards sizes.capacityPerShard) calls history m →
        Unaliased (liveHandles numaInfo sizes history) m) ∧
      (∀ before call m m', Taken ShardedSlabManager.step (.new numaInfo sizes.numShards sizes.capacityPerShard) calls before call
        m m' → m.Unwrapped call) ↔
    ∀ before call m m', Taken ShardedSlabManager.step (.new numaInfo sizes.numShards sizes.capacityPerShard) calls before call
      m m' → m.Frees call := by
  refine each_kept_iff (fun history m => Tallied sizes (liveHandles numaInfo sizes history) m)
    (fun history m => Unaliased (liveHandles numaInfo sizes history) m) (fun _ m call _ => m.Unwrapped call)
    (fun _ m call _ => m.Frees call) _ calls (new_tallied numaInfo sizes) (fun history m => tallied_unaliased sizes _ m) ?_ ?_
  · intro before call m m' tallied there frees
    rw [live_handles_snoc numaInfo sizes before m call there.reached]
    exact (call_tallied sizes _ m m' call tallied there.taken frees).1
  · intro before call m m' tallied there
    rw [live_handles_snoc numaInfo sizes before m call there.reached]
    exact call_unaliased_iff sizes _ m m' call tallied there.taken

def oneSlot : ShardSizes := ⟨1, 1, by decide⟩

-- A slot that was never allocated is freed, and then allocated twice.
theorem vacant_freed_twice_allocated : ∃ m, execute ShardedSlabManager.step (.new ⟨1, 1, 1, [0]⟩ 1 1)
      [.deallocate 0 0, .allocate 0 (.new 1), .allocate 0 (.new 2)] = some m ∧
    liveHandles ⟨1, 1, 1, [0]⟩ oneSlot [.deallocate 0 0, .allocate 0 (.new 1), .allocate 0 (.new 2)] =
      [((0, 0), .new 2), ((0, 0), .new 1)] ∧ m.get 0 0 = some (.new 2) ∧
    ¬ Unaliased (liveHandles ⟨1, 1, 1, [0]⟩ oneSlot [.deallocate 0 0, .allocate 0 (.new 1), .allocate 0 (.new 2)]) m := by
  refine ⟨_, rfl, rfl, rfl, fun unaliased => ?_⟩
  exact absurd unaliased.distinct (by decide)

end Ners.Server
