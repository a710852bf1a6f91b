import Ners.Server.Placing

set_option autoImplicit false

namespace Ners.Server

open Leveling
open Runs (carried execute Meets)

def ShardedSlabManager.leastLoadedCoreOnNode (m : ShardedSlabManager) (numaNode : Nat) : Option Nat :=
  leastIndexAmong SlabShard.len (fun shard => shard.numaNode == numaNode) m.shards

def ShardedSlabManager.placeOn (m : ShardedSlabManager) (numaNode : Nat) (conn : ConnState) : Option Handle × ShardedSlabManager :=
  match m.leastLoadedCoreOnNode numaNode with
  | none => (none, m)
  | some coreId => m.allocate coreId conn

-- Calls that name their core, and calls that leave it to the load.
inductive PlacingCall where
  | direct (call : ShardCall)
  | place (conn : ConnState)
  | placeOn (numaNode : Nat) (conn : ConnState)

def ShardedSlabManager.resolve (m : ShardedSlabManager) : PlacingCall → Option ShardCall
  | .direct call => some call
  | .place conn => some (.allocate m.leastLoadedCore conn)
  | .placeOn numaNode conn => (m.leastLoadedCoreOnNode numaNode).map fun coreId => .allocate coreId conn

def ShardedSlabManager.placingStep (m : ShardedSlabManager) (call : PlacingCall) : Option ShardedSlabManager :=
  match m.resolve call with
  | none => some m
  | some call => m.step call

def ShardedSlabManager.placed (m : ShardedSlabManager) (call : PlacingCall) (live : List (Handle × ConnState)) :
    List (Handle × ConnState) :=
  match m.resolve call with
  | none => live
  | some call => m.handOut call live

-- A handle that is given back is live, or of no slot.
def ShardedSlabManager.FreesLive (m : ShardedSlabManager) (call : PlacingCall) : Prop :=
  ∀ call', m.resolve call = some call' → m.Frees call'

def ShardedSlabManager.freesLive (m : ShardedSlabManager) (call : PlacingCall) : Bool :=
  match m.resolve call with
  | some (.deallocate coreId slotIdx) => m.shards[coreId]?.all fun shard => shard.capacity ≤ slotIdx ∨ shard.get slotIdx ≠ none
  | _ => true

instance freesLiveDecidable (m : ShardedSlabManager) (call : PlacingCall) : Decidable (m.FreesLive call) :=
  decidable_of_iff (m.freesLive call = true) (by
    unfold ShardedSlabManager.FreesLive ShardedSlabManager.freesLive
    cases m.resolve call with
    | none => exact iff_of_true rfl nofun
    | some call' =>
        cases call' with
        | allocate coreId conn => exact iff_of_true rfl fun _ same => Option.some.inj same ▸ trivial
        | deallocate coreId slotIdx =>
            simp only [Option.all_eq_true, decide_eq_true_eq, Option.some.injEq, forall_eq', ShardedSlabManager.Frees]
            exact forall₂_congr fun shard _ => by rw [← Nat.not_lt, or_iff_not_imp_left, not_not])

def placedHandles (numaInfo : NumaInfo) (sizes : ShardSizes) (history : List PlacingCall) : List (Handle × ConnState) :=
  carried ShardedSlabManager.placingStep ShardedSlabManager.placed (.new numaInfo sizes.numShards sizes.capacityPerShard) [] history

def ShardCall.coreId : ShardCall → Nat
  | .allocate coreId _ | .deallocate coreId _ => coreId

-- Calls that may put the shards of a node out of balance.
def NumaInfo.disturbs (numaInfo : NumaInfo) (node : Nat) : PlacingCall → Bool
  | .direct call => numaInfo.nodeForCore call.coreId == node
  | _ => false

-- The shards of a node are this far apart at most.
def Even (numaInfo : NumaInfo) (sizes : ShardSizes) (node gap : Nat) (live : List (Handle × ConnState)) : Prop :=
  ∀ core core', core < sizes.numShards → core' < sizes.numShards → numaInfo.nodeForCore core = node →
    numaInfo.nodeForCore core' = node → liveOn core live ≤ liveOn core' live + gap

structure Evened (numaInfo : NumaInfo) (sizes : ShardSizes) (gaps : Nat → Nat) (live : List (Handle × ConnState))
    (m : ShardedSlabManager) : Prop where
  tallied : Tallied sizes live m
  nodes : ∀ (core : Nat) shard, m.shards[core]? = some shard → shard.numaNode = numaInfo.nodeForCore core
  even : ∀ node, Even numaInfo sizes node (1 + gaps node) live

-- What the balancer answers, in terms of the live handles.
structure Chosen (numaInfo : NumaInfo) (sizes : ShardSizes) (live : List (Handle × ConnState)) (node : Nat)
    (answer : Option Handle) : Prop where
  refused : answer = none ↔
    ∀ core, core < sizes.numShards → numaInfo.nodeForCore core = node → liveOn core live = sizes.capacityPerShard
  fresh : ∀ handle, answer = some handle → handle ∉ live.map Prod.fst
  onNode : ∀ handle, answer = some handle → handle.1 < sizes.numShards ∧ numaInfo.nodeForCore handle.1 = node
  least : ∀ handle, answer = some handle → ∀ core, core < sizes.numShards → numaInfo.nodeForCore core = node →
    liveOn handle.1 live ≤ liveOn core live

section

variable (numaInfo : NumaInfo) (sizes : ShardSizes) (gaps : Nat → Nat) (live : List (Handle × ConnState)) (m : ShardedSlabManager)

theorem core_shard (tallied : Tallied sizes live m) (core : Nat) (within : core < sizes.numShards) :
    ∃ shard, m.shards[core]? = some shard ∧ shard.len = liveOn core live := by
  rw [← tallied.number] at within
  exact ⟨_, List.getElem?_eq_getElem within, tallied.counted core _ (List.getElem?_eq_getElem within)⟩

theorem least_on_node (evened : Evened numaInfo sizes gaps live m) (node coreId : Nat)
    (least : m.leastLoadedCoreOnNode node = some coreId) :
    coreId < sizes.numShards ∧ numaInfo.nodeForCore coreId = node ∧
      ∀ core, core < sizes.numShards → numaInfo.nodeForCore core = node → liveOn coreId live ≤ liveOn core live := by
  obtain ⟨shard, found, mine, smallest⟩ := least_among SlabShard.len _ m.shards coreId least
  have here := evened.tallied.counted coreId shard found
  refine ⟨?_, (evened.nodes coreId shard found).symm.trans (beq_iff_eq.mp mine), fun core within also => ?_⟩
  · rw [← evened.tallied.number]
    exact (List.getElem?_eq_some_iff.mp found).1
  · obtain ⟨other, there, count⟩ := core_shard sizes live m evened.tallied core within
    rw [← here, ← count]
    exact smallest other (List.mem_of_getElem? there) (beq_iff_eq.mpr ((evened.nodes core other there).trans also))

theorem no_least_on_node (evened : Evened numaInfo sizes gaps live m) (node : Nat) (none : m.leastLoadedCoreOnNode node = none)
    (core : Nat) (within : core < sizes.numShards) : numaInfo.nodeForCore core ≠ node := by
  obtain ⟨shard, found, _⟩ := core_shard sizes live m evened.tallied core within
  have other := least_among_none SlabShard.len _ m.shards none shard (List.mem_of_getElem? found)
  rw [evened.nodes core shard found] at other
  exact beq_eq_false_iff_ne.mp other

theorem least_of_all (tallied : Tallied sizes live m) (core : Nat) (within : core < sizes.numShards) :
    liveOn m.leastLoadedCore live ≤ liveOn core live := by
  obtain ⟨shard, found, count⟩ := core_shard sizes live m tallied core within
  rw [ShardedSlabManager.leastLoadedCore]
  cases choice : leastIndex SlabShard.len m.shards with
  | none =>
      rw [least_index_none SlabShard.len m.shards choice] at found
      cases found
  | some coreId =>
      obtain ⟨first, there, least⟩ := least_index SlabShard.len m.shards coreId choice
      rw [Option.getD_some, ← tallied.counted coreId first there, ← count]
      exact least shard (List.mem_of_getElem? found)

-- A shard gives a slot unless all of its slots are live.
theorem allocate_answer (tallied : Tallied sizes live m) (coreId : Nat) (conn : ConnState) (within : coreId < sizes.numShards) :
    ((m.allocate coreId conn).1 = none ∧ liveOn coreId live = sizes.capacityPerShard) ∨
      ∃ slotIdx, (m.allocate coreId conn).1 = some (coreId, slotIdx) ∧ liveOn coreId live < sizes.capacityPerShard ∧
        (coreId, slotIdx) ∉ live.map Prod.fst := by
  obtain ⟨shard, found, count⟩ := core_shard sizes live m tallied coreId within
  have member := List.mem_of_getElem? found
  obtain ⟨inStep, active⟩ := tallied.slabs shard member
  have size := tallied.capacity shard member
  have bound : shard.freeList.length ≤ shard.capacity := inStep.bound
  have held : shard.len = shard.capacity - shard.freeList.length := active
  cases free : shard.freeList with
  | nil =>
      rw [free, List.length_nil] at held
      refine .inl ⟨?_, by omega⟩
      simp only [ShardedSlabManager.allocate, found, (allocate_none shard conn free).1]
  | cons idx rest =>
      obtain ⟨taken, allocated, inserted, _, _⟩ := allocate_some shard conn idx rest free
      rw [free, List.length_cons] at held bound
      refine .inr ⟨idx, by simp only [ShardedSlabManager.allocate, found, allocated], by omega, fun listed => ?_⟩
      obtain ⟨⟨_, other⟩, there, rfl⟩ := List.mem_map.mp listed
      have occupied := (tallied.listed _ _).mp there
      rw [found_get m coreId idx shard found, shard_get, (insert_issues _ _ conn idx inStep.whole inserted).2.2.1] at occupied
      cases occupied

theorem place_on_chosen (evened : Evened numaInfo sizes gaps live m) (node : Nat) (conn : ConnState) :
    Chosen numaInfo sizes live node (m.placeOn node conn).1 := by
  unfold ShardedSlabManager.placeOn
  cases choice : m.leastLoadedCoreOnNode node with
  | none =>
      refine ⟨iff_of_true rfl fun core within mine => ?_, nofun, nofun, nofun⟩
      exact absurd mine (no_least_on_node numaInfo sizes gaps live m evened node choice core within)
  | some coreId =>
      obtain ⟨within, mine, least⟩ := least_on_node numaInfo sizes gaps live m evened node coreId choice
      have bound (core : Nat) (inside : core < sizes.numShards) : liveOn core live ≤ sizes.capacityPerShard := by
        obtain ⟨shard, found, count⟩ := core_shard sizes live m evened.tallied core inside
        have member := List.mem_of_getElem? found
        rw [← count, ← evened.tallied.capacity shard member]
        exact shard_len_bound shard (evened.tallied.slabs shard member).2
      rcases allocate_answer sizes live m evened.tallied coreId conn within with ⟨refused, full⟩ | ⟨slotIdx, given, room, new⟩
      · simp only [refused]
        refine ⟨iff_of_true rfl fun core inside also => ?_, nofun, nofun, nofun⟩
        exact Nat.le_antisymm (bound core inside) (full ▸ least core inside also)
      · simp only [given]
        refine ⟨iff_of_false nofun fun full => Nat.ne_of_lt room (full coreId within mine), ?_, ?_, ?_⟩
        · rintro _ ⟨⟩
          exact new
        · rintro _ ⟨⟩
          exact ⟨within, mine⟩
        · rintro _ ⟨⟩
          exact least

theorem allocated_count (coreId : Nat) (conn : ConnState) : ∃ k, k ≤ 1 ∧ ∀ other,
    liveOn other (m.handOut (.allocate coreId conn) live) = liveOn other live + if coreId = other then k else 0 := by
  have refused : ∃ k, k ≤ 1 ∧ ∀ other, liveOn other live = liveOn other live + if coreId = other then k else 0 :=
    ⟨0, Nat.zero_le _, fun other => by rw [ite_self, Nat.add_zero]⟩
  simp only [ShardedSlabManager.handOut, ShardedSlabManager.allocate]
  cases m.shards[coreId]? with
  | none => exact refused
  | some shard =>
      cases allocated : shard.allocate with
      | none => simpa only [allocated] using refused
      | some taken =>
          simp only [allocated]
          exact ⟨1, Nat.le_refl _, fun other => live_on_cons coreId other taken.1 conn live⟩

omit numaInfo gaps in
theorem deallocated_count (tallied : Tallied sizes live m) (coreId slotIdx : Nat) : ∃ k, k ≤ 1 ∧ ∀ other,
    liveOn other (m.handOut (.deallocate coreId slotIdx) live) + (if coreId = other then k else 0) = liveOn other live := by
  have off (other : Nat) (apart : other ≠ coreId) :=
    released_off live (coreId, slotIdx) other apart
  simp only [ShardedSlabManager.handOut]
  by_cases held : ∃ conn, ((coreId, slotIdx), conn) ∈ live
  · obtain ⟨conn, here⟩ := held
    refine ⟨1, Nat.le_refl _, fun other => ?_⟩
    by_cases mine : coreId = other
    · subst mine
      rw [if_pos rfl]
      exact released_on live (coreId, slotIdx) conn tallied.distinct here
    · rw [if_neg mine, Nat.add_zero]
      exact off other (Ne.symm mine)
  · refine ⟨0, Nat.zero_le _, fun other => ?_⟩
    rw [ite_self, Nat.add_zero]
    refine congrArg (liveOn other) (List.filter_eq_self.mpr fun entry there => decide_eq_true fun same => held ⟨entry.2, ?_⟩)
    rw [← same]
    exact there

theorem even_raised (node gap coreId k : Nat) (live' : List (Handle × ConnState)) (even : Even numaInfo sizes node gap live)
    (raised : ∀ other, liveOn other live' = liveOn other live + if coreId = other then k else 0)
    (least : coreId < sizes.numShards → numaInfo.nodeForCore coreId = node →
      ∀ core, core < sizes.numShards → numaInfo.nodeForCore core = node → liveOn coreId live + k ≤ liveOn core live + gap) :
    Even numaInfo sizes node gap live' := by
  intro core core' within within' mine mine'
  have before := even core core' within within' mine mine'
  rw [raised, raised]
  by_cases same : coreId = core
  · subst same
    have below := least within mine core' within' mine'
    rw [if_pos rfl]
    omega
  · rw [if_neg same]
    omega

theorem even_lowered (node gap coreId k : Nat) (live' : List (Handle × ConnState)) (even : Even numaInfo sizes node gap live)
    (lowered : ∀ other, liveOn other live' + (if coreId = other then k else 0) = liveOn other live)
    (room : coreId < sizes.numShards → numaInfo.nodeForCore coreId = node →
      ∀ core, core < sizes.numShards → numaInfo.nodeForCore core = node → liveOn core live + k ≤ liveOn coreId live + gap) :
    Even numaInfo sizes node gap live' := by
  intro core core' within within' mine mine'
  have before := even core core' within within' mine mine'
  have here := lowered core
  have there := lowered core'
  by_cases same : coreId = core'
  · subst same
    have above := room within' mine' core within mine
    rw [if_pos rfl] at there
    omega
  · rw [if_neg same] at there
    omega

theorem even_wider (node gap : Nat) (even : Even numaInfo sizes node gap live) : Even numaInfo sizes node (gap + 1) live :=
  fun core core' within within' mine mine' => Nat.le_succ_of_le (even core core' within within' mine mine')

omit numaInfo sizes gaps live m in
theorem allocate_node (shard taken : SlabShard) (slotIdx : Nat) (conn : ConnState) (allocated : shard.allocate = some (slotIdx, taken)) :
    (taken.insert slotIdx conn).2.numaNode = shard.numaNode := by
  have inserted : (taken.insert slotIdx conn).2.numaNode = taken.numaNode := by
    unfold SlabShard.insert
    split <;> rfl
  rw [inserted]
  unfold SlabShard.allocate at allocated
  split at allocated
  · cases allocated
  · obtain ⟨_, rfl⟩ := Prod.mk.inj (Option.some.inj allocated)
    rfl

omit sizes gaps live in
theorem step_nodes (m' : ShardedSlabManager) (call : ShardCall) (taken : m.step call = some m')
    (nodes : ∀ (core : Nat) shard, m.shards[core]? = some shard → shard.numaNode = numaInfo.nodeForCore core) (core : Nat)
    (shard : SlabShard) (found : m'.shards[core]? = some shard) : shard.numaNode = numaInfo.nodeForCore core := by
  have replaced (coreId : Nat) (old new : SlabShard) (there : m.shards[coreId]? = some old) (same : new.numaNode = old.numaNode)
      (here : (m.shards.set coreId new)[core]? = some shard) : shard.numaNode = numaInfo.nodeForCore core := by
    by_cases mine : core = coreId
    · subst mine
      rw [List.getElem?_set_self (List.getElem?_eq_some_iff.mp there).1] at here
      obtain rfl := Option.some.inj here
      exact same.trans (nodes core old there)
    · rw [List.getElem?_set_ne (Ne.symm mine)] at here
      exact nodes core shard here
  cases call with
  | allocate coreId conn =>
      obtain rfl := Option.some.inj taken
      cases there : m.shards[coreId]? with
      | none =>
          simp only [ShardedSlabManager.allocate, there] at found
          exact nodes core shard found
      | some old =>
          cases allocated : old.allocate with
          | none =>
              simp only [ShardedSlabManager.allocate, there, allocated] at found
              exact nodes core shard found
          | some taken =>
              simp only [ShardedSlabManager.allocate, there, allocated] at found
              exact replaced coreId old _ there (allocate_node old taken.2 taken.1 conn allocated) found
  | deallocate coreId slotIdx =>
      obtain rfl := Option.some.inj taken
      cases there : m.shards[coreId]? with
      | none =>
          simp only [ShardedSlabManager.deallocate, there] at found
          exact nodes core shard found
      | some old =>
          simp only [ShardedSlabManager.deallocate, there] at found
          refine replaced coreId old _ there ?_ found
          unfold SlabShard.deallocate
          split <;> rfl

theorem placing_even (evened : Evened numaInfo sizes gaps live m) (call : PlacingCall) (call' : ShardCall)
    (resolved : m.resolve call = some call') (node : Nat) :
    Even numaInfo sizes node (1 + gaps node + if numaInfo.disturbs node call then 1 else 0) (m.handOut call' live) := by
  have even := evened.even node
  cases call with
  | direct direct =>
      obtain rfl := Option.some.inj resolved
      have apart (mine : numaInfo.nodeForCore direct.coreId = node) : numaInfo.disturbs node (.direct direct) = true :=
        beq_iff_eq.mpr mine
      have wide : Even numaInfo sizes node (1 + gaps node + if numaInfo.disturbs node (.direct direct) then 1 else 0) live := by
        split
        · exact even_wider numaInfo sizes live node _ even
        · exact even
      cases direct with
      | allocate coreId conn =>
          obtain ⟨k, once, raised⟩ := allocated_count live m coreId conn
          refine even_raised numaInfo sizes live node _ coreId k _ wide raised fun inside mine core within also => ?_
          have near := even coreId core inside within mine also
          rw [if_pos (apart mine)]
          omega
      | deallocate coreId slotIdx =>
          obtain ⟨k, once, lowered⟩ := deallocated_count sizes live m evened.tallied coreId slotIdx
          refine even_lowered numaInfo sizes live node _ coreId k _ wide lowered fun inside mine core within also => ?_
          have near := even core coreId within inside also mine
          rw [if_pos (apart mine)]
          omega
  | place conn =>
      obtain rfl := Option.some.inj resolved
      obtain ⟨k, once, raised⟩ := allocated_count live m m.leastLoadedCore conn
      refine even_raised numaInfo sizes live node _ _ k _ even raised fun inside mine core within also => ?_
      have least := least_of_all sizes live m evened.tallied core within
      omega
  | placeOn numaNode conn =>
      obtain ⟨coreId, choice, rfl⟩ := Option.map_eq_some_iff.mp resolved
      obtain ⟨inside, on, least⟩ := least_on_node numaInfo sizes gaps live m evened numaNode coreId choice
      obtain ⟨k, once, raised⟩ := allocated_count live m coreId conn
      refine even_raised numaInfo sizes live node _ coreId k _ even raised fun _ mine core within also => ?_
      have below := least core within (also.trans (mine.symm.trans on))
      omega

theorem step_evened (m' : ShardedSlabManager) (evened : Evened numaInfo sizes gaps live m) (call : PlacingCall)
    (taken : m.placingStep call = some m') (frees : m.FreesLive call) :
    Evened numaInfo sizes (fun node => gaps node + if numaInfo.disturbs node call then 1 else 0) (m.placed call live) m' := by
  unfold ShardedSlabManager.placingStep at taken
  unfold ShardedSlabManager.placed
  cases resolved : m.resolve call with
  | none =>
      simp only [resolved] at taken ⊢
      obtain rfl := Option.some.inj taken
      refine ⟨evened.tallied, evened.nodes, fun node => ?_⟩
      cases call with
      | direct direct => cases resolved
      | place conn => cases resolved
      | placeOn numaNode conn => exact evened.even node
  | some call' =>
      simp only [resolved] at taken ⊢
      refine ⟨(call_tallied sizes live m m' call' evened.tallied taken (frees call' resolved)).1,
        step_nodes numaInfo m m' call' taken evened.nodes, fun node => ?_⟩
      rw [← Nat.add_assoc]
      exact placing_even numaInfo sizes gaps live m evened call call' resolved node

theorem run_evened (m' : ShardedSlabManager) (calls : List PlacingCall) (evened : Evened numaInfo sizes gaps live m)
    (executed : execute ShardedSlabManager.placingStep m calls = some m')
    (frees : Meets ShardedSlabManager.placingStep ShardedSlabManager.FreesLive m calls) :
    Evened numaInfo sizes (fun node => gaps node + calls.countP (numaInfo.disturbs node))
      (carried ShardedSlabManager.placingStep ShardedSlabManager.placed m live calls) m' := by
  induction calls generalizing m live gaps with
  | nil =>
      obtain rfl := Option.some.inj executed
      exact evened
  | cons call later ih =>
      obtain ⟨middle, taken, rest⟩ := Option.bind_eq_some_iff.mp executed
      have onward := ih _ _ middle (step_evened numaInfo sizes gaps live m middle evened call taken frees.1) rest (frees.2 middle taken)
      rw [carried, taken]
      refine ⟨onward.tallied, onward.nodes, fun node => ?_⟩
      have even := onward.even node
      rwa [Nat.add_assoc (gaps node), Nat.add_comm (if numaInfo.disturbs node call = true then 1 else 0), ← List.countP_cons] at even

end

theorem new_evened (numaInfo : NumaInfo) (sizes : ShardSizes) :
    Evened numaInfo sizes (fun _ => 0) [] (.new numaInfo sizes.numShards sizes.capacityPerShard) := by
  refine ⟨new_tallied numaInfo sizes, fun core shard found => ?_, fun node core core' _ _ _ _ => Nat.zero_le _⟩
  rw [ShardedSlabManager.new, List.getElem?_map, Option.map_eq_some_iff] at found
  obtain ⟨coreId, listed, rfl⟩ := found
  have within := (List.getElem?_eq_some_iff.mp listed).1
  rw [List.length_range] at within
  rw [List.getElem?_range within] at listed
  obtain rfl := Option.some.inj listed
  rfl

theorem node_placement_balanced (numaInfo : NumaInfo) (sizes : ShardSizes) (calls : List PlacingCall) (m : ShardedSlabManager)
    (executed : execute ShardedSlabManager.placingStep (.new numaInfo sizes.numShards sizes.capacityPerShard) calls = some m)
    (frees : Meets ShardedSlabManager.placingStep ShardedSlabManager.FreesLive
      (.new numaInfo sizes.numShards sizes.capacityPerShard) calls) :
    Unaliased (placedHandles numaInfo sizes calls) m ∧
      (∀ node, Even numaInfo sizes node (1 + calls.countP (numaInfo.disturbs node)) (placedHandles numaInfo sizes calls)) ∧
      ∀ node conn, Chosen numaInfo sizes (placedHandles numaInfo sizes calls) node (m.placeOn node conn).1 := by
  have evened := run_evened numaInfo sizes _ [] _ m calls (new_evened numaInfo sizes) executed frees
  refine ⟨tallied_unaliased sizes _ m evened.tallied, fun node => ?_, place_on_chosen numaInfo sizes _ _ m evened⟩
  have even := evened.even node
  rwa [Nat.zero_add] at even

def twoByTwo : NumaInfo := ⟨2, 2, 4, [0, 0, 1, 1]⟩

def twoSlotsEach : ShardSizes := ⟨4, 2, by decide⟩

-- The second node is filled, and one of its handles is given back.
def secondNode : List PlacingCall :=
  [.placeOn 1 (.new 0), .placeOn 1 (.new 1), .place (.new 2), .placeOn 1 (.new 3), .direct (.deallocate 2 0), .placeOn 1 (.new 4)]

theorem second_node_balanced : ∃ m, execute ShardedSlabManager.placingStep (.new twoByTwo 4 2) secondNode = some m ∧
    (placedHandles twoByTwo twoSlotsEach secondNode).map Prod.fst = [(2, 0), (2, 1), (0, 0), (3, 0)] ∧
    Even twoByTwo twoSlotsEach 1 2 (placedHandles twoByTwo twoSlotsEach secondNode) ∧ (m.placeOn 1 (.new 5)).1 = some (3, 1) ∧
    Chosen twoByTwo twoSlotsEach (placedHandles twoByTwo twoSlotsEach secondNode) 1 (m.placeOn 1 (.new 5)).1 := by
  have balanced := node_placement_balanced twoByTwo twoSlotsEach secondNode _ rfl ?_
  · exact ⟨_, rfl, rfl, balanced.2.1 1, rfl, balanced.2.2 1 _⟩
  · decide

end Ners.Server
