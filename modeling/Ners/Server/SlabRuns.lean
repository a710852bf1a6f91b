import Ners.Base.Runs
import Ners.Server.Conn

set_option autoImplicit false

namespace Ners.Server

open Runs (Reached Taken each_state_and_step_iff execute)

inductive SlabCall where
  | insert (conn : ConnState)
  | remove (id : ConnId)

def ConnSlab.step (slab : ConnSlab) : SlabCall → Option ConnSlab
  | .insert conn => some (slab.insert conn).2
  | .remove id => some (slab.remove id)

def ConnSlab.occupied (slab : ConnSlab) : Nat := slab.slots.countP Option.isSome

-- The free list and the slots are two views of one set.
structure ConnSlab.InStep (slab : ConnSlab) : Prop where
  whole : slab.Exact
  bound : slab.freeList.length ≤ slab.capacity
  active : slab.activeCount = slab.occupied

-- No live connection is overwritten, or lost before its own id is removed.
structure Careful (slab : ConnSlab) (call : SlabCall) (slab' : ConnSlab) : Prop where
  issued : ∀ conn id, call = .insert conn → (slab.insert conn).1 = some id → slab.get id = none ∧ slab'.get id = some conn
  kept : ∀ id conn, slab.get id = some conn → call ≠ .remove id → slab'.get id = some conn

def ConnSlab.Removes (slab : ConnSlab) : SlabCall → Prop
  | .insert _ => True
  | .remove id => id < slab.capacity → slab.get id ≠ none

theorem in_step_iff (slab : ConnSlab) : slab.InStep ↔ slab.Exact ∧ slab.freeList.length + slab.occupied = slab.capacity := by
  constructor
  · rintro ⟨whole, bound, active⟩
    rw [ConnSlab.activeCount] at active
    exact ⟨whole, by omega⟩
  · rintro ⟨whole, sum⟩
    refine ⟨whole, by omega, ?_⟩
    rw [ConnSlab.activeCount]
    omega

theorem put_occupied (slab : ConnSlab) (id : ConnId) (slot : Option ConnState) (within : id < slab.capacity) :
    (slab.put id slot).occupied + (if (slab.get id).isSome then 1 else 0) = slab.occupied + (if slot.isSome then 1 else 0) := by
  have inside : id < slab.slots.length := slab.sized.symm ▸ within
  have here : slab.get id = slab.slots[id] := by
    rw [ConnSlab.get, List.getElem?_eq_getElem inside, Option.join_some]
  rw [ConnSlab.occupied, ConnSlab.put, List.countP_set inside, here, ConnSlab.occupied]
  by_cases full : slab.slots[id].isSome = true
  · have some : 0 < slab.slots.countP Option.isSome := List.countP_pos_iff.mpr ⟨_, List.getElem_mem inside, full⟩
    rw [if_pos full]
    omega
  · rw [if_neg full]
    omega

theorem insert_in_step (slab : ConnSlab) (conn : ConnState) (inStep : slab.InStep) :
    (slab.insert conn).2.InStep ∧ Careful slab (.insert conn) (slab.insert conn).2 := by
  obtain ⟨whole, sum⟩ := (in_step_iff slab).mp inStep
  cases free : slab.freeList with
  | nil =>
      rw [insert_full slab conn free]
      refine ⟨inStep, ⟨fun other id same given => ?_, fun id other found _ => found⟩⟩
      obtain rfl := SlabCall.insert.inj same
      rw [insert_full slab conn free] at given
      cases given
  | cons idx rest =>
      obtain ⟨slab', inserted, capacity, exact_, empty, stored, others⟩ := insert_free slab conn idx rest free whole
      have within := slab.inRange idx (free ▸ List.mem_cons_self)
      obtain ⟨popped, _, slots⟩ := insert_some slab slab' conn idx inserted
      have list : slab'.freeList = rest := (List.cons.inj (popped.symm.trans free)).2
      have counts : slab'.occupied = (slab.put idx (some conn)).occupied := by
        rw [ConnSlab.occupied, slots]
        rfl
      rw [inserted]
      constructor
      · refine (in_step_iff slab').mpr ⟨exact_, ?_⟩
        have counted := put_occupied slab idx (some conn) within
        rw [empty] at counted
        simp only [Option.isSome_none, Bool.false_eq_true, if_false, Option.isSome_some, if_true] at counted
        rw [free, List.length_cons] at sum
        rw [list, counts, capacity]
        omega
      · refine ⟨fun other id same given => ?_, fun id other found _ => ?_⟩
        · obtain rfl := SlabCall.insert.inj same
          rw [inserted] at given
          obtain rfl := Option.some.inj given
          exact ⟨empty, stored⟩
        · have apart : id ≠ idx := by
            rintro rfl
            rw [empty] at found
            cases found
          exact (others id apart).trans found

theorem remove_kept (slab : ConnSlab) (id : ConnId) : Careful slab (.remove id) (slab.remove id) := by
  refine ⟨fun conn other same => ?_, fun other conn found differ => ?_⟩
  · cases same
  · have apart : other ≠ id := by
      rintro rfl
      exact differ rfl
    exact (remove_get_other slab id other apart).trans found

-- A vacant slot that is removed once more comes onto the free list twice.
theorem remove_in_step (slab : ConnSlab) (id : ConnId) (inStep : slab.InStep) :
    (slab.remove id).InStep ↔ slab.Removes (.remove id) := by
  obtain ⟨whole, sum⟩ := (in_step_iff slab).mp inStep
  by_cases within : id < slab.capacity
  · have list : (slab.remove id).freeList = id :: slab.freeList := by rw [ConnSlab.remove, dif_pos within]
    have counted : (slab.remove id).occupied = (slab.put id none).occupied := by
      rw [ConnSlab.remove, dif_pos within]
      rfl
    constructor
    · intro after _ empty
      have distinct := after.whole.distinct
      rw [list, List.nodup_cons] at distinct
      exact distinct.1 ((whole.free id within).mpr empty)
    · intro removes
      obtain ⟨conn, found⟩ := Option.ne_none_iff_exists'.mp (removes within)
      refine (in_step_iff _).mpr ⟨remove_exact slab id conn found whole, ?_⟩
      have fewer := put_occupied slab id none within
      rw [found] at fewer
      simp only [Option.isSome_none, Bool.false_eq_true, if_false, Option.isSome_some, if_true] at fewer
      rw [list, counted, remove_capacity, List.length_cons]
      omega
  · have same : slab.remove id = slab := by rw [ConnSlab.remove, dif_neg within]
    rw [same]
    exact iff_of_true inStep fun inside => absurd inside within

theorem call_in_step (slab slab' : ConnSlab) (call : SlabCall) (inStep : slab.InStep) (taken : slab.step call = some slab') :
    slab'.InStep ∧ Careful slab call slab' ↔ slab.Removes call := by
  cases call with
  | insert conn =>
      obtain rfl := Option.some.inj taken
      exact iff_of_true (insert_in_step slab conn inStep) trivial
  | remove id =>
      obtain rfl := Option.some.inj taken
      rw [remove_in_step slab id inStep]
      exact and_iff_left (remove_kept slab id)

theorem new_in_step (capacity : Nat) : (ConnSlab.new capacity).InStep := by
  refine (in_step_iff _).mpr ⟨new_exact capacity, ?_⟩
  have none : (ConnSlab.new capacity).occupied = 0 := by
    rw [ConnSlab.occupied, ConnSlab.new, List.countP_replicate]
    rfl
  rw [none]
  exact List.length_range

theorem slab_in_step_iff (capacity : Nat) (calls : List SlabCall) :
    (∀ history slab, Reached ConnSlab.step (.new capacity) calls history slab → slab.InStep) ∧
      (∀ before call slab slab', Taken ConnSlab.step (.new capacity) calls before call slab slab' → Careful slab call slab') ↔
    ∀ before call slab slab', Taken ConnSlab.step (.new capacity) calls before call slab slab' → slab.Removes call :=
  each_state_and_step_iff (fun _ slab => slab.InStep) (fun _ slab call slab' => Careful slab call slab')
    (fun _ slab call _ => slab.Removes call) (.new capacity) calls (new_in_step capacity)
    fun _ call slab slab' inStep there => call_in_step slab slab' call inStep there.taken

-- An id that was never given out is removed, and then given to two connections.
theorem vacant_removed_twice_issued : ∃ slab, execute ConnSlab.step (.new 1) [.remove 0] = some slab ∧ slab.freeList = [0, 0] ∧
    (slab.insert (.new 1)).1 = some 0 ∧ ((slab.insert (.new 1)).2.insert (.new 2)).1 = some 0 ∧
    (slab.insert (.new 1)).2.get 0 = some (.new 1) ∧ ¬ slab.InStep := by
  refine ⟨_, rfl, rfl, rfl, rfl, rfl, fun inStep => ?_⟩
  exact absurd inStep.whole.distinct (by decide)

end Ners.Server
