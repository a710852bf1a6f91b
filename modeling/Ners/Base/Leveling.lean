import Mathlib.Algebra.BigOperators.Group.List.Basic
import Mathlib.Algebra.Order.Group.Nat
import Mathlib.Algebra.Ring.Nat
import Mathlib.Algebra.Order.BigOperators.Group.List
import Mathlib.Data.List.MinMax

set_option autoImplicit false

namespace Ners.Leveling

variable {α : Type} (load : α → Nat)

-- The first of the items with the smallest load.
def leastIndex (items : List α) : Option Nat := (items.zipIdx.argmin fun entry => load entry.1).map Prod.snd

def Level (items : List α) : Prop := ∀ a ∈ items, ∀ b ∈ items, load a ≤ load b + 1

theorem least_index (items : List α) (i : Nat) (least : leastIndex load items = some i) :
    ∃ a, items[i]? = some a ∧ ∀ b ∈ items, load a ≤ load b := by
  obtain ⟨⟨a, j⟩, smallest, rfl⟩ := Option.map_eq_some_iff.mp least
  refine ⟨a, List.mk_mem_zipIdx_iff_getElem?.mp (List.argmin_mem smallest), fun b member => ?_⟩
  obtain ⟨k, there⟩ := List.getElem?_of_mem member
  exact @List.le_of_mem_argmin _ _ _ (fun entry => load entry.1) _ _ _ (List.mk_mem_zipIdx_iff_getElem?.mpr there) smallest

theorem least_index_none (items : List α) (least : leastIndex load items = none) : items = [] := by
  have none := List.argmin_eq_none.mp (Option.map_eq_none_iff.mp least)
  rwa [List.zipIdx_eq_nil_iff] at none

-- The first of the items of a kind with the smallest load.
def leastIndexAmong (kind : α → Bool) (items : List α) : Option Nat :=
  ((items.zipIdx.filter fun entry => kind entry.1).argmin fun entry => load entry.1).map Prod.snd

theorem least_among (kind : α → Bool) (items : List α) (i : Nat) (least : leastIndexAmong load kind items = some i) :
    ∃ a, items[i]? = some a ∧ kind a = true ∧ ∀ b ∈ items, kind b = true → load a ≤ load b := by
  obtain ⟨⟨a, j⟩, smallest, rfl⟩ := Option.map_eq_some_iff.mp least
  obtain ⟨member, mine⟩ := List.mem_filter.mp (List.argmin_mem smallest)
  refine ⟨a, List.mk_mem_zipIdx_iff_getElem?.mp member, mine, fun b there also => ?_⟩
  obtain ⟨k, found⟩ := List.getElem?_of_mem there
  have listed : (b, k) ∈ items.zipIdx.filter fun entry => kind entry.1 :=
    List.mem_filter.mpr ⟨List.mk_mem_zipIdx_iff_getElem?.mpr found, also⟩
  exact @List.le_of_mem_argmin _ _ _ (fun entry => load entry.1) _ _ _ listed smallest

theorem least_among_none (kind : α → Bool) (items : List α) (least : leastIndexAmong load kind items = none) (b : α)
    (member : b ∈ items) : kind b = false := by
  have none := List.argmin_eq_none.mp (Option.map_eq_none_iff.mp least)
  rw [List.filter_eq_nil_iff] at none
  obtain ⟨k, found⟩ := List.getElem?_of_mem member
  exact Bool.eq_false_iff.mpr (none _ (List.mk_mem_zipIdx_iff_getElem?.mpr found))

variable {load}

theorem raise_level (items : List α) (i : Nat) (a more : α) (found : items[i]? = some a) (least : ∀ b ∈ items, load a ≤ load b)
    (raised : load more = load a + 1) (level : Level load items) : Level load (items.set i more) := by
  have member := List.mem_of_getElem? found
  intro x left y right
  rcases List.mem_or_eq_of_mem_set left with old | rfl
  · rcases List.mem_or_eq_of_mem_set right with older | rfl
    · exact level x old y older
    · have near := level x old a member
      omega
  · rcases List.mem_or_eq_of_mem_set right with older | rfl
    · have smallest := least y older
      omega
    · omega

theorem raise_sum (items : List α) (i : Nat) (a more : α) (found : items[i]? = some a) (raised : load more = load a + 1) :
    ((items.set i more).map load).sum = (items.map load).sum + 1 := by
  induction items generalizing i with
  | nil => cases found
  | cons first later ih =>
      cases i with
      | zero =>
          obtain rfl := Option.some.inj found
          rw [List.set_cons_zero, List.map_cons, List.sum_cons, List.map_cons, List.sum_cons, raised]
          omega
      | succ i =>
          rw [List.set_cons_succ, List.map_cons, List.sum_cons, List.map_cons, List.sum_cons, ih i found]
          omega

-- Where the least load has reached the bound of all, the items hold what they can.
theorem full_sum (items : List α) (a : α) (bound : Nat) (least : ∀ b ∈ items, load a ≤ load b) (full : load a = bound)
    (bounded : ∀ b ∈ items, load b ≤ bound) : (items.map load).sum = items.length * bound := by
  have same : items.map load = List.replicate items.length bound := by
    rw [List.eq_replicate_iff, List.length_map]
    refine ⟨rfl, fun n member => ?_⟩
    obtain ⟨b, there, rfl⟩ := List.mem_map.mp member
    exact Nat.le_antisymm (bounded b there) (full ▸ least b there)
  rw [same, List.sum_replicate_nat]

theorem partial_sum (items : List α) (a : α) (bound : Nat) (member : a ∈ items) (room : load a < bound)
    (bounded : ∀ b ∈ items, load b ≤ bound) : (items.map load).sum < items.length * bound := by
  have below : (items.map load).sum < (items.map fun _ => bound).sum :=
    List.sum_lt_sum load (fun _ => bound) bounded ⟨a, member, room⟩
  rwa [List.map_const', List.sum_replicate_nat] at below

end Ners.Leveling
