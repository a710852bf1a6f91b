import Mathlib.Data.List.Nodup

set_option autoImplicit false

namespace Ners.Fibers

variable {α : Type} [DecidableEq α]

-- The indices at which a list has the given label.
def positions (labels : List α) (a : α) : List Nat := (labels.zipIdx.filter fun entry => entry.1 == a).map Prod.snd

theorem mem_positions (labels : List α) (a : α) (i : Nat) : i ∈ positions labels a ↔ labels[i]? = some a := by
  simp only [positions, List.mem_map, List.mem_filter, beq_iff_eq]
  constructor
  · rintro ⟨⟨b, j⟩, ⟨member, rfl⟩, rfl⟩
    exact List.mk_mem_zipIdx_iff_getElem?.mp member
  · intro there
    exact ⟨(a, i), ⟨List.mk_mem_zipIdx_iff_getElem?.mpr there, rfl⟩, rfl⟩

theorem positions_nodup (labels : List α) (a : α) : (positions labels a).Nodup := by
  have indices : (labels.zipIdx.map Prod.snd).Nodup := by
    rw [List.zipIdx_map_snd]
    exact List.nodup_range'
  exact indices.sublist (List.filter_sublist.map _)

theorem positions_disjoint (labels : List α) (a b : α) (differ : a ≠ b) :
    List.Disjoint (positions labels a) (positions labels b) := by
  intro i here there
  have labelled := ((mem_positions labels a i).mp here).symm.trans ((mem_positions labels b i).mp there)
  exact differ (Option.some.inj labelled)

theorem fibers_nodup (labels keys : List α) (distinct : keys.Nodup) : (keys.flatMap (positions labels)).Nodup :=
  List.nodup_flatMap.mpr ⟨fun a _ => positions_nodup labels a, distinct.imp fun differ => positions_disjoint labels _ _ differ⟩

-- An index lies in the fibers of the keys once where its label is one of them.
theorem fibers_count (labels keys : List α) (distinct : keys.Nodup) (i : Nat) :
    (keys.flatMap (positions labels)).count i = if ∃ a ∈ keys, labels[i]? = some a then 1 else 0 := by
  by_cases labelled : ∃ a ∈ keys, labels[i]? = some a
  · obtain ⟨a, key, there⟩ := labelled
    have member : i ∈ keys.flatMap (positions labels) := List.mem_flatMap.mpr ⟨a, key, (mem_positions labels a i).mpr there⟩
    rw [if_pos ⟨a, key, there⟩, List.count_eq_one_of_mem (fibers_nodup labels keys distinct) member]
  · rw [if_neg labelled]
    refine List.count_eq_zero_of_not_mem fun member => labelled ?_
    obtain ⟨a, key, here⟩ := List.mem_flatMap.mp member
    exact ⟨a, key, (mem_positions labels a i).mp here⟩

end Ners.Fibers
