import Mathlib.Algebra.BigOperators.Group.List.Basic
import Mathlib.Algebra.Order.Group.Nat
import Mathlib.Algebra.Order.BigOperators.Group.List
import Mathlib.Algebra.Group.Action.Defs
import Mathlib.Algebra.Ring.Nat

set_option autoImplicit false

namespace Ners.Meters

open Function (update)

variable {π κ : Type} [DecidableEq κ]

-- Places carry loads, and each place counts towards one meter.
def reading (places : List π) (meter : π → κ) (load : π → Nat) (k : κ) : Nat :=
  (places.map fun p => if meter p = k then load p else 0).sum

theorem load_le_reading (places : List π) (meter : π → κ) (load : π → Nat) (p : π) (member : p ∈ places) :
    load p ≤ reading places meter load (meter p) := by
  refine le_trans ?_ (List.single_le_sum (fun _ _ => Nat.zero_le _) _ (List.mem_map.mpr ⟨p, member, rfl⟩))
  rw [if_pos rfl]

theorem reading_bound (places : List π) (meter : π → κ) (load : π → Nat) (most : Nat) (k : κ)
    (bound : ∀ p, load p ≤ most) : reading places meter load k ≤ places.length * most := by
  have each := List.sum_le_card_nsmul (places.map fun p => if meter p = k then load p else 0) most ?_
  · rwa [List.length_map, smul_eq_mul] at each
  · intro n member
    obtain ⟨p, _, rfl⟩ := List.mem_map.mp member
    split
    · exact bound p
    · exact Nat.zero_le most

variable [DecidableEq π]

theorem reading_elsewhere (places : List π) (meter : π → κ) (load : π → Nat) (p : π) (n : Nat) (k : κ) (absent : p ∉ places) :
    reading places meter (update load p n) k = reading places meter load k := by
  refine congrArg List.sum (List.map_congr_left fun q member => ?_)
  have other : q ≠ p := fun same => absent (same ▸ member)
  simp only [Function.update_of_ne other]

theorem reading_update (places : List π) (meter : π → κ) (load : π → Nat) (p : π) (n : Nat) (k : κ) (distinct : places.Nodup)
    (member : p ∈ places) :
    reading places meter (update load p n) k + (if meter p = k then load p else 0) =
      reading places meter load k + (if meter p = k then n else 0) := by
  induction places with
  | nil => cases member
  | cons q rest ih =>
      obtain ⟨absent, distinct⟩ := List.nodup_cons.mp distinct
      rw [reading, reading, List.map_cons, List.map_cons, List.sum_cons, List.sum_cons]
      by_cases same : p = q
      · subst same
        have others := reading_elsewhere rest meter load p n k absent
        unfold reading at others
        rw [others, Function.update_self]
        omega
      · have others := ih distinct ((List.mem_cons.mp member).resolve_left same)
        unfold reading at others
        rw [Function.update_of_ne fun back => same back.symm]
        omega

end Ners.Meters
