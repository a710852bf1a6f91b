import Mathlib.Order.BoundedOrder.Basic
import Mathlib.Order.Lattice

set_option autoImplicit false

namespace Ners.Peak

variable {α : Type} [LinearOrder α] [OrderBot α]

-- The greatest of some values, which is the bottom element where there are none.
def peak (values : List α) : α := values.foldr max ⊥

@[simp] theorem peak_nil : peak ([] : List α) = ⊥ := rfl

@[simp] theorem peak_cons (a : α) (values : List α) : peak (a :: values) = max a (peak values) := rfl

@[simp] theorem peak_append (front back : List α) : peak (front ++ back) = max (peak front) (peak back) := by
  induction front with
  | nil => rw [List.nil_append, peak_nil, max_eq_right bot_le]
  | cons a front ih => rw [List.cons_append, peak_cons, peak_cons, ih, max_assoc]

theorem le_peak (values : List α) (a : α) (member : a ∈ values) : a ≤ peak values := by
  induction values with
  | nil => cases member
  | cons b later ih =>
      rcases List.mem_cons.mp member with rfl | behind
      · exact le_max_left _ _
      · exact (ih behind).trans (le_max_right _ _)

theorem peak_reached (values : List α) : peak values = ⊥ ∨ peak values ∈ values := by
  induction values with
  | nil => exact .inl rfl
  | cons a later ih =>
      rcases le_total a (peak later) with below | above
      · rw [peak_cons, max_eq_right below]
        exact ih.imp_right (List.mem_cons_of_mem a)
      · rw [peak_cons, max_eq_left above]
        exact .inr List.mem_cons_self

end Ners.Peak
