import Mathlib.Algebra.Ring.Nat
import Mathlib.Algebra.BigOperators.Group.List.Basic
import Mathlib.Data.UInt

set_option autoImplicit false

namespace Ners.Unsigned

theorem add_exact (a b : UInt64) (fits : a.toNat + b.toNat < 2 ^ 64) : (a + b).toNat = a.toNat + b.toNat := by
  rw [UInt64.toNat_add]
  exact Nat.mod_eq_of_lt fits

theorem mul_exact (a b : UInt64) (fits : a.toNat * b.toNat < 2 ^ 64) : (a * b).toNat = a.toNat * b.toNat := by
  rw [UInt64.toNat_mul]
  exact Nat.mod_eq_of_lt fits

theorem inc_exact (a : UInt64) (fits : a.toNat + 1 < 2 ^ 64) : (a + 1).toNat = a.toNat + 1 := add_exact a 1 fits

theorem dec_exact (a : UInt64) (above : 0 < a.toNat) : (a - 1).toNat = a.toNat - 1 := by
  refine UInt64.toNat_sub_of_le a 1 ?_
  rw [UInt64.le_iff_toNat_le]
  exact above

-- Whatever the counter holds, one step of it shows.
theorem dec_moves (a : UInt64) : (a - 1).toNat ≠ a.toNat := by
  intro same
  have word := a.toNat_lt
  rw [UInt64.toNat_sub] at same
  have one : (1 : UInt64).toNat = 1 := rfl
  omega

theorem sum_exact (values : List UInt64) (fits : (values.map UInt64.toNat).sum < 2 ^ 64) :
    values.sum.toNat = (values.map UInt64.toNat).sum := by
  induction values with
  | nil => rfl
  | cons a rest ih =>
      rw [List.map_cons, List.sum_cons] at fits
      rw [List.map_cons, List.sum_cons, List.sum_cons, add_exact, ih (by omega)]
      rw [ih (by omega)]
      exact fits

theorem sum_low (values : List UInt64) : values.sum.toNat = (values.map UInt64.toNat).sum % 2 ^ 64 := by
  induction values with
  | nil => rfl
  | cons a rest ih => rw [List.map_cons, List.sum_cons, List.sum_cons, UInt64.toNat_add, ih, Nat.add_mod_mod]

end Ners.Unsigned
