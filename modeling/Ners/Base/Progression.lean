import Mathlib.Algebra.Ring.Nat
import Mathlib.Algebra.BigOperators.Group.List.Basic
import Mathlib.Data.List.Range
import Mathlib.Tactic.Ring

set_option autoImplicit false

namespace Ners.Progression

-- The terms of an arithmetic progression.
def terms (start step count : Nat) : List Nat := (List.range count).map fun i => start + i * step

-- By how much the mean of the last `count` terms stays behind the next term,
-- when it is rounded down.
def lag (step count : Nat) : Nat := (step * (count + 1) + 1) / 2

theorem terms_succ (start step count : Nat) :
    terms start step (count + 1) = terms start step count ++ [start + count * step] := by
  rw [terms, terms, List.range_succ, List.map_append, List.map_singleton]

theorem terms_sum (start step count : Nat) :
    2 * (terms start step count).sum + step * count = 2 * (count * start) + step * count * count := by
  induction count with
  | zero => simp [terms]
  | succ count ih =>
      rw [terms_succ, List.sum_append, List.sum_singleton]
      calc 2 * ((terms start step count).sum + (start + count * step)) + step * (count + 1)
          = 2 * (terms start step count).sum + step * count + 2 * (start + count * step) + step := by ring
        _ = 2 * (count * start) + step * count * count + 2 * (start + count * step) + step := by rw [ih]
        _ = 2 * ((count + 1) * start) + step * (count + 1) * (count + 1) := by ring

-- Twice the sum, in terms of the term that follows.
theorem terms_sum_next (start step count : Nat) :
    2 * (terms start step count).sum + count * (step * (count + 1)) = 2 * (count * (start + count * step)) := by
  have sum := terms_sum start step count
  calc 2 * (terms start step count).sum + count * (step * (count + 1))
      = 2 * (terms start step count).sum + step * count + step * count * count := by ring
    _ = 2 * (count * start) + step * count * count + step * count * count := by rw [sum]
    _ = 2 * (count * (start + count * step)) := by ring

theorem lag_positive (step count : Nat) (moving : 1 ≤ step) (some : 1 ≤ count) : 1 ≤ lag step count := by
  have two : 1 * 2 ≤ step * (count + 1) := Nat.mul_le_mul moving (by omega)
  unfold lag
  omega

theorem lag_within (step count : Nat) (some : 1 ≤ count) : lag step count ≤ count * step := by
  have half : step * (count + 1) ≤ 2 * (count * step) := by
    calc step * (count + 1) ≤ step * (count + count) := Nat.mul_le_mul_left step (by omega)
      _ = 2 * (count * step) := by ring
  unfold lag
  omega

theorem terms_mean (start step count : Nat) (some : 1 ≤ count) :
    (terms start step count).sum / count = start + count * step - lag step count := by
  have sum := terms_sum_next start step count
  have within := lag_within step count some
  have even : 2 * (terms start step count).sum = count * (2 * (start + count * step) - step * (count + 1)) := by
    rw [Nat.mul_sub]
    have same : count * (2 * (start + count * step)) = 2 * (count * (start + count * step)) := by ring
    omega
  have mean : (terms start step count).sum / count = (2 * (start + count * step) - step * (count + 1)) / 2 := by
    rw [← Nat.mul_div_mul_left _ count (show 0 < 2 by decide), even, Nat.mul_comm 2 count, Nat.mul_div_mul_left _ 2 some]
  rw [mean]
  unfold lag at within ⊢
  omega

theorem terms_bound (start step count : Nat) : (terms start step count).sum ≤ count * (start + count * step) := by
  have sum := terms_sum_next start step count
  omega

@[simp] theorem terms_length (start step count : Nat) : (terms start step count).length = count := by
  rw [terms, List.length_map, List.length_range]

theorem terms_drop (start step count skipped : Nat) :
    (terms start step count).drop skipped = terms (start + skipped * step) step (count - skipped) := by
  apply List.ext_getElem?
  intro i
  rw [List.getElem?_drop, terms, terms, List.getElem?_map, List.getElem?_map]
  by_cases within : i < count - skipped
  · rw [List.getElem?_range (by omega), List.getElem?_range within, Option.map_some, Option.map_some, Nat.add_mul,
      Nat.add_assoc]
  · rw [List.getElem?_eq_none (by rw [List.length_range]; omega), List.getElem?_eq_none (by rw [List.length_range]; omega)]
    rfl

theorem terms_mono (start later step count : Nat) (ordered : start ≤ later) :
    (terms start step count).sum ≤ (terms later step count).sum := by
  have sum := terms_sum start step count
  have greater := terms_sum later step count
  have scaled := Nat.mul_le_mul_left count ordered
  omega

end Ners.Progression
