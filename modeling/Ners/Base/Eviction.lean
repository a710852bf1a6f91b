import Mathlib.Algebra.Ring.Nat
import Mathlib.Data.List.Basic

set_option autoImplicit false

namespace Ners.Eviction

variable {α : Type} (size : α → Nat)

def total (rows : List α) : Nat := (rows.map size).sum

-- Rows are ordered newest first, so eviction keeps a front part of them.
structure LongestFit (limit : Nat) (rows kept : List α) : Prop where
  front : kept <+: rows
  within : total size kept ≤ limit
  longest : ∀ other, other <+: rows → total size other ≤ limit → other <+: kept

def fit (limit : Nat) : List α → List α
  | [] => []
  | row :: tail => if size row ≤ limit then row :: fit (limit - size row) tail else []

@[simp] theorem total_nil : total size [] = 0 := rfl

@[simp] theorem total_cons (row : α) (tail : List α) : total size (row :: tail) = size row + total size tail := by
  simp [total]

@[simp] theorem total_append (a b : List α) : total size (a ++ b) = total size a + total size b := by
  simp [total]

@[simp] theorem total_reverse (rows : List α) : total size rows.reverse = total size rows := by
  simp [total]

theorem longest_fit_all (limit : Nat) (rows : List α) (within : total size rows ≤ limit) :
    LongestFit size limit rows rows :=
  ⟨List.prefix_refl _, within, fun _ front _ => front⟩

theorem longest_fit_drop (limit : Nat) (rows kept : List α) (oldest : α)
    (beyond : limit < total size (rows ++ [oldest])) (fits : LongestFit size limit rows kept) :
    LongestFit size limit (rows ++ [oldest]) kept := by
  refine ⟨fits.front.trans (List.prefix_append _ _), fits.within, ?_⟩
  intro other front within
  apply fits.longest other ?_ within
  rcases List.prefix_concat_iff.mp front with whole | proper
  · subst whole
    omega
  · exact proper

theorem longest_fit_cons (limit : Nat) (row : α) (rows kept : List α) (room : size row ≤ limit)
    (fits : LongestFit size (limit - size row) rows kept) : LongestFit size limit (row :: rows) (row :: kept) := by
  refine ⟨(List.cons_prefix_cons).mpr ⟨rfl, fits.front⟩, ?_, ?_⟩
  · have within := fits.within
    rw [total_cons]
    omega
  · intro other front within
    cases other with
    | nil => exact List.nil_prefix
    | cons head tail =>
        obtain ⟨rfl, tailFront⟩ := List.cons_prefix_cons.mp front
        rw [total_cons] at within
        exact List.cons_prefix_cons.mpr ⟨rfl, fits.longest tail tailFront (by omega)⟩

theorem longest_fit_oversize (limit : Nat) (row : α) (rows : List α) (beyond : limit < size row) :
    LongestFit size limit (row :: rows) [] := by
  refine ⟨List.nil_prefix, Nat.zero_le _, ?_⟩
  intro other front within
  cases other with
  | nil => exact List.nil_prefix
  | cons head tail =>
      obtain ⟨rfl, _⟩ := List.cons_prefix_cons.mp front
      rw [total_cons] at within
      omega

theorem fit_longest (limit : Nat) (rows : List α) : LongestFit size limit rows (fit size limit rows) := by
  induction rows generalizing limit with
  | nil => exact longest_fit_all size limit [] (Nat.zero_le _)
  | cons row tail ih =>
      by_cases room : size row ≤ limit
      · rw [fit, if_pos room]
        exact longest_fit_cons size limit row tail _ room (ih (limit - size row))
      · rw [fit, if_neg room]
        exact longest_fit_oversize size limit row tail (by omega)

theorem longest_fit_unique (limit : Nat) (rows a b : List α) (left : LongestFit size limit rows a)
    (right : LongestFit size limit rows b) : a = b := by
  have ab := right.longest a left.front left.within
  have ba := left.longest b right.front right.within
  exact ab.eq_of_length (Nat.le_antisymm ab.length_le ba.length_le)

end Ners.Eviction
