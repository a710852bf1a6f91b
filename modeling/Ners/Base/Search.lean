import Mathlib.Data.List.Basic

set_option autoImplicit false

namespace Ners.Search

variable {α : Type}

def Occurs (pattern text : List α) (i : Nat) : Prop :=
  ∃ front back, text = front ++ pattern ++ back ∧ front.length = i

def First (pattern text : List α) (i : Nat) : Prop := Occurs pattern text i ∧ ∀ j < i, ¬ Occurs pattern text j

theorem occurs_bound (pattern text : List α) (i : Nat) (here : Occurs pattern text i) :
    i + pattern.length ≤ text.length := by
  obtain ⟨front, back, rfl, rfl⟩ := here
  simp only [List.length_append]
  omega

theorem occurs_append (pattern text suffix : List α) (i : Nat) (here : Occurs pattern text i) :
    Occurs pattern (text ++ suffix) i := by
  obtain ⟨front, back, rfl, size⟩ := here
  exact ⟨front, back ++ suffix, by simp only [List.append_assoc], size⟩

theorem occurs_front (pattern text suffix : List α) (i : Nat) (here : Occurs pattern (text ++ suffix) i)
    (within : i + pattern.length ≤ text.length) : Occurs pattern text i := by
  obtain ⟨front, back, split, rfl⟩ := here
  have inside : front ++ pattern <+: text := by
    have front' : front ++ pattern <+: text ++ suffix := ⟨back, split.symm⟩
    apply List.prefix_of_prefix_length_le front' (List.prefix_append text suffix)
    rw [List.length_append]
    exact within
  obtain ⟨rest, same⟩ := inside
  exact ⟨front, rest, same.symm, rfl⟩

theorem occurs_zero (pattern text : List α) : Occurs pattern text 0 ↔ pattern <+: text := by
  constructor
  · rintro ⟨front, back, rfl, size⟩
    obtain rfl := List.length_eq_zero_iff.mp size
    exact List.prefix_append pattern back
  · rintro ⟨back, rfl⟩
    exact ⟨[], back, rfl, rfl⟩

theorem occurs_succ (pattern text : List α) (a : α) (i : Nat) :
    Occurs pattern (a :: text) (i + 1) ↔ Occurs pattern text i := by
  constructor
  · rintro ⟨front, back, split, size⟩
    cases front with
    | nil => cases size
    | cons b front =>
        simp only [List.cons_append, List.cons.injEq] at split
        exact ⟨front, back, split.2, Nat.succ.inj size⟩
  · rintro ⟨front, back, rfl, rfl⟩
    exact ⟨a :: front, back, rfl, rfl⟩

theorem first_unique (pattern text : List α) (i j : Nat) (one : First pattern text i) (other : First pattern text j) :
    i = j := by
  rcases Nat.lt_trichotomy i j with less | same | more
  · exact absurd one.1 (other.2 i less)
  · exact same
  · exact absurd other.1 (one.2 j more)

theorem first_append (pattern text suffix : List α) (i : Nat) (first : First pattern text i) :
    First pattern (text ++ suffix) i := by
  refine ⟨occurs_append pattern text suffix i first.1, fun j before again => first.2 j before ?_⟩
  have bound := occurs_bound pattern text i first.1
  exact occurs_front pattern text suffix j again (by omega)

theorem first_take (pattern text : List α) (i k : Nat) (first : First pattern text i) (within : i + pattern.length ≤ k) :
    First pattern (text.take k) i := by
  have bound := occurs_bound pattern text i first.1
  rw [← List.take_append_drop k text] at first
  refine ⟨occurs_front pattern _ _ i first.1 (by rw [List.length_take]; omega), fun j before again => ?_⟩
  exact first.2 j before (occurs_append pattern _ _ j again)

theorem first_cut (pattern text : List α) (i k : Nat) (first : First pattern text i) (short : k < i + pattern.length)
    (j : Nat) : ¬ Occurs pattern (text.take k) j := by
  intro again
  have bound := occurs_bound pattern _ j again
  rw [List.length_take] at bound
  rw [← List.take_append_drop k text] at first
  exact first.2 j (by omega) (occurs_append pattern _ _ j again)

theorem first_agrees (pattern text other : List α) (i : Nat) (first : First pattern text i)
    (same : other.take (i + pattern.length) = text.take (i + pattern.length)) : First pattern other i := by
  have front := first_take pattern text i _ first (Nat.le_refl _)
  rw [← same] at front
  have whole := first_append pattern _ (other.drop (i + pattern.length)) i front
  rwa [List.take_append_drop] at whole

theorem occurs_behind (pattern front later : List α) (i : Nat) :
    Occurs pattern (front ++ later) (front.length + i) ↔ Occurs pattern later i := by
  induction front with
  | nil => rw [List.nil_append, List.length_nil, Nat.zero_add]
  | cons a front ih =>
      rw [List.cons_append, List.length_cons, Nat.add_right_comm, occurs_succ]
      exact ih

theorem occurs_member (pattern text : List α) (a : α) (i : Nat) (here : Occurs (a :: pattern) text i) : text[i]? = some a := by
  obtain ⟨front, back, rfl, rfl⟩ := here
  simp

theorem first_head (pattern front back : List α) (a : α) (foreign : a ∉ front) :
    First (a :: pattern) (front ++ a :: pattern ++ back) front.length := by
  refine ⟨⟨front, back, rfl, rfl⟩, fun j before again => ?_⟩
  have at' := occurs_member pattern _ a j again
  rw [List.append_assoc, List.getElem?_append_left before] at at'
  exact foreign (List.mem_of_getElem? at')

theorem occurs_apart (pattern text later : List α) (a : α) (i : Nat) (foreign : a ∉ pattern) (before : i ≤ text.length)
    (here : Occurs pattern (text ++ a :: later) i) : i + pattern.length ≤ text.length := by
  obtain ⟨front, back, split, rfl⟩ := here
  by_cases within : front.length + pattern.length ≤ text.length
  · exact within
  · have at' : (text ++ a :: later)[text.length]? = some a := by simp
    rw [split, List.append_assoc, List.getElem?_append_right before, List.getElem?_append_left (by omega)] at at'
    exact absurd (List.mem_of_getElem? at') foreign

theorem first_past (pattern text later : List α) (a : α) (i : Nat) (clear : ∀ j, ¬ Occurs pattern text j)
    (foreign : a ∉ pattern) (first : First pattern later i) : First pattern (text ++ a :: later) (text.length + (i + 1)) := by
  refine ⟨(occurs_behind _ _ _ _).mpr ((occurs_succ _ _ _ _).mpr first.1), fun j before again => ?_⟩
  by_cases within : j ≤ text.length
  · have inside := occurs_apart pattern text later a j foreign within again
    exact clear j (occurs_front pattern text _ j again inside)
  · obtain ⟨k, rfl⟩ : ∃ k, j = text.length + (k + 1) := ⟨j - text.length - 1, by omega⟩
    exact first.2 k (by omega) ((occurs_succ _ _ _ _).mp ((occurs_behind _ _ _ _).mp again))

end Ners.Search
