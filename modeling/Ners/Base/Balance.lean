import Mathlib.Data.Int.Basic

set_option autoImplicit false

namespace Ners.Balance

variable {σ τ : Type} (value : σ → Int) (due : τ → Int)

-- A holder is there when its entry in the books is, and holds what is due.
structure Balanced (entry : Option τ) (holder : Option σ) : Prop where
  agrees : holder.map value = entry.map due
  bound : ∀ x, holder = some x → 0 ≤ value x

theorem balanced_none : Balanced value due none none := ⟨rfl, fun _ there => by cases there⟩

variable {value due}

theorem balanced_some_iff (t : τ) (x : σ) : Balanced value due (some t) (some x) ↔ value x = due t ∧ 0 ≤ value x := by
  constructor
  · rintro ⟨agrees, bound⟩
    exact ⟨Option.some.inj agrees, bound x rfl⟩
  · rintro ⟨agrees, bound⟩
    refine ⟨congrArg some agrees, fun y there => ?_⟩
    obtain rfl := Option.some.inj there
    exact bound

theorem entry_some (entry : Option τ) (x : σ) (balanced : Balanced value due entry (some x)) : ∃ t, entry = some t := by
  have agrees := balanced.agrees
  rw [Option.map_some, eq_comm, Option.map_eq_some_iff] at agrees
  obtain ⟨t, there, _⟩ := agrees
  exact ⟨t, there⟩

theorem entry_none (entry : Option τ) (balanced : Balanced value due entry none) : entry = none := by
  have agrees := balanced.agrees
  rw [Option.map_none, eq_comm, Option.map_eq_none_iff] at agrees
  exact agrees

theorem same_value (entry : Option τ) (holder after : Option σ) (same : after.map value = holder.map value)
    (balanced : Balanced value due entry holder) : Balanced value due entry after := by
  refine ⟨same.trans balanced.agrees, fun x there => ?_⟩
  subst there
  rw [Option.map_some, eq_comm, Option.map_eq_some_iff] at same
  obtain ⟨old, rfl, equal⟩ := same
  exact equal ▸ balanced.bound old rfl

theorem moved_iff (t after : τ) (x y : σ) (change : Int) (balanced : Balanced value due (some t) (some x))
    (booked : due after = due t + change) :
    Balanced value due (some after) (some y) ↔ value y = value x + change ∧ 0 ≤ value y := by
  obtain ⟨agrees, _⟩ := (balanced_some_iff t x).mp balanced
  rw [balanced_some_iff, booked, agrees]

-- A new entry for a new holder, which then both stay.
theorem opened_balanced (entry : Option τ) (holder : Option σ) (fresh : τ) (new : σ) (f : σ → σ)
    (keeps : ∀ x, value (f x) = value x) (start : value new = due fresh) (bound : 0 ≤ value new)
    (balanced : Balanced value due entry holder) : Balanced value due (some (entry.getD fresh)) (some (f (holder.getD new))) := by
  rw [balanced_some_iff, keeps]
  cases holder with
  | none =>
      rw [entry_none entry balanced, Option.getD_none, Option.getD_none]
      exact ⟨start, bound⟩
  | some x =>
      obtain ⟨t, rfl⟩ := entry_some entry x balanced
      exact (balanced_some_iff t x).mp balanced

end Ners.Balance
