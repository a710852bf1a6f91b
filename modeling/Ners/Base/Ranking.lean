import Ners.Base.Runs
import Mathlib.Algebra.Ring.Nat
import Mathlib.Algebra.BigOperators.Group.List.Basic

set_option autoImplicit false

namespace Ners.Ranking

open Runs (execute)

variable {σ α : Type} {step : σ → α → Option σ}

variable (step) in
-- What the steps of a run add up to, each where it is taken.
def total (cost : σ → α → Nat) : σ → List α → Nat
  | _, [] => 0
  | s, a :: later => cost s a + (step s a).elim 0 fun s' => total cost s' later

theorem total_cons (cost : σ → α → Nat) (s s' : σ) (a : α) (later : List α) (taken : step s a = some s') :
    total step cost s (a :: later) = cost s a + total step cost s' later := by
  rw [total, taken, Option.elim_some]

theorem total_sum (cost : α → Nat) (start final : σ) (actions : List α) (executed : execute step start actions = some final) :
    total step (fun _ a => cost a) start actions = (actions.map cost).sum := by
  induction actions generalizing start with
  | nil => rfl
  | cons a later ih =>
      obtain ⟨middle, taken, rest⟩ := Option.bind_eq_some_iff.mp executed
      rw [total_cons _ start middle a later taken, ih middle rest, List.map_cons, List.sum_cons]

theorem sum_count (counts : α → Bool) (actions : List α) :
    (actions.map fun a => if counts a then 1 else 0).sum = actions.countP counts := by
  induction actions with
  | nil => rfl
  | cons a later ih =>
      rw [List.map_cons, List.sum_cons, List.countP_cons, ih]
      exact Nat.add_comm _ _

variable (Inv : σ → Prop) (rank : σ → Nat) (cost credit : σ → α → Nat)

-- Each step is paid for by the rank of the state it is taken in and by what it
-- brings.
structure Pays (step : σ → α → Option σ) : Prop where
  kept : ∀ s a s', Inv s → step s a = some s' → Inv s'
  paid : ∀ s a s', Inv s → step s a = some s' → rank s' + cost s a ≤ rank s + credit s a

variable {Inv rank cost credit}

-- So the rank of the start, with all that is brought, pays for a whole run.
theorem run_paid (pays : Pays Inv rank cost credit step) (start final : σ) (actions : List α) (inv : Inv start)
    (executed : execute step start actions = some final) :
    rank final + total step cost start actions ≤ rank start + total step credit start actions := by
  induction actions generalizing start with
  | nil =>
      obtain rfl := Option.some.inj executed
      exact Nat.le_refl _
  | cons a later ih =>
      obtain ⟨middle, taken, rest⟩ := Option.bind_eq_some_iff.mp executed
      have first := pays.paid start a middle inv taken
      have onward := ih middle (pays.kept start a middle inv taken) rest
      rw [total_cons cost start middle a later taken, total_cons credit start middle a later taken]
      omega

-- Steps of one kind lower the rank and no other raises it.
theorem count_paid (counts : α → Bool) (pays : Pays Inv rank (fun _ a => if counts a then 1 else 0) (fun _ _ => 0) step)
    (start final : σ) (actions : List α) (inv : Inv start) (executed : execute step start actions = some final) :
    actions.countP counts ≤ rank start := by
  have paid := run_paid pays start final actions inv executed
  rw [total_sum (fun a => if counts a then 1 else 0) start final actions executed, sum_count,
    total_sum (fun _ => 0) start final actions executed] at paid
  have nothing : (actions.map fun _ => 0).sum = 0 := List.sum_eq_zero fun n member => by
    obtain ⟨_, _, rfl⟩ := List.mem_map.mp member
    rfl
  omega

end Ners.Ranking
