import Ners.Base.Runs

set_option autoImplicit false

namespace Ners.Refinement

open Runs (execute execute_append execute_snoc carried carried_snoc)

variable {σ τ α β : Type} (step : σ → α → Option σ) (call : σ → α → Option β) (whole : τ → β → Option τ)

-- The calls that a fine-grained run completes, each at the step at which it
-- takes effect.
def completed (start : σ) (actions : List α) : List β :=
  carried step (fun s a done => done ++ (call s a).toList) start [] actions

theorem completed_snoc (start s : σ) (before : List α) (a : α) (reached : execute step start before = some s) :
    completed step call start (before ++ [a]) = completed step call start before ++ (call s a).toList :=
  carried_snoc _ start s [] before a reached

variable {step call whole}

-- Each fine step takes effect as the call that it completes, or not at all.
theorem run_refines (Shows : σ → τ → Prop) (start : σ) (first : τ) (base : Shows start first)
    (follows : ∀ s t a s', Shows s t → step s a = some s' →
      ∃ t', execute whole t (call s a).toList = some t' ∧ Shows s' t')
    (actions : List α) (s : σ) (executed : execute step start actions = some s) :
    ∃ t, execute whole first (completed step call start actions) = some t ∧ Shows s t := by
  induction actions using List.reverseRecOn generalizing s with
  | nil =>
      obtain rfl := Option.some.inj executed
      exact ⟨first, rfl, base⟩
  | append_singleton before a ih =>
      rw [execute_snoc, Option.bind_eq_some_iff] at executed
      obtain ⟨middle, earlier, taken⟩ := executed
      obtain ⟨t, reached, shows⟩ := ih middle earlier
      obtain ⟨t', onward, shows'⟩ := follows middle t a s shows taken
      refine ⟨t', ?_, shows'⟩
      rw [completed_snoc step call start middle before a earlier, execute_append, reached]
      exact onward

theorem completed_cons (start middle : σ) (a : α) (later : List α) (taken : step start a = some middle)
    (goes : ∃ last, execute step middle later = some last) :
    completed step call start (a :: later) = (call start a).toList ++ completed step call middle later := by
  induction later using List.reverseRecOn with
  | nil =>
      rw [completed, carried, taken]
      exact (List.append_nil _).symm
  | append_singleton before b ih =>
      obtain ⟨last, onward⟩ := goes
      rw [execute_snoc, Option.bind_eq_some_iff] at onward
      obtain ⟨s, reached, _⟩ := onward
      have further : execute step start (a :: before) = some s := by
        rw [execute, taken]
        exact reached
      rw [← List.cons_append, completed_snoc step call start s _ b further, completed_snoc step call middle s before b reached,
        ih ⟨s, reached⟩, List.append_assoc]

theorem completed_append (start s last : σ) (early late : List α) (reached : execute step start early = some s)
    (onward : execute step s late = some last) :
    completed step call start (early ++ late) = completed step call start early ++ completed step call s late := by
  induction early generalizing start with
  | nil =>
      obtain rfl := Option.some.inj reached
      rfl
  | cons a later ih =>
      obtain ⟨middle, taken, rest⟩ := Option.bind_eq_some_iff.mp reached
      have whole : execute step middle (later ++ late) = some last := by
        rw [execute_append, rest]
        exact onward
      rw [List.cons_append, completed_cons start middle a _ taken ⟨last, whole⟩,
        completed_cons start middle a _ taken ⟨s, rest⟩, ih middle rest, List.append_assoc]

-- A burst goes on one step at a time.
theorem burst_cons (start middle last : σ) (a : α) (later : List α) (done : List β) (taken : step start a = some middle)
    (rest : execute step middle later = some last ∧ completed step call middle later = done) :
    execute step start (a :: later) = some last ∧ completed step call start (a :: later) = (call start a).toList ++ done := by
  refine ⟨?_, ?_⟩
  · rw [execute, taken]
    exact rest.1
  · rw [completed_cons start middle a later taken ⟨last, rest.1⟩, rest.2]

-- Each call is a burst of fine steps that nothing comes between.
theorem run_performed (rest : τ → σ)
    (performs : ∀ t b t', whole t b = some t' →
      ∃ burst, execute step (rest t) burst = some (rest t') ∧ completed step call (rest t) burst = [b])
    (calls : List β) (first t : τ) (executed : execute whole first calls = some t) :
    ∃ actions, execute step (rest first) actions = some (rest t) ∧ completed step call (rest first) actions = calls := by
  induction calls generalizing first with
  | nil =>
      obtain rfl := Option.some.inj executed
      exact ⟨[], rfl, rfl⟩
  | cons b later ih =>
      obtain ⟨middle, taken, onward⟩ := Option.bind_eq_some_iff.mp executed
      obtain ⟨burst, reached, one⟩ := performs first b middle taken
      obtain ⟨actions, last, others⟩ := ih middle onward
      refine ⟨burst ++ actions, ?_, ?_⟩
      · rw [execute_append, reached]
        exact last
      · rw [completed_append _ _ _ _ _ reached last, one, others]
        rfl

end Ners.Refinement
