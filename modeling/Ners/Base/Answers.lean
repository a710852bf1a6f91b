import Mathlib.Data.List.Basic

set_option autoImplicit false

namespace Ners.Answers

variable {σ τ α β : Type} (call : σ → α → Option (β × σ)) (spec : τ → α → β × τ)

-- What a machine answers to calls one after the other, and what it is left as.
def answers : σ → List α → Option (List β × σ)
  | s, [] => some ([], s)
  | s, a :: later => (call s a).bind fun next => (answers next.2 later).map fun rest => (next.1 :: rest.1, rest.2)

def specified : τ → List α → List β × τ
  | t, [] => ([], t)
  | t, a :: later => ((spec t a).1 :: (specified (spec t a).2 later).1, (specified (spec t a).2 later).2)

variable {call} {spec}

-- A relation that every call keeps, with one answer on both sides, gives one
-- list of answers to every list of calls.
theorem answers_refine (Rel : σ → τ → Prop) (allowed : α → Prop)
    (each : ∀ s t a, Rel s t → allowed a → ∃ s', call s a = some ((spec t a).1, s') ∧ Rel s' (spec t a).2)
    (calls : List α) (s : σ) (t : τ) (related : Rel s t) (may : ∀ a ∈ calls, allowed a) :
    ∃ s', answers call s calls = some ((specified spec t calls).1, s') ∧ Rel s' (specified spec t calls).2 := by
  induction calls generalizing s t with
  | nil => exact ⟨s, rfl, related⟩
  | cons a later ih =>
      obtain ⟨middle, answered, kept⟩ := each s t a related (may a List.mem_cons_self)
      obtain ⟨last, rest, final⟩ := ih middle (spec t a).2 kept fun b member => may b (List.mem_cons_of_mem _ member)
      refine ⟨last, ?_, final⟩
      rw [answers, answered, Option.bind_some, rest]
      rfl

end Ners.Answers
