import Mathlib.Data.List.Basic
import Mathlib.Data.List.Induction
import Mathlib.Data.List.TakeWhile

set_option autoImplicit false

namespace Ners.History

variable {α : Type} (p : α → Bool)

-- From the first entry that meets a condition on.
def since (history : List α) : List α := history.dropWhile fun a => !p a

-- Up to the first entry that meets a condition, and with it.
def through : List α → List α
  | [] => []
  | a :: later => if p a then [a] else a :: through later

theorem since_snoc (history : List α) (a : α) :
    since p (history ++ [a]) = if since p history = [] then (if p a then [a] else []) else since p history ++ [a] := by
  unfold since
  rw [List.dropWhile_append]
  by_cases empty : history.dropWhile (fun a => !p a) = []
  · rw [empty, List.isEmpty_nil, if_pos rfl, if_pos rfl, List.dropWhile_cons, List.dropWhile_nil]
    cases p a <;> rfl
  · rw [if_neg empty, if_neg (by simpa using empty)]

theorem since_append (history later : List α) (met : since p history ≠ []) : since p (history ++ later) = since p history ++ later := by
  unfold since at met ⊢
  rw [List.dropWhile_append, if_neg (by simpa using met)]

theorem through_snoc (history : List α) (a : α) :
    through p (history ++ [a]) = if history.any p then through p history else through p history ++ [a] := by
  induction history with
  | nil =>
      rw [List.nil_append, through, through]
      cases p a <;> rfl
  | cons b later ih =>
      rw [List.cons_append, through, through, ih, List.any_cons]
      cases p b with
      | true => rfl
      | false =>
          cases later.any p <;> rfl

theorem since_nil (history : List α) : since p history = [] ↔ ∀ a ∈ history, p a = false := by
  rw [since, List.dropWhile_eq_nil_iff]
  simp only [Bool.not_eq_true']

theorem since_filter_nil (q : α → Bool) (history : List α) (inside : ∀ a, p a = true → q a = true) :
    since p (history.filter q) = [] ↔ since p history = [] := by
  rw [since_nil, since_nil]
  refine ⟨fun none a member => ?_, fun none a member => none a (List.mem_of_mem_filter member)⟩
  cases meets : p a with
  | false => rfl
  | true => exact meets.symm.trans (none a (List.mem_filter.mpr ⟨member, inside a meets⟩))

theorem since_filter (q : α → Bool) (history : List α) (inside : ∀ a, p a = true → q a = true) :
    since p (history.filter q) = (since p history).filter q := by
  induction history with
  | nil => rfl
  | cons a later ih =>
      unfold since at ih ⊢
      cases meets : p a with
      | true => rw [List.filter_cons_of_pos (inside a meets), List.dropWhile_cons, List.dropWhile_cons, meets,
          if_neg (by decide), if_neg (by decide), List.filter_cons_of_pos (inside a meets)]
      | false =>
          have skipped : (a :: later).dropWhile (fun a => !p a) = later.dropWhile fun a => !p a := by
            rw [List.dropWhile_cons, meets, if_pos (by decide)]
          rw [skipped, ← ih]
          cases kept : q a with
          | true => rw [List.filter_cons_of_pos kept, List.dropWhile_cons, meets, if_pos (by decide)]
          | false => rw [List.filter_cons_of_neg (by rw [kept]; decide)]

theorem through_filter (q : α → Bool) (history : List α) (inside : ∀ a, p a = true → q a = true) :
    through p (history.filter q) = (through p history).filter q := by
  induction history with
  | nil => rfl
  | cons a later ih =>
      cases meets : p a with
      | true =>
          rw [List.filter_cons_of_pos (inside a meets), through, through, meets, if_pos rfl, if_pos rfl]
          rw [List.filter_cons_of_pos (inside a meets), List.filter_nil]
      | false =>
          rw [through, meets, if_neg (by decide)]
          cases kept : q a with
          | true => rw [List.filter_cons_of_pos kept, through, meets, if_neg (by decide), List.filter_cons_of_pos kept, ih]
          | false =>
              have drop : ¬ q a = true := by
                rw [kept]
                decide
              rw [List.filter_cons_of_neg drop, List.filter_cons_of_neg drop, ih]

theorem since_map (f : α → α) (history : List α) (same : ∀ a, p (f a) = p a) :
    since p (history.map f) = (since p history).map f := by
  unfold since
  rw [List.dropWhile_map]
  congr 2
  funext a
  rw [Function.comp_apply, same]

theorem through_map (f : α → α) (history : List α) (same : ∀ a, p (f a) = p a) :
    through p (history.map f) = (through p history).map f := by
  induction history with
  | nil => rfl
  | cons a later ih =>
      rw [List.map_cons, through, through, same, ih]
      cases p a <;> rfl

end Ners.History
