import Mathlib.Data.List.Nodup
import Mathlib.Logic.Function.Basic

set_option autoImplicit false

namespace Ners.Placement

variable {π α β κ : Type} [DecidableEq π]

-- Items lie in order at places. The oldest item of a place moves to the end of
-- another or goes away, and new items come in at an end.
def move (p q : π) (f : π → List α) : π → List α :=
  match f p with
  | [] => f
  | x :: rest => Function.update (Function.update f p rest) q (f q ++ [x])

def leave (p : π) (f : π → List α) : π → List α := Function.update f p (f p).tail

def enter (p : π) (x : α) (f : π → List α) : π → List α := Function.update f p (f p ++ [x])

structure Apart (key : α → κ) (f : π → List α) : Prop where
  each : ∀ p, ((f p).map key).Nodup
  across : ∀ p q, p ≠ q → ∀ a ∈ f p, ∀ b ∈ f q, key a ≠ key b

theorem update_same (f : π → List α) (p : π) (items : List α) (same : f p = items) : Function.update f p items = f := by
  rw [← same, Function.update_eq_self]

theorem move_front (p q : π) (f : π → List α) (x : α) (rest : List α) (front : f p = x :: rest) :
    move p q f = Function.update (Function.update f p rest) q (f q ++ [x]) := by
  rw [move, front]

theorem move_at_source (p q : π) (f : π → List α) (x : α) (rest : List α) (front : f p = x :: rest) (differ : p ≠ q) :
    move p q f p = rest := by
  rw [move_front p q f x rest front, Function.update_of_ne differ, Function.update_self]

theorem move_at_target (p q : π) (f : π → List α) (x : α) (rest : List α) (front : f p = x :: rest) :
    move p q f q = f q ++ [x] := by
  rw [move_front p q f x rest front, Function.update_self]

theorem move_elsewhere (p q r : π) (f : π → List α) (source : r ≠ p) (target : r ≠ q) : move p q f r = f r := by
  cases front : f p with
  | nil => rw [move, front]
  | cons x rest => rw [move_front p q f x rest front, Function.update_of_ne target, Function.update_of_ne source]

theorem leave_elsewhere (p r : π) (f : π → List α) (source : r ≠ p) : leave p f r = f r := Function.update_of_ne source _ _

theorem mem_move (p q r : π) (f : π → List α) (x a : α) (rest : List α) (front : f p = x :: rest) (differ : p ≠ q)
    (member : a ∈ move p q f r) : a ∈ f r ∨ (r = q ∧ a = x) := by
  by_cases source : r = p
  · subst r
    rw [move_at_source p q f x rest front differ] at member
    exact .inl (front ▸ List.mem_cons_of_mem _ member)
  · by_cases target : r = q
    · subst r
      rw [move_at_target p q f x rest front, List.mem_append, List.mem_singleton] at member
      exact member.imp_right fun same => ⟨rfl, same⟩
    · rw [move_elsewhere p q r f source target] at member
      exact .inl member

theorem mem_leave (p r : π) (f : π → List α) (a : α) (member : a ∈ leave p f r) : a ∈ f r := by
  by_cases source : r = p
  · subst r
    rw [leave, Function.update_self] at member
    exact List.mem_of_mem_tail member
  · rwa [leave_elsewhere p r f source] at member

theorem mem_enter (p r : π) (f : π → List α) (x a : α) (member : a ∈ enter p x f r) : a ∈ f r ∨ (r = p ∧ a = x) := by
  by_cases target : r = p
  · subst r
    rw [enter, Function.update_self, List.mem_append, List.mem_singleton] at member
    exact member.imp_right fun same => ⟨rfl, same⟩
  · rw [enter, Function.update_of_ne target] at member
    exact .inl member

theorem stays_move (p q r : π) (f : π → List α) (x a : α) (rest : List α) (front : f p = x :: rest) (differ : p ≠ q)
    (member : a ∈ f r) (other : a ≠ x) : a ∈ move p q f r := by
  by_cases source : r = p
  · subst r
    rw [front, List.mem_cons] at member
    rw [move_at_source p q f x rest front differ]
    exact member.resolve_left other
  · by_cases target : r = q
    · subst r
      rw [move_at_target p q f x rest front]
      exact List.mem_append_left _ member
    · rwa [move_elsewhere p q r f source target]

theorem stays_leave (p r : π) (f : π → List α) (x a : α) (rest : List α) (front : f p = x :: rest) (member : a ∈ f r)
    (other : a ≠ x) : a ∈ leave p f r := by
  by_cases source : r = p
  · subst r
    rw [front, List.mem_cons] at member
    rw [leave, Function.update_self, front]
    exact member.resolve_left other
  · rwa [leave_elsewhere p r f source]

theorem stays_enter (p r : π) (f : π → List α) (x a : α) (member : a ∈ f r) : a ∈ enter p x f r := by
  by_cases target : r = p
  · subst r
    rw [enter, Function.update_self]
    exact List.mem_append_left _ member
  · rwa [enter, Function.update_of_ne target]

theorem arrives_move (p q : π) (f : π → List α) (x : α) (rest : List α) (front : f p = x :: rest) : x ∈ move p q f q := by
  rw [move_at_target p q f x rest front]
  exact List.mem_append_right _ List.mem_cons_self

variable (key : α → κ)

theorem front_apart (p r : π) (f : π → List α) (x a : α) (rest : List α) (front : f p = x :: rest) (apart : Apart key f)
    (member : a ∈ f r) (other : r = p → a ∈ rest) : key a ≠ key x := by
  by_cases source : r = p
  · have distinct := apart.each p
    rw [front, List.map_cons, List.nodup_cons] at distinct
    exact fun same => distinct.1 (same ▸ List.mem_map_of_mem (other source))
  · exact apart.across r p source a member x (front ▸ List.mem_cons_self)

theorem left_apart (p r : π) (f : π → List α) (x a : α) (rest : List α) (front : f p = x :: rest) (apart : Apart key f)
    (member : a ∈ leave p f r) : key a ≠ key x := by
  refine front_apart key p r f x a rest front apart (mem_leave p r f a member) ?_
  rintro rfl
  rwa [leave, Function.update_self, front, List.tail_cons] at member

theorem apart_leave (p : π) (f : π → List α) (apart : Apart key f) : Apart key (leave p f) := by
  constructor
  · intro r
    by_cases source : r = p
    · subst r
      rw [leave, Function.update_self, List.map_tail]
      exact (apart.each p).tail
    · rw [leave_elsewhere p r f source]
      exact apart.each r
  · intro r r' differ a left b right
    exact apart.across r r' differ a (mem_leave p r f a left) b (mem_leave p r' f b right)

theorem apart_enter (p : π) (x : α) (f : π → List α) (apart : Apart key f) (new : ∀ r, ∀ a ∈ f r, key a ≠ key x) :
    Apart key (enter p x f) := by
  constructor
  · intro r
    by_cases target : r = p
    · subst target
      rw [enter, Function.update_self, List.map_append, List.nodup_append]
      refine ⟨apart.each r, List.nodup_singleton _, ?_⟩
      intro k old k' added same
      obtain ⟨a, member, rfl⟩ := List.mem_map.mp old
      rw [List.map_singleton, List.mem_singleton] at added
      exact new r a member (same.trans added)
    · rw [enter, Function.update_of_ne target]
      exact apart.each r
  · intro r r' differ a left b right
    rcases mem_enter p r f x a left with old | ⟨rfl, rfl⟩
    · rcases mem_enter p r' f x b right with older | ⟨rfl, rfl⟩
      · exact apart.across r r' differ a old b older
      · exact new r a old
    · rcases mem_enter r r' f a b right with older | ⟨same, _⟩
      · exact (new r' b older).symm
      · exact absurd same.symm differ

theorem move_enter (p q : π) (f : π → List α) (x : α) (rest : List α) (front : f p = x :: rest) (differ : p ≠ q) :
    move p q f = enter q x (leave p f) := by
  rw [move_front p q f x rest front, enter, leave_elsewhere p q f (Ne.symm differ), leave, front, List.tail_cons]

theorem apart_move (p q : π) (f : π → List α) (apart : Apart key f) (differ : p ≠ q) : Apart key (move p q f) := by
  cases front : f p with
  | nil =>
      rw [move, front]
      exact apart
  | cons x rest =>
      rw [move_enter p q f x rest front differ]
      exact apart_enter key q x _ (apart_leave key p f apart) fun r a member =>
        left_apart key p r f x a rest front apart member

omit [DecidableEq π] in
theorem apart_map (f : π → List α) (apart : Apart key f) : Apart id fun p => (f p).map key := by
  refine ⟨fun p => (List.map_id _).symm ▸ apart.each p, ?_⟩
  intro p q differ k left k' right
  obtain ⟨a, here, rfl⟩ := List.mem_map.mp left
  obtain ⟨b, there, rfl⟩ := List.mem_map.mp right
  exact apart.across p q differ a here b there

omit [DecidableEq π] in
theorem apart_nodup (f : π → List α) (places : List π) (distinct : places.Nodup) (apart : Apart id f) :
    (places.flatMap f).Nodup := by
  refine List.nodup_flatMap.mpr ⟨fun p _ => List.map_id (f p) ▸ apart.each p, distinct.imp ?_⟩
  intro p q differ a left right
  exact apart.across p q differ a left a right rfl

theorem map_move (g : α → β) (p q : π) (f : π → List α) (r : π) :
    (move p q f r).map g = move p q (fun r => (f r).map g) r := by
  cases front : f p with
  | nil =>
      rw [move, front, move]
      simp only [front, List.map_nil]
  | cons x rest =>
      have mapped : (f p).map g = g x :: rest.map g := by rw [front, List.map_cons]
      rw [move_front p q f x rest front, move_front p q (fun r => (f r).map g) (g x) (rest.map g) mapped]
      by_cases target : r = q
      · subst r
        rw [Function.update_self, Function.update_self, List.map_append, List.map_singleton]
      · rw [Function.update_of_ne target, Function.update_of_ne target]
        by_cases source : r = p
        · subst r
          rw [Function.update_self, Function.update_self]
        · rw [Function.update_of_ne source, Function.update_of_ne source]

theorem map_leave (g : α → β) (p : π) (f : π → List α) (r : π) :
    (leave p f r).map g = leave p (fun r => (f r).map g) r := by
  by_cases source : r = p
  · subst r
    rw [leave, leave, Function.update_self, Function.update_self, List.map_tail]
  · rw [leave_elsewhere p r f source, leave_elsewhere p r _ source]

theorem map_enter (g : α → β) (p : π) (x : α) (f : π → List α) (r : π) :
    (enter p x f r).map g = enter p (g x) (fun r => (f r).map g) r := by
  by_cases target : r = p
  · subst r
    rw [enter, enter, Function.update_self, Function.update_self, List.map_append, List.map_singleton]
  · rw [enter, enter, Function.update_of_ne target, Function.update_of_ne target]

end Ners.Placement
