import Mathlib.Data.List.Induction

set_option autoImplicit false

namespace Ners.Window

variable {α : Type}

-- A log of bounded length: the oldest entry makes way for a new one.
def evict (limit : Nat) (log : List α) : List α := if limit ≤ log.length then log.tail else log

def push (limit : Nat) (log : List α) (x : α) : List α := evict limit log ++ [x]

def pushAll (limit : Nat) (log more : List α) : List α := more.foldl (push limit) log

theorem push_all_snoc (limit : Nat) (log more : List α) (x : α) :
    pushAll limit log (more ++ [x]) = push limit (pushAll limit log more) x := by
  rw [pushAll, List.foldl_append]
  rfl

theorem evict_suffix (limit : Nat) (log : List α) : evict limit log <:+ log := by
  unfold evict
  split
  · exact List.tail_suffix log
  · exact List.suffix_rfl

theorem mem_push_all (limit : Nat) (log more : List α) (x : α) (member : x ∈ pushAll limit log more) : x ∈ log ∨ x ∈ more := by
  induction more using List.reverseRecOn with
  | nil => exact .inl member
  | append_singleton more y ih =>
      rw [push_all_snoc, push, List.mem_append, List.mem_singleton] at member
      rcases member with old | rfl
      · exact (ih ((evict_suffix _ _).mem old)).imp_right (List.mem_append_left _)
      · exact .inr (List.mem_append_right _ List.mem_cons_self)

-- Entries that fit into the log all stay, behind what is left of it.
theorem push_all_keeps (limit : Nat) (log more : List α) (fits : more.length ≤ limit) :
    ∃ rest, rest <:+ log ∧ pushAll limit log more = rest ++ more := by
  induction more using List.reverseRecOn with
  | nil => exact ⟨log, List.suffix_rfl, (List.append_nil log).symm⟩
  | append_singleton more x ih =>
      rw [List.length_append, List.length_singleton] at fits
      obtain ⟨rest, suffix, pushed⟩ := ih (by omega)
      rw [push_all_snoc, push, pushed]
      unfold evict
      split
      · rename_i full
        cases rest with
        | nil =>
            rw [List.nil_append] at full
            omega
        | cons oldest rest => exact ⟨rest, (List.suffix_cons oldest rest).trans suffix, (List.append_assoc _ _ _)⟩
      · exact ⟨rest, suffix, List.append_assoc _ _ _⟩

theorem push_all_last (limit : Nat) (log more : List α) (x : α) : (pushAll limit log (more ++ [x])).getLast? = some x := by
  rw [push_all_snoc, push, List.getLast?_concat]

-- A log that started empty holds the newest entries.
theorem push_all_recent (limit : Nat) (more : List α) (positive : 0 < limit) :
    pushAll limit [] more = more.drop (more.length - limit) := by
  induction more using List.reverseRecOn with
  | nil => exact List.drop_nil.symm
  | append_singleton more x ih =>
      rw [push_all_snoc, push, ih, List.length_append, List.length_singleton]
      unfold evict
      split
      · rename_i full
        rw [List.length_drop] at full
        rw [List.tail_drop, List.drop_append_of_le_length (by omega), Nat.sub_add_comm (by omega)]
      · rename_i room
        rw [List.length_drop] at room
        rw [Nat.sub_eq_zero_of_le (by omega), Nat.sub_eq_zero_of_le (by omega), List.drop_zero, List.drop_zero]

-- What an eviction leaves of them is one entry shorter.
theorem evict_recent (limit : Nat) (log : List α) (positive : 0 < limit) :
    evict limit (log.drop (log.length - limit)) = log.drop (log.length - (limit - 1)) := by
  unfold evict
  split
  · rename_i full
    rw [List.length_drop] at full
    rw [List.tail_drop]
    congr 1
    omega
  · rename_i room
    rw [List.length_drop] at room
    rw [Nat.sub_eq_zero_of_le (by omega), Nat.sub_eq_zero_of_le (by omega)]

end Ners.Window
