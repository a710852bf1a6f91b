import Ners.Base.Machine

set_option autoImplicit false

namespace Ners.PrefixInteger

-- Seven bits to a byte, least significant group first; the top bit of a byte
-- says that another group follows.
def groups (v : Nat) : Bytes :=
  if v < 128 then [.ofNat v] else .ofNat (v % 128 + 128) :: groups (v / 128)
termination_by v

-- The shortest code of v behind the instruction bits `high`, which are a
-- multiple of 2 ^ pfx: a small value shares the first byte, a larger one
-- fills it and continues in groups.
def code (pfx high v : Nat) : Bytes :=
  if v < 2 ^ pfx - 1 then [.ofNat (high + v)]
  else .ofNat (high + (2 ^ pfx - 1)) :: groups (v - (2 ^ pfx - 1))

theorem groups_small (v : Nat) (small : v < 128) : groups v = [.ofNat v] := by
  rw [groups, if_pos small]

theorem groups_large (v : Nat) (large : ¬ v < 128) :
    groups v = .ofNat (v % 128 + 128) :: groups (v / 128) := by
  rw [groups, if_neg large]

theorem groups_length (count v : Nat) (small : v < 128 ^ (count + 1)) : (groups v).length ≤ count + 1 := by
  induction count generalizing v with
  | zero =>
      rw [groups_small v (by simpa using small)]
      simp
  | succ count ih =>
      by_cases last : v < 128
      · rw [groups_small v last]
        simp
      · rw [Nat.pow_succ] at small
        have later := ih (v / 128) ((Nat.div_lt_iff_lt_mul (by decide)).mpr small)
        rw [groups_large v last, List.length_cons]
        omega

theorem code_small (pfx high v : Nat) (small : v < 2 ^ pfx - 1) : code pfx high v = [.ofNat (high + v)] :=
  if_pos small

theorem code_large (pfx high v : Nat) (large : ¬ v < 2 ^ pfx - 1) :
    code pfx high v = .ofNat (high + (2 ^ pfx - 1)) :: groups (v - (2 ^ pfx - 1)) := if_neg large

theorem code_head (pfx high v : Nat) :
    ∃ low rest, low < 2 ^ pfx ∧ code pfx high v = .ofNat (high + low) :: rest := by
  have positive := Nat.two_pow_pos pfx
  by_cases small : v < 2 ^ pfx - 1
  · exact ⟨v, [], by omega, code_small pfx high v small⟩
  · exact ⟨2 ^ pfx - 1, groups (v - (2 ^ pfx - 1)), by omega, code_large pfx high v small⟩

theorem code_length (pfx high v : Nat) (word : v < 2 ^ 64) : (code pfx high v).length ≤ 11 := by
  by_cases small : v < 2 ^ pfx - 1
  · rw [code_small pfx high v small]
    simp
  · have tail := groups_length 9 (v - (2 ^ pfx - 1)) (by omega)
    rw [code_large pfx high v small, List.length_cons]
    omega

-- The bytes that belong to a code from behind its first byte on, and whether the
-- last of them is there.
def continuation : Bytes → Bytes
  | [] => []
  | b :: rest => if b.toNat < 128 then [b] else b :: continuation rest

def Ended : Bytes → Prop
  | [] => False
  | b :: rest => b.toNat < 128 ∨ Ended rest

instance decidableEnded : DecidablePred Ended
  | [] => .isFalse fun ended => ended
  | b :: rest =>
      have := decidableEnded rest
      inferInstanceAs (Decidable (b.toNat < 128 ∨ Ended rest))

-- What each group adds where the first of them has the given weight.
def summands : Nat → Bytes → List Nat
  | _, [] => []
  | weight, b :: rest => b.toNat % 128 * weight :: summands (weight * 128) rest

-- A code need not be the shortest of its value.
inductive Represents (pfx : Nat) : Bytes → Nat → Prop where
  | short (first : UInt8) (below : first.toNat % 2 ^ pfx < 2 ^ pfx - 1) : Represents pfx [first] (first.toNat % 2 ^ pfx)
  | long (first last : UInt8) (front : Bytes) (full : first.toNat % 2 ^ pfx = 2 ^ pfx - 1)
      (more : ∀ b ∈ front, 128 ≤ b.toNat) (final : last.toNat < 128) :
      Represents pfx (first :: (front ++ [last])) (2 ^ pfx - 1 + (summands 1 (front ++ [last])).sum)

@[simp] theorem continuation_nil : continuation [] = [] := rfl

theorem continuation_last (b : UInt8) (rest : Bytes) (last : b.toNat < 128) : continuation (b :: rest) = [b] := if_pos last

theorem continuation_more (b : UInt8) (rest : Bytes) (more : ¬ b.toNat < 128) :
    continuation (b :: rest) = b :: continuation rest := if_neg more

theorem ended_more (b : UInt8) (rest : Bytes) (more : ¬ b.toNat < 128) : Ended (b :: rest) ↔ Ended rest := or_iff_right more

theorem continuation_front (front rest : Bytes) (last : UInt8) (more : ∀ b ∈ front, 128 ≤ b.toNat) (final : last.toNat < 128) :
    continuation (front ++ last :: rest) = front ++ [last] ∧ Ended (front ++ last :: rest) := by
  induction front with
  | nil => exact ⟨continuation_last last rest final, .inl final⟩
  | cons b front ih =>
      obtain ⟨same, ended⟩ := ih fun other member => more other (List.mem_cons_of_mem b member)
      have large : ¬ b.toNat < 128 := Nat.not_lt.mpr (more b List.mem_cons_self)
      refine ⟨?_, (ended_more b _ large).mpr ended⟩
      rw [List.cons_append, continuation_more b _ large, same, List.cons_append]

-- The groups of a number are read to their end, and make it up.
theorem groups_read (v : Nat) (rest : Bytes) :
    continuation (groups v ++ rest) = groups v ∧ Ended (groups v ++ rest) ∧
      ∀ weight, (summands weight (groups v)).sum = v * weight := by
  induction v using Nat.strongRecOn with
  | ind v ih =>
      by_cases small : v < 128
      · have byte : (UInt8.ofNat v).toNat = v := byte_value v (by omega)
        have last : (UInt8.ofNat v).toNat < 128 := by omega
        rw [groups_small v small, List.singleton_append, continuation_last _ rest last]
        refine ⟨rfl, .inl last, fun weight => ?_⟩
        rw [summands, summands, List.sum_singleton, byte, Nat.mod_eq_of_lt small]
      · obtain ⟨bytes, ended, sum⟩ := ih (v / 128) (by omega)
        have byte : (UInt8.ofNat (v % 128 + 128)).toNat = v % 128 + 128 := byte_value _ (by omega)
        have more : ¬ (UInt8.ofNat (v % 128 + 128)).toNat < 128 := by omega
        rw [groups_large v small, List.cons_append, continuation_more _ _ more, bytes, ended_more _ _ more]
        refine ⟨rfl, ended, fun weight => ?_⟩
        rw [summands, List.sum_cons, sum, byte, Nat.add_mod_right, Nat.mod_mod, Nat.mul_comm weight, ← Nat.mul_assoc,
          ← Nat.add_mul, Nat.add_comm, Nat.div_add_mod']

theorem ended_split (rest : Bytes) (ended : Ended rest) : ∃ front last later, (∀ b ∈ front, 128 ≤ b.toNat) ∧ last.toNat < 128 ∧
    rest = front ++ last :: later := by
  induction rest with
  | nil => cases ended
  | cons b rest ih =>
      by_cases last : b.toNat < 128
      · exact ⟨[], b, rest, by simp, last, rfl⟩
      · obtain ⟨front, final, later, more, small, rfl⟩ := ih ((ended_more b rest last).mp ended)
        refine ⟨b :: front, final, later, fun other member => ?_, small, rfl⟩
        rcases List.mem_cons.mp member with rfl | behind
        · exact Nat.not_lt.mp last
        · exact more other behind

-- The one value that the front of some bytes represents.
theorem represented (pfx n v : Nat) (first : UInt8) (rest : Bytes) (full : first.toNat % 2 ^ pfx = 2 ^ pfx - 1)
    (code : Represents pfx ((first :: rest).take n) v) :
    Ended rest ∧ v = 2 ^ pfx - 1 + (summands 1 (continuation rest)).sum := by
  obtain ⟨bytes, taken⟩ : ∃ bytes, bytes = (first :: rest).take n := ⟨_, rfl⟩
  rw [← taken] at code
  have whole : bytes ++ (first :: rest).drop n = first :: rest := taken ▸ List.take_append_drop n (first :: rest)
  cases code with
  | short other below =>
      obtain ⟨rfl, _⟩ := List.cons.inj whole
      omega
  | long other last front same more final =>
      rw [List.cons_append, List.append_assoc, List.singleton_append] at whole
      obtain ⟨rfl, split⟩ := List.cons.inj whole
      obtain ⟨bytes, ended⟩ := continuation_front front ((other :: rest).drop n) last more final
      rw [← split]
      exact ⟨ended, by rw [bytes]⟩

theorem ended_represents (pfx : Nat) (first : UInt8) (rest : Bytes) (full : first.toNat % 2 ^ pfx = 2 ^ pfx - 1)
    (ended : Ended rest) :
    Represents pfx ((first :: rest).take ((continuation rest).length + 1)) (2 ^ pfx - 1 + (summands 1 (continuation rest)).sum) := by
  obtain ⟨front, last, later, more, final, rfl⟩ := ended_split rest ended
  rw [(continuation_front front later last more final).1]
  have taken : (front ++ last :: later).take (front ++ [last]).length = front ++ [last] := by
    rw [List.append_cons front last later, List.take_left]
  rw [List.take_succ_cons, taken]
  exact .long first last front full more final

theorem continuation_length (rest : Bytes) : (continuation rest).length ≤ rest.length := by
  induction rest with
  | nil => exact Nat.le_refl _
  | cons b rest ih =>
      by_cases last : b.toNat < 128
      · rw [continuation_last b rest last]
        exact Nat.succ_le_succ (Nat.zero_le _)
      · rw [continuation_more b rest last]
        exact Nat.succ_le_succ ih

end Ners.PrefixInteger
