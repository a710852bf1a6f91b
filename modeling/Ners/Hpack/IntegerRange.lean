import Ners.Hpack.Integer
import Mathlib.Algebra.Order.BigOperators.Group.List
import Mathlib.Algebra.Order.Group.Nat

set_option autoImplicit false

namespace Ners.Hpack

open PrefixInteger

def ArithmeticInRange (data : Bytes) (pfx : Nat) : Prop :=
  match data with
  | [] => True
  | first :: rest =>
      let mask := (1 <<< pfx) - 1
      let value := first.toNat &&& mask
      ¬ value < mask → LoopInRange rest value 0 1

structure DecodesExactly (data : Bytes) (pfx : Nat) : Prop where
  returned : ∀ v n, decodeInteger data pfx = .ok (v, n) → n ≤ data.length ∧ Represents pfx (data.take n) v
  truncated : (∀ n v, ¬ Represents pfx (data.take n) v) → ∃ e, decodeInteger data pfx = .error e
  large : ∀ n v, Represents pfx (data.take n) v → 2 ^ 64 ≤ v → ∃ e, decodeInteger data pfx = .error e
  arithmetic : ArithmeticInRange data pfx

-- At most ten groups follow a full prefix, and they keep below 2 ^ 64: all of
-- them together, or, where the last is missing, what the shifts leave of them.
def GroupsFit (data : Bytes) (pfx : Nat) : Prop :=
  match data with
  | [] => True
  | first :: rest =>
      first.toNat % 2 ^ pfx = 2 ^ pfx - 1 →
        (continuation rest).length ≤ 10 ∧
          if Ended rest then 2 ^ pfx - 1 + (summands 1 (continuation rest)).sum < 2 ^ 64
          else 2 ^ pfx - 1 + ((summands 1 (continuation rest)).map (· % 2 ^ 64)).sum < 2 ^ 64

theorem decode_short (first : UInt8) (rest : Bytes) (pfx : Nat) (below : first.toNat % 2 ^ pfx < 2 ^ pfx - 1) :
    decodeInteger (first :: rest) pfx = .ok (first.toNat % 2 ^ pfx, 1) ∧ ArithmeticInRange (first :: rest) pfx := by
  simp only [decodeInteger, ArithmeticInRange, mask_value, masked]
  exact ⟨if_pos below, fun reached => absurd below reached⟩

theorem decode_full (first : UInt8) (rest : Bytes) (pfx : Nat) (full : first.toNat % 2 ^ pfx = 2 ^ pfx - 1) :
    decodeInteger (first :: rest) pfx = decodeIntegerLoop rest (2 ^ pfx - 1) 0 1 ∧
      (ArithmeticInRange (first :: rest) pfx ↔ LoopInRange rest (2 ^ pfx - 1) 0 1) := by
  simp only [decodeInteger, ArithmeticInRange, mask_value, masked, full, lt_irrefl, if_false, not_false_eq_true, true_implies,
    iff_self, and_self]

theorem prefix_word (first : UInt8) (pfx : Nat) (full : first.toNat % 2 ^ pfx = 2 ^ pfx - 1) : 2 ^ pfx - 1 < 2 ^ 64 := by
  have byte := first.toNat_lt
  have low := Nat.mod_le first.toNat (2 ^ pfx)
  omega

theorem short_exact (first : UInt8) (rest : Bytes) (pfx : Nat) (below : first.toNat % 2 ^ pfx < 2 ^ pfx - 1) :
    DecodesExactly (first :: rest) pfx := by
  obtain ⟨decoded, arithmetic⟩ := decode_short first rest pfx below
  have code : Represents pfx ((first :: rest).take 1) (first.toNat % 2 ^ pfx) := .short first below
  refine ⟨fun v n returned => ?_, fun missing => absurd code (missing 1 _), fun n v code large => ?_, arithmetic⟩
  · cases decoded.symm.trans returned
    exact ⟨Nat.succ_le_succ (Nat.zero_le _), code⟩
  · exfalso
    cases n with
    | zero => cases code
    | succ n =>
        have byte := first.toNat_lt
        have low := Nat.mod_le first.toNat (2 ^ pfx)
        rw [List.take_succ_cons] at code
        generalize rest.take n = bytes at code
        cases code with
        | short other small => omega
        | long other last front full more final => omega

theorem full_exact_iff (first : UInt8) (rest : Bytes) (pfx : Nat) (full : first.toNat % 2 ^ pfx = 2 ^ pfx - 1) :
    DecodesExactly (first :: rest) pfx ↔ GroupsFit (first :: rest) pfx := by
  obtain ⟨decoded, arithmetic⟩ := decode_full first rest pfx full
  have range : ArithmeticInRange (first :: rest) pfx ↔ _ :=
    arithmetic.trans (loop_in_range rest (2 ^ pfx - 1) 0 (by decide) (prefix_word first pfx full))
  rw [Nat.zero_add, lowSum, Nat.mul_zero, Nat.pow_zero] at range
  have fit : GroupsFit (first :: rest) pfx ↔ _ := forall_prop_of_true full
  rw [fit]
  by_cases ended : Ended rest
  · have code := ended_represents pfx first rest full ended
    rw [if_pos ended]
    constructor
    · intro exactly
      refine ⟨(range.mp exactly.arithmetic).1, Nat.lt_of_not_le fun large => ?_⟩
      obtain ⟨e, failed⟩ := exactly.large _ _ code large
      obtain ⟨v, returned⟩ := loop_returns rest (2 ^ pfx - 1) 0 1 ended
      cases (decoded.trans returned).symm.trans failed
    · rintro ⟨few, fits⟩
      have cut : ((summands 1 (continuation rest)).map (· % 2 ^ 64)).sum = (summands 1 (continuation rest)).sum :=
        cut_sum _ _ (by omega)
      rw [cut] at range
      have inside := range.mpr ⟨few, fits⟩
      have value := decoded.trans (loop_value rest _ 0 1 ended (arithmetic.mp inside))
      rw [lowSum, Nat.pow_zero, cut, Nat.add_comm 1] at value
      refine ⟨fun v n returned => ?_, fun missing => absurd code (missing _ _), fun n v code large => ?_, inside⟩
      · cases value.symm.trans returned
        exact ⟨Nat.succ_le_succ (continuation_length rest), code⟩
      · obtain ⟨_, rfl⟩ := represented pfx n v first rest full code
        omega
  · rw [if_neg ended, ← range]
    have failed := decoded.trans (loop_truncated rest _ 0 1 ended)
    refine ⟨fun exactly => exactly.arithmetic, fun inside => ⟨fun v n returned => ?_, fun _ => ⟨_, failed⟩, fun n v code _ => ?_, inside⟩⟩
    · cases failed.symm.trans returned
    · exact absurd (represented pfx n v first rest full code).1 ended

theorem decodes_exactly_iff (data : Bytes) (pfx : Nat) : DecodesExactly data pfx ↔ GroupsFit data pfx := by
  cases data with
  | nil =>
      refine iff_of_true ⟨fun v n returned => ?_, fun _ => ⟨_, rfl⟩, fun n v code _ => ?_, trivial⟩ trivial
      · cases returned
      · rw [List.take_nil] at code
        cases code
  | cons first rest =>
      by_cases full : first.toNat % 2 ^ pfx = 2 ^ pfx - 1
      · exact full_exact_iff first rest pfx full
      · have below : first.toNat % 2 ^ pfx < 2 ^ pfx - 1 := by
          have low := Nat.mod_lt first.toNat (Nat.two_pow_pos pfx)
          omega
        exact iff_of_true (short_exact first rest pfx below) fun reached => absurd reached full

-- The tenth group is worth 2 ^ 64, and the shift by 63 drops it.
def droppedGroup : Bytes := [0x7f, 0x80, 0x80, 0x80, 0x80, 0x80, 0x80, 0x80, 0x80, 0x80, 0x02]

theorem dropped_group_accepted : decodeInteger droppedGroup 7 = .ok (127, 11) ∧ ¬ DecodesExactly droppedGroup 7 := by
  have decoded : decodeInteger droppedGroup 7 = .ok (127, 11) := by decide
  refine ⟨decoded, fun exactly => ?_⟩
  have code := (exactly.returned 127 11 decoded).2
  obtain ⟨_, value⟩ := represented 7 11 127 0x7f _ (by decide) code
  exact absurd value (by decide)

-- What decode_integer makes of the code of v with anything behind it. The groups
-- are read only where the prefix is full; none of them loses a bit in its shift.
structure Recovered (v pfx : Nat) (firstByte : UInt8) (suffix : Bytes) : Prop where
  decoded : decodeInteger (encodeInteger v pfx firstByte ++ suffix) pfx = .ok (v, (encodeInteger v pfx firstByte).length)
  arithmetic : ArithmeticInRange (encodeInteger v pfx firstByte ++ suffix) pfx
  kept : ¬ v < 2 ^ pfx - 1 →
    ∀ group ∈ summands 1 (continuation (encodeInteger v pfx firstByte ++ suffix).tail), group < 2 ^ 64
  instruction : ∃ b rest, encodeInteger v pfx firstByte = b :: rest ∧ b.toNat / 2 ^ pfx = firstByte.toNat / 2 ^ pfx

theorem byte_above (high pfx : Nat) (byte : high < 256) (narrow : pfx ≤ 8) (clear : high % 2 ^ pfx = 0) :
    high + 2 ^ pfx ≤ 256 := by
  have divides : 2 ^ pfx ∣ 256 - high :=
    Nat.dvd_sub (Nat.pow_dvd_pow 2 narrow) (Nat.dvd_of_mod_eq_zero clear)
  have below := Nat.le_of_dvd (by omega) divides
  omega

theorem groups_kept (v : Nat) (suffix : Bytes) (word : v < 2 ^ 64) :
    ∀ group ∈ summands 1 (continuation (groups v ++ suffix)), group < 2 ^ 64 := by
  obtain ⟨bytes, _, sum⟩ := groups_read v suffix
  intro group member
  rw [bytes] at member
  have part : group ≤ (summands 1 (groups v)).sum := List.le_sum_of_mem member
  rw [sum, Nat.mul_one] at part
  omega

theorem encode_integer_recovered (v pfx : Nat) (firstByte : UInt8) (suffix : Bytes) (word : v < 2 ^ 64)
    (narrow : 4 ≤ pfx ∧ pfx ≤ 7) (clear : firstByte.toNat % 2 ^ pfx = 0) : Recovered v pfx firstByte suffix := by
  have positive := Nat.two_pow_pos pfx
  have byte := byte_above firstByte.toNat pfx firstByte.toNat_lt (by omega) clear
  have encoded := encode_integer_code v pfx firstByte clear (by omega)
  have decoded := decode_integer_code pfx firstByte.toNat v suffix clear byte word
  by_cases small : v < 2 ^ pfx - 1
  · have shape := PrefixInteger.code_small pfx firstByte.toNat v small
    obtain ⟨low, high⟩ := first_of_code pfx firstByte.toNat v clear byte (by omega)
    refine ⟨by rw [encoded, decoded], ?_, fun full => absurd small full, _, [], encoded.trans shape, high⟩
    rw [encoded, shape]
    exact (decode_short _ suffix pfx (by rw [low]; exact small)).2
  · have shape := PrefixInteger.code_large pfx firstByte.toNat v small
    obtain ⟨low, high⟩ := first_of_code pfx firstByte.toNat (2 ^ pfx - 1) clear byte (by omega)
    refine ⟨by rw [encoded, decoded], ?_, fun _ => ?_, _, _, encoded.trans shape, high⟩
    · rw [encoded, shape]
      exact (decode_full _ _ pfx low).2.mpr (groups_in_range _ _ suffix (by omega)).2
    · rw [encoded, shape, List.cons_append, List.tail_cons]
      exact groups_kept _ suffix (by omega)

-- The largest value: the tenth continuation byte carries its last bit.
theorem largest_recovered : Recovered (2 ^ 64 - 1) 5 0x20 [0x80] :=
  encode_integer_recovered (2 ^ 64 - 1) 5 0x20 [0x80] (by decide) (by decide) (by decide)

end Ners.Hpack
