import Ners.Base.PrefixInteger
import Mathlib.Logic.Basic

set_option autoImplicit false

namespace Ners.Hpack

open PrefixInteger

-- The loop of decode_integer on the bytes from `pos` on. A release build shifts
-- by m modulo 64 and drops the carries of the shift and of both additions.
def decodeIntegerLoop : Bytes → Nat → Nat → Nat → Except String (Nat × Nat)
  | [], _, _, _ => .error "Truncated integer"
  | b :: rest, value, m, pos =>
      let value := wrap (value + wrap ((b.toNat &&& 0x7f) <<< (m % 64)))
      let m := wrap (m + 7)
      if b.toNat &&& 0x80 = 0 then .ok (value, pos + 1) else decodeIntegerLoop rest value m (pos + 1)

def decodeInteger (data : Bytes) (pfx : Nat) : Except String (Nat × Nat) :=
  match data with
  | [] => .error "Empty data for integer"
  | first :: rest =>
      let mask := (1 <<< pfx) - 1
      let value := first.toNat &&& mask
      if value < mask then .ok (value, 1) else decodeIntegerLoop rest value 0 1

def encodeIntegerLoop (remaining : Nat) : Bytes :=
  if 128 ≤ remaining then .ofNat (remaining &&& 0x7f ||| 0x80) :: encodeIntegerLoop (remaining >>> 7)
  else [.ofNat remaining]
termination_by remaining
decreasing_by
  rw [Nat.shiftRight_eq_div_pow]
  omega

def encodeInteger (value pfx : Nat) (firstByte : UInt8) : Bytes :=
  let maxPrefix := (1 <<< pfx) - 1
  if value < maxPrefix then [firstByte ||| .ofNat value]
  else (firstByte ||| .ofNat maxPrefix) :: encodeIntegerLoop (value - maxPrefix)

theorem low_seven (n : Nat) : n &&& 0x7f = n % 128 := Nat.and_two_pow_sub_one_eq_mod n 7

theorem mask_value (pfx : Nat) : (1 <<< pfx) - 1 = 2 ^ pfx - 1 := by
  rw [Nat.shiftLeft_eq, Nat.one_mul]

theorem masked (n pfx : Nat) : n &&& (2 ^ pfx - 1) = n % 2 ^ pfx := Nat.and_two_pow_sub_one_eq_mod n pfx

theorem or_disjoint (pfx high low : Nat) (clear : high % 2 ^ pfx = 0) (small : low < 2 ^ pfx) :
    high ||| low = high + low := by
  have split : high = 2 ^ pfx * (high / 2 ^ pfx) := by
    have parts := Nat.div_add_mod high (2 ^ pfx)
    omega
  rw [split]
  exact (Nat.two_pow_add_eq_or_of_lt small _).symm

theorem continuation_bit (n : Nat) (byte : n < 256) : (n &&& 0x80 = 0) ↔ n < 128 := by
  have all : ∀ m : Fin 256, (m.val &&& 0x80 = 0) ↔ m.val < 128 := by decide +kernel
  exact all ⟨n, byte⟩

theorem encode_loop_groups (remaining : Nat) : encodeIntegerLoop remaining = groups remaining := by
  induction remaining using Nat.strongRecOn with
  | ind remaining ih =>
      rw [encodeIntegerLoop]
      by_cases large : 128 ≤ remaining
      · have group : remaining &&& 0x7f ||| 0x80 = remaining % 128 + 128 := by
          rw [low_seven, Nat.or_comm, or_disjoint 7 0x80 (remaining % 128) (by decide) (Nat.mod_lt _ (by decide)), Nat.add_comm]
        have shifted : remaining >>> 7 = remaining / 128 := Nat.shiftRight_eq_div_pow remaining 7
        rw [if_pos large, group, shifted, ih _ (by omega), PrefixInteger.groups_large remaining (by omega)]
      · rw [if_neg large, PrefixInteger.groups_small remaining (by omega)]

theorem first_byte_or (pfx low : Nat) (firstByte : UInt8) (clear : firstByte.toNat % 2 ^ pfx = 0)
    (narrow : pfx ≤ 8) (small : low < 2 ^ pfx) : firstByte ||| .ofNat low = .ofNat (firstByte.toNat + low) := by
  have width : 2 ^ pfx ≤ 256 := Nat.pow_le_pow_right (by decide) narrow
  have lowByte : (UInt8.ofNat low).toNat = low := byte_value _ (by omega)
  have joined : (firstByte ||| UInt8.ofNat low).toNat = firstByte.toNat + low := by
    rw [UInt8.toNat_or, lowByte, or_disjoint pfx _ low clear small]
  rw [← joined, UInt8.ofNat_toNat]

theorem encode_integer_code (value pfx : Nat) (firstByte : UInt8) (clear : firstByte.toNat % 2 ^ pfx = 0)
    (narrow : pfx ≤ 8) : encodeInteger value pfx firstByte = code pfx firstByte.toNat value := by
  have positive := Nat.two_pow_pos pfx
  simp only [encodeInteger, mask_value]
  by_cases small : value < 2 ^ pfx - 1
  · rw [if_pos small, PrefixInteger.code_small pfx _ value small, first_byte_or pfx value firstByte clear narrow (by omega)]
  · rw [if_neg small, PrefixInteger.code_large pfx _ value small, first_byte_or pfx _ firstByte clear narrow (by omega),
      encode_loop_groups]

-- The shift and the additions of the loop of decode_integer do what they do on
-- unbounded numbers, in every turn. A shift below 64 may still drop bits of the
-- group.
def LoopInRange : Bytes → Nat → Nat → Nat → Prop
  | [], _, _, _ => True
  | b :: rest, value, m, pos =>
      m < 64 ∧ value + wrap ((b.toNat &&& 0x7f) <<< m) < 2 ^ 64 ∧ m + 7 < 2 ^ 64 ∧ pos + 1 < 2 ^ 64 ∧
        (b.toNat &&& 0x80 ≠ 0 → LoopInRange rest (value + wrap ((b.toNat &&& 0x7f) <<< m)) (m + 7) (pos + 1))

def lowSum (weight : Nat) (rest : Bytes) : Nat := ((summands weight (continuation rest)).map (· % 2 ^ 64)).sum

theorem low_sum_last (weight : Nat) (b : UInt8) (rest : Bytes) (last : b.toNat < 128) :
    lowSum weight (b :: rest) = b.toNat % 128 * weight % 2 ^ 64 := by
  rw [lowSum, continuation_last b rest last, summands, summands, List.map_singleton, List.sum_singleton]

theorem low_sum_more (weight : Nat) (b : UInt8) (rest : Bytes) (more : ¬ b.toNat < 128) :
    lowSum weight (b :: rest) = b.toNat % 128 * weight % 2 ^ 64 + lowSum (weight * 128) rest := by
  rw [lowSum, continuation_more b rest more, summands, List.map_cons, List.sum_cons, lowSum]

theorem shifted_group (b : UInt8) (m : Nat) : wrap ((b.toNat &&& 0x7f) <<< m) = b.toNat % 128 * 2 ^ m % 2 ^ 64 := by
  rw [low_seven, Nat.shiftLeft_eq]
  rfl

theorem loop_in_range (rest : Bytes) (value turn : Nat) (few : turn ≤ 10) (word : value < 2 ^ 64) :
    LoopInRange rest value (7 * turn) (turn + 1) ↔
      turn + (continuation rest).length ≤ 10 ∧ value + lowSum (2 ^ (7 * turn)) rest < 2 ^ 64 := by
  induction rest generalizing value turn with
  | nil =>
      rw [LoopInRange, lowSum, continuation_nil, summands, List.map_nil, List.sum_nil]
      exact iff_of_true trivial ⟨few, word⟩
  | cons b rest ih =>
      have weight : 2 ^ (7 * (turn + 1)) = 2 ^ (7 * turn) * 128 := by rw [Nat.mul_succ, Nat.pow_add]
      rw [LoopInRange, shifted_group]
      by_cases last : b.toNat < 128
      · have stops : b.toNat &&& 0x80 = 0 := (continuation_bit _ b.toNat_lt).mpr last
        rw [continuation_last b rest last, low_sum_last _ b rest last, List.length_singleton]
        simp only [stops, ne_eq, not_true_eq_false, false_implies, and_true]
        omega
      · have goes : b.toNat &&& 0x80 ≠ 0 := fun stops => last ((continuation_bit _ b.toNat_lt).mp stops)
        rw [continuation_more b rest last, low_sum_more _ b rest last, List.length_cons, ← weight]
        simp only [goes, ne_eq, not_false_eq_true, true_implies]
        constructor
        · rintro ⟨narrow, fits, _, _, later⟩
          have both := (ih (value + b.toNat % 128 * 2 ^ (7 * turn) % 2 ^ 64) (turn + 1) (by omega) fits).mp later
          omega
        · rintro ⟨short, fits⟩
          refine ⟨by omega, by omega, by omega, by omega, ?_⟩
          exact (ih (value + b.toNat % 128 * 2 ^ (7 * turn) % 2 ^ 64) (turn + 1) (by omega) (by omega)).mpr ⟨by omega, by omega⟩

theorem loop_last (b : UInt8) (rest : Bytes) (value m pos : Nat) (last : b.toNat < 128) :
    decodeIntegerLoop (b :: rest) value m pos = .ok (wrap (value + wrap ((b.toNat &&& 0x7f) <<< (m % 64))), pos + 1) :=
  if_pos ((continuation_bit _ b.toNat_lt).mpr last)

theorem loop_more (b : UInt8) (rest : Bytes) (value m pos : Nat) (more : ¬ b.toNat < 128) :
    decodeIntegerLoop (b :: rest) value m pos =
      decodeIntegerLoop rest (wrap (value + wrap ((b.toNat &&& 0x7f) <<< (m % 64)))) (wrap (m + 7)) (pos + 1) :=
  if_neg fun stops => more ((continuation_bit _ b.toNat_lt).mp stops)

theorem loop_truncated (rest : Bytes) (value m pos : Nat) (missing : ¬ Ended rest) :
    decodeIntegerLoop rest value m pos = .error "Truncated integer" := by
  induction rest generalizing value m pos with
  | nil => rfl
  | cons b rest ih =>
      obtain ⟨more, behind⟩ := not_or.mp missing
      rw [loop_more b rest value m pos more]
      exact ih _ _ _ behind

theorem loop_returns (rest : Bytes) (value m pos : Nat) (ended : Ended rest) :
    ∃ v, decodeIntegerLoop rest value m pos = .ok (v, pos + (continuation rest).length) := by
  induction rest generalizing value m pos with
  | nil => cases ended
  | cons b rest ih =>
      by_cases last : b.toNat < 128
      · rw [loop_last b rest value m pos last, continuation_last b rest last]
        exact ⟨_, rfl⟩
      · rw [loop_more b rest value m pos last, continuation_more b rest last, List.length_cons, ← Nat.add_assoc, Nat.add_right_comm]
        exact ih _ _ _ ((ended_more b rest last).mp ended)

-- In range the loop adds what the shifts leave.
theorem loop_value (rest : Bytes) (value m pos : Nat) (ended : Ended rest) (range : LoopInRange rest value m pos) :
    decodeIntegerLoop rest value m pos = .ok (value + lowSum (2 ^ m) rest, pos + (continuation rest).length) := by
  induction rest generalizing value m pos with
  | nil => cases ended
  | cons b rest ih =>
      rw [LoopInRange] at range
      obtain ⟨narrow, fits, small, _, later⟩ := range
      have sum := wrap_exact _ fits
      by_cases last : b.toNat < 128
      · rw [loop_last b rest value m pos last, Nat.mod_eq_of_lt narrow, sum, shifted_group, low_sum_last _ b rest last,
          continuation_last b rest last, List.length_singleton]
      · have goes : b.toNat &&& 0x80 ≠ 0 := fun stops => last ((continuation_bit _ b.toNat_lt).mp stops)
        have weight : 2 ^ (m + 7) = 2 ^ m * 128 := Nat.pow_add 2 m 7
        rw [loop_more b rest value m pos last, Nat.mod_eq_of_lt narrow, sum, wrap_exact _ small,
          ih _ _ _ ((ended_more b rest last).mp ended) (later goes), shifted_group, weight, low_sum_more _ b rest last,
          continuation_more b rest last, List.length_cons, Nat.add_assoc, Nat.add_right_comm pos, Nat.add_assoc pos]

theorem cut_sum (bound : Nat) (values : List Nat) (fits : values.sum < bound) : (values.map (· % bound)).sum = values.sum := by
  induction values with
  | nil => rfl
  | cons a later ih =>
      rw [List.sum_cons] at fits
      rw [List.map_cons, List.sum_cons, List.sum_cons, ih (by omega), Nat.mod_eq_of_lt (by omega)]

theorem groups_in_range (v value : Nat) (rest : Bytes) (fits : value + v < 2 ^ 64) :
    lowSum 1 (groups v ++ rest) = v ∧ LoopInRange (groups v ++ rest) value 0 1 := by
  obtain ⟨bytes, _, sum⟩ := groups_read v rest
  have few : (groups v).length ≤ 10 := groups_length 9 v (by omega)
  have low : lowSum 1 (groups v ++ rest) = v := by
    rw [lowSum, bytes, cut_sum _ _ (by rw [sum]; omega), sum, Nat.mul_one]
  have range := loop_in_range (groups v ++ rest) value 0 (by decide) (by omega)
  rw [bytes, Nat.mul_zero, Nat.pow_zero, low] at range
  exact ⟨low, range.mpr ⟨by omega, fits⟩⟩

theorem decode_loop_groups (v value : Nat) (rest : Bytes) (fits : value + v < 2 ^ 64) :
    decodeIntegerLoop (groups v ++ rest) value 0 1 = .ok (value + v, 1 + (groups v).length) := by
  obtain ⟨bytes, ended, _⟩ := groups_read v rest
  obtain ⟨low, range⟩ := groups_in_range v value rest fits
  rw [loop_value _ _ _ _ ended range, bytes, Nat.pow_zero, low]

theorem first_of_code (pfx high low : Nat) (clear : high % 2 ^ pfx = 0) (byte : high + 2 ^ pfx ≤ 256) (small : low < 2 ^ pfx) :
    (UInt8.ofNat (high + low)).toNat % 2 ^ pfx = low ∧ (UInt8.ofNat (high + low)).toNat / 2 ^ pfx = high / 2 ^ pfx := by
  have split : 2 ^ pfx * (high / 2 ^ pfx) = high := Nat.mul_div_cancel' (Nat.dvd_of_mod_eq_zero clear)
  rw [byte_value _ (by omega)]
  constructor
  · rw [Nat.add_mod, clear, Nat.zero_add, Nat.mod_mod, Nat.mod_eq_of_lt small]
  · calc (high + low) / 2 ^ pfx = (2 ^ pfx * (high / 2 ^ pfx) + low) / 2 ^ pfx := by rw [split]
      _ = high / 2 ^ pfx := by rw [Nat.mul_add_div (Nat.two_pow_pos pfx), Nat.div_eq_of_lt small, Nat.add_zero]

theorem decode_integer_code (pfx high v : Nat) (rest : Bytes) (clear : high % 2 ^ pfx = 0)
    (byte : high + 2 ^ pfx ≤ 256) (fits : v < 2 ^ 64) :
    decodeInteger (code pfx high v ++ rest) pfx = .ok (v, (code pfx high v).length) := by
  have positive := Nat.two_pow_pos pfx
  by_cases small : v < 2 ^ pfx - 1
  · obtain ⟨first, _⟩ := first_of_code pfx high v clear byte (by omega)
    rw [PrefixInteger.code_small pfx high v small, List.singleton_append]
    simp only [decodeInteger, mask_value, masked, first, if_pos small, List.length_singleton]
  · obtain ⟨first, _⟩ := first_of_code pfx high (2 ^ pfx - 1) clear byte (by omega)
    rw [PrefixInteger.code_large pfx high v small, List.cons_append]
    simp only [decodeInteger, mask_value, masked, first, Nat.lt_irrefl, if_false]
    rw [decode_loop_groups _ _ rest (by omega), List.length_cons]
    congr 2 <;> omega

end Ners.Hpack
