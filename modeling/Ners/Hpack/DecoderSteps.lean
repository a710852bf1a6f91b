import Ners.Hpack.Decoder

set_option autoImplicit false

namespace Ners.Hpack

open Utf8 (fromUtf8Lossy)

theorem decode_loop_bounds (rest : Bytes) (value m pos v n : Nat)
    (read : decodeIntegerLoop rest value m pos = .ok (v, n)) : pos < n ∧ n ≤ pos + rest.length ∧ v < 2 ^ 64 := by
  induction rest generalizing value m pos with
  | nil => simp [decodeIntegerLoop] at read
  | cons b tail ih =>
      rw [decodeIntegerLoop] at read
      by_cases last : b.toNat &&& 0x80 = 0
      · simp only [if_pos last, Except.ok.injEq, Prod.mk.injEq] at read
        have bound := wrap_lt (value + wrap ((b.toNat &&& 0x7f) <<< (m % 64)))
        rw [List.length_cons]
        omega
      · simp only [if_neg last] at read
        have later := ih _ _ _ read
        rw [List.length_cons]
        omega

theorem decode_integer_bounds (data : Bytes) (pfx v n : Nat) (narrow : pfx ≤ 8)
    (read : decodeInteger data pfx = .ok (v, n)) : 1 ≤ n ∧ n ≤ data.length ∧ v < 2 ^ 64 := by
  cases data with
  | nil => simp [decodeInteger] at read
  | cons first tail =>
      have width : 2 ^ pfx ≤ 256 := Nat.pow_le_pow_right (by decide) narrow
      simp only [decodeInteger, mask_value] at read
      by_cases small : first.toNat &&& (2 ^ pfx - 1) < 2 ^ pfx - 1
      · simp only [if_pos small, Except.ok.injEq, Prod.mk.injEq] at read
        rw [List.length_cons]
        omega
      · rw [if_neg small] at read
        have loop := decode_loop_bounds tail _ 0 1 v n read
        rw [List.length_cons]
        omega

-- The announced end of the string, taken without wrapping, lies below 2 ^ 64.
def LengthFits (data : Bytes) : Prop := ∀ len pos, decodeInteger data 7 = .ok (len, pos) → pos + len < 2 ^ 64

theorem decode_string_refused (data : Bytes) (e : String) (read : decodeInteger data 7 = .error e) :
    ∃ message, decodeString data = .ok (.error message) := by
  cases data with
  | nil => exact ⟨_, rfl⟩
  | cons first tail => exact ⟨e, by simp only [decodeString, read]⟩

theorem decode_string_within (data : Bytes) (len pos : Nat) (read : decodeInteger data 7 = .ok (len, pos))
    (fits : pos + len < 2 ^ 64) :
    decodeString data =
      if data.length < pos + len then .ok (.error "String too long")
      else .ok (.ok (fromUtf8Lossy ((data.drop pos).take len), pos + len)) := by
  cases data with
  | nil => simp [decodeInteger] at read
  | cons first tail =>
      simp only [decodeString, read, wrap_exact _ fits, ite_self]
      by_cases long : (first :: tail).length < pos + len
      · rw [if_pos long, if_pos long]
      · rw [if_neg long, if_neg long, slice_ok _ _ _ (by omega) (by omega), Nat.add_sub_cancel_left]

-- Past the wrap the check compares a small sum and lets the slice through, with
-- its end in front of its start.
theorem decode_string_wraps (data : Bytes) (len pos : Nat) (read : decodeInteger data 7 = .ok (len, pos))
    (beyond : 2 ^ 64 ≤ pos + len) : decodeString data = .error .panic := by
  have bounds := decode_integer_bounds data 7 len pos (by decide) read
  have wrapped := wrap_carry pos len bounds.2.2 beyond
  cases data with
  | nil => simp [decodeInteger] at read
  | cons first tail =>
      simp only [decodeString, read]
      rw [if_neg (by omega), slice_panics _ _ _ wrapped]

theorem decode_string_returns_iff (data : Bytes) : (∃ result, decodeString data = .ok result) ↔ LengthFits data := by
  constructor
  · rintro ⟨result, returned⟩ len pos read
    by_contra beyond
    rw [decode_string_wraps data len pos read (by omega)] at returned
    cases returned
  · intro fits
    cases read : decodeInteger data 7 with
    | error e =>
        obtain ⟨message, refused⟩ := decode_string_refused data e read
        exact ⟨_, refused⟩
    | ok pair =>
        rw [decode_string_within data pair.1 pair.2 read (fits pair.1 pair.2 read)]
        split <;> exact ⟨_, rfl⟩

theorem decode_string_read (data : Bytes) (s : String) (n : Nat) (read : decodeString data = .ok (.ok (s, n))) :
    ∃ len pos, decodeInteger data 7 = .ok (len, pos) ∧ pos + len < 2 ^ 64 ∧ pos + len ≤ data.length ∧
      s = fromUtf8Lossy ((data.drop pos).take len) ∧ n = pos + len := by
  cases integer : decodeInteger data 7 with
  | error e =>
      obtain ⟨message, refused⟩ := decode_string_refused data e integer
      cases refused.symm.trans read
  | ok pair =>
      obtain ⟨len, pos⟩ := pair
      have fits := (decode_string_returns_iff data).mp ⟨_, read⟩ len pos integer
      rw [decode_string_within data len pos integer fits] at read
      by_cases long : data.length < pos + len
      · rw [if_pos long] at read
        cases read
      · rw [if_neg long] at read
        simp only [Except.ok.injEq, Prod.mk.injEq] at read
        exact ⟨len, pos, rfl, fits, Nat.le_of_not_lt long, read.1.symm, read.2.symm⟩

theorem decode_string_bounds (data : Bytes) (s : String) (n : Nat) (read : decodeString data = .ok (.ok (s, n))) :
    1 ≤ n ∧ n ≤ data.length := by
  obtain ⟨len, pos, integer, _, enough, _, rfl⟩ := decode_string_read data s n read
  have bounds := decode_integer_bounds data 7 len pos (by decide) integer
  exact ⟨Nat.le_add_right_of_le bounds.1, enough⟩

theorem read_string_within (data : Bytes) (pos : Nat) (within : pos ≤ data.length) :
    readString data pos =
      match decodeString (data.drop pos) with
      | .error fault => .error fault
      | .ok (.error e) => .ok (.error e)
      | .ok (.ok (s, consumed)) => .ok (.ok (s, pos + consumed)) := by
  rcases read : decodeString (data.drop pos) with fault | e | ⟨s, consumed⟩ <;>
    simp only [readString, slice_from_ok data pos within, read]

theorem read_string_returns_iff (data : Bytes) (pos : Nat) (within : pos ≤ data.length) :
    (∃ result, readString data pos = .ok result) ↔ LengthFits (data.drop pos) := by
  rw [read_string_within data pos within, ← decode_string_returns_iff]
  rcases decodeString (data.drop pos) with fault | e | read <;> simp

theorem read_string_bounds (data : Bytes) (pos : Nat) (s : String) (n : Nat) (within : pos ≤ data.length)
    (read : readString data pos = .ok (.ok (s, n))) : pos < n ∧ n ≤ data.length := by
  rw [read_string_within data pos within] at read
  cases decoded : decodeString (data.drop pos) with
  | error fault => simp [decoded] at read
  | ok result =>
      cases result with
      | error e => simp [decoded] at read
      | ok pair =>
          have bounds := decode_string_bounds _ pair.1 pair.2 decoded
          simp only [decoded, Except.ok.injEq, Prod.mk.injEq] at read
          rw [List.length_drop] at bounds
          omega

-- Static entries first, then the dynamic ones from the newest: index i names entry i - 1.
def HpackDecoder.addressSpace (d : HpackDecoder) : List Header :=
  staticTable ++ d.dynamicTable.map (fun entry => (entry.name, entry.value))

theorem get_indexed_found (d : HpackDecoder) (index : Nat) (header : Header) (positive : index ≠ 0)
    (found : d.addressSpace[index - 1]? = some header) : d.getIndexed index = .ok (.ok header) := by
  rw [HpackDecoder.addressSpace] at found
  by_cases static : index ≤ staticTable.length
  · rw [List.getElem?_append_left (by omega)] at found
    simp only [HpackDecoder.getIndexed, if_neg positive, if_pos static, tableIndex, found]
  · rw [List.getElem?_append_right (by omega), List.getElem?_map, Option.map_eq_some_iff] at found
    obtain ⟨entry, access, rfl⟩ := found
    obtain ⟨bound, _⟩ := List.getElem?_eq_some_iff.mp access
    have offset : index - staticTable.length - 1 = index - 1 - staticTable.length := by omega
    simp only [HpackDecoder.getIndexed, if_neg positive, if_neg static, offset, if_neg (Nat.not_le.mpr bound),
      tableIndex, access]

theorem get_indexed_missing (d : HpackDecoder) (index : Nat)
    (missing : index = 0 ∨ d.addressSpace[index - 1]? = none) : ∃ e, d.getIndexed index = .ok (.error e) := by
  by_cases zero : index = 0
  · exact ⟨_, if_pos zero⟩
  · have past := List.getElem?_eq_none_iff.mp (missing.resolve_left zero)
    rw [HpackDecoder.addressSpace, List.length_append, List.length_map] at past
    simp only [HpackDecoder.getIndexed, if_neg zero, if_neg (show ¬ index ≤ staticTable.length by omega),
      if_pos (show d.dynamicTable.length ≤ index - staticTable.length - 1 by omega)]
    exact ⟨_, rfl⟩

theorem get_indexed_returns (d : HpackDecoder) (index : Nat) : ∃ result, d.getIndexed index = .ok result := by
  by_cases zero : index = 0
  · exact ⟨_, (get_indexed_missing d index (.inl zero)).choose_spec⟩
  · cases found : d.addressSpace[index - 1]? with
    | none => exact ⟨_, (get_indexed_missing d index (.inr found)).choose_spec⟩
    | some header => exact ⟨_, get_indexed_found d index header zero found⟩

theorem literal_name_bounds (d : HpackDecoder) (data : Bytes) (nameIndex pos : Nat) (name : String) (n : Nat)
    (within : pos ≤ data.length) (read : d.literalName data nameIndex pos = .ok (.ok (name, n))) :
    pos ≤ n ∧ n ≤ data.length := by
  by_cases fresh : nameIndex = 0
  · rw [HpackDecoder.literalName, if_pos fresh] at read
    have bounds := read_string_bounds data pos name n within read
    omega
  · obtain ⟨result, found⟩ := get_indexed_returns d nameIndex
    simp only [HpackDecoder.literalName, if_neg fresh, found] at read
    cases result with
    | error e => simp at read
    | ok field =>
        simp only [Except.ok.injEq, Prod.mk.injEq] at read
        omega

inductive LiteralString (d : HpackDecoder) (data : Bytes) (pfx : Nat) : Bytes → Prop where
  | name (n : Nat) (fresh : decodeInteger data pfx = .ok (0, n)) : LiteralString d data pfx (data.drop n)
  | value (nameIndex pos n : Nat) (name : String) (index : decodeInteger data pfx = .ok (nameIndex, pos))
      (named : d.literalName data nameIndex pos = .ok (.ok (name, n))) : LiteralString d data pfx (data.drop n)

theorem literal_name_returns_iff (d : HpackDecoder) (data : Bytes) (nameIndex pos : Nat) (within : pos ≤ data.length) :
    (∃ result, d.literalName data nameIndex pos = .ok result) ↔ (nameIndex = 0 → LengthFits (data.drop pos)) := by
  by_cases fresh : nameIndex = 0
  · rw [HpackDecoder.literalName, if_pos fresh, read_string_returns_iff data pos within]
    exact ⟨fun fits _ => fits, fun fits => fits fresh⟩
  · obtain ⟨result, found⟩ := get_indexed_returns d nameIndex
    refine ⟨fun _ same => absurd same fresh, fun _ => ?_⟩
    simp only [HpackDecoder.literalName, if_neg fresh, found]
    cases result <;> exact ⟨_, rfl⟩

theorem decode_literal_returns_iff (d : HpackDecoder) (data : Bytes) (pfx : Nat) (index : Bool) (narrow : pfx ≤ 8) :
    (∃ result, d.decodeLiteral data pfx index = .ok result) ↔ ∀ s, LiteralString d data pfx s → LengthFits s := by
  cases integer : decodeInteger data pfx with
  | error e =>
      refine ⟨fun _ s at_ => ?_, fun _ => ⟨_, by rw [HpackDecoder.decodeLiteral, integer]⟩⟩
      cases at_ with
      | name n fresh => simp [integer] at fresh
      | value _ _ _ _ index _ => simp [integer] at index
  | ok pair =>
      obtain ⟨nameIndex, pos⟩ := pair
      have within := (decode_integer_bounds data pfx nameIndex pos narrow integer).2.1
      constructor
      · rintro ⟨result, returned⟩ s at_
        simp only [HpackDecoder.decodeLiteral, integer] at returned
        cases at_ with
        | name n fresh =>
            obtain ⟨rfl, rfl⟩ : nameIndex = 0 ∧ pos = n := by simpa [integer] using fresh
            refine (literal_name_returns_iff d data 0 pos within).mp ?_ rfl
            cases named : d.literalName data 0 pos with
            | error fault => simp [named] at returned
            | ok _ => exact ⟨_, rfl⟩
        | value otherIndex otherPos n name index named =>
            obtain ⟨rfl, rfl⟩ : nameIndex = otherIndex ∧ pos = otherPos := by simpa [integer] using index
            have bounds := literal_name_bounds d data nameIndex pos name n within named
            refine (read_string_returns_iff data n bounds.2).mp ?_
            cases read : readString data n with
            | error fault => simp [named, read] at returned
            | ok _ => exact ⟨_, rfl⟩
      · intro fits
        obtain ⟨named, isNamed⟩ := (literal_name_returns_iff d data nameIndex pos within).mpr
          (fun fresh => fits _ (.name pos (fresh ▸ integer)))
        simp only [HpackDecoder.decodeLiteral, integer, isNamed]
        cases named with
        | error e => exact ⟨_, rfl⟩
        | ok pair =>
            obtain ⟨name, n⟩ := pair
            have bounds := literal_name_bounds d data nameIndex pos name n within isNamed
            obtain ⟨read, isRead⟩ := (read_string_returns_iff data n bounds.2).mpr
              (fits _ (.value nameIndex pos n name integer isNamed))
            simp only [isRead]
            cases read <;> exact ⟨_, rfl⟩

theorem decode_literal_cases (d d' : HpackDecoder) (data : Bytes) (pfx : Nat) (index : Bool)
    (result : Except String (Header × Nat)) (narrow : pfx ≤ 8)
    (returned : d.decodeLiteral data pfx index = .ok (result, d')) :
    (∃ e, result = .error e ∧ d' = d) ∨
      ∃ name value n, result = .ok ((name, value), n) ∧ 1 ≤ n ∧ n ≤ data.length ∧
        d' = if index then d.addEntry name value else d := by
  cases integer : decodeInteger data pfx with
  | error e =>
      simp only [HpackDecoder.decodeLiteral, integer, Except.ok.injEq, Prod.mk.injEq] at returned
      exact .inl ⟨e, returned.1.symm, returned.2.symm⟩
  | ok pair =>
      obtain ⟨nameIndex, pos⟩ := pair
      have bounds := decode_integer_bounds data pfx nameIndex pos narrow integer
      simp only [HpackDecoder.decodeLiteral, integer] at returned
      rcases named : d.literalName data nameIndex pos with fault | e | ⟨name, n⟩
      · simp [named] at returned
      · simp only [named, Except.ok.injEq, Prod.mk.injEq] at returned
        exact .inl ⟨e, returned.1.symm, returned.2.symm⟩
      · have nameBounds := literal_name_bounds d data nameIndex pos name n bounds.2.1 named
        simp only [named] at returned
        rcases read : readString data n with fault | e | ⟨value, m⟩
        · simp [read] at returned
        · simp only [read, Except.ok.injEq, Prod.mk.injEq] at returned
          exact .inl ⟨e, returned.1.symm, returned.2.symm⟩
        · have valueBounds := read_string_bounds data n value m nameBounds.2 read
          simp only [read, Except.ok.injEq, Prod.mk.injEq] at returned
          exact .inr ⟨name, value, m, returned.1.symm, by omega, valueBounds.2, returned.2.symm⟩

theorem flag_bits (n : Nat) (byte : n < 256) :
    (n &&& 0x80 ≠ 0 ↔ 128 ≤ n) ∧ (n < 128 → (n &&& 0x40 ≠ 0 ↔ 64 ≤ n)) ∧ (n < 64 → (n &&& 0x20 ≠ 0 ↔ 32 ≤ n)) := by
  have all : ∀ m : Fin 256, (m.val &&& 0x80 ≠ 0 ↔ 128 ≤ m.val) ∧ (m.val < 128 → (m.val &&& 0x40 ≠ 0 ↔ 64 ≤ m.val)) ∧
      (m.val < 64 → (m.val &&& 0x20 ≠ 0 ↔ 32 ≤ m.val)) := by decide +kernel
  exact all ⟨n, byte⟩

theorem decode_field_indexed (d : HpackDecoder) (first : UInt8) (data : Bytes) (kind : 128 ≤ first.toNat) :
    d.decodeField first data =
      match decodeInteger data 7 with
      | .error e => .ok (.error e, d)
      | .ok (index, consumed) =>
          match d.getIndexed index with
          | .error fault => .error fault
          | .ok (.error e) => .ok (.error e, d)
          | .ok (.ok header) => .ok (.ok (some header, consumed), d) :=
  if_pos ((flag_bits _ first.toNat_lt).1.mpr kind)

theorem decode_field_update (d : HpackDecoder) (first : UInt8) (data : Bytes) (low : 32 ≤ first.toNat)
    (high : first.toNat < 64) :
    d.decodeField first data =
      match decodeInteger data 5 with
      | .error e => .ok (.error e, d)
      | .ok (newSize, consumed) => .ok (.ok (none, consumed), d.resize newSize) := by
  obtain ⟨top, second, third⟩ := flag_bits _ first.toNat_lt
  have literal : ¬ 128 ≤ first.toNat := by omega
  have plain : ¬ 64 ≤ first.toNat := by omega
  exact (if_neg fun set => literal (top.mp set)).trans
    ((if_neg fun set => plain ((second (by omega)).mp set)).trans (if_pos ((third high).mpr low)))

def literalKind (first : UInt8) : Option (Nat × Bool) :=
  if 128 ≤ first.toNat then none
  else if 64 ≤ first.toNat then some (6, true)
  else if 32 ≤ first.toNat then none
  else some (4, false)

theorem literal_kind_narrow (first : UInt8) (pfx : Nat) (index : Bool) (kind : literalKind first = some (pfx, index)) :
    pfx ≤ 8 := by
  unfold literalKind at kind
  split at kind <;> try split at kind <;> try split at kind
  all_goals simp only [reduceCtorEq, Option.some.injEq, Prod.mk.injEq] at kind
  all_goals omega

theorem decode_field_literal (d : HpackDecoder) (first : UInt8) (data : Bytes) (pfx : Nat) (index : Bool)
    (kind : literalKind first = some (pfx, index)) :
    d.decodeField first data =
      match d.decodeLiteral data pfx index with
      | .error fault => .error fault
      | .ok (result, d) => .ok (pushed result, d) := by
  obtain ⟨top, second, third⟩ := flag_bits _ first.toNat_lt
  unfold literalKind at kind
  by_cases indexed : 128 ≤ first.toNat
  · simp [if_pos indexed] at kind
  · refine (if_neg fun set => indexed (top.mp set)).trans ?_
    rw [if_neg indexed] at kind
    by_cases incremental : 64 ≤ first.toNat
    · obtain ⟨rfl, rfl⟩ : 6 = pfx ∧ true = index := by simpa [if_pos incremental] using kind
      exact if_pos ((second (by omega)).mpr incremental)
    · refine (if_neg fun set => incremental ((second (by omega)).mp set)).trans ?_
      rw [if_neg incremental] at kind
      by_cases update : 32 ≤ first.toNat
      · simp [if_pos update] at kind
      · obtain ⟨rfl, rfl⟩ : 4 = pfx ∧ false = index := by simpa [if_neg update] using kind
        refine (if_neg fun set => update ((third (by omega)).mp set)).trans ?_
        rcases decoded : d.decodeLiteral data 4 false with fault | ⟨result, after⟩ <;> simp only [ite_self, decoded]

theorem literal_kind_none (first : UInt8) (kind : literalKind first = none) :
    128 ≤ first.toNat ∨ (32 ≤ first.toNat ∧ first.toNat < 64) := by
  unfold literalKind at kind
  by_cases indexed : 128 ≤ first.toNat
  · exact .inl indexed
  · by_cases incremental : 64 ≤ first.toNat
    · simp [if_neg indexed, if_pos incremental] at kind
    · by_cases update : 32 ≤ first.toNat
      · exact .inr ⟨update, by omega⟩
      · simp [if_neg indexed, if_neg incremental, if_neg update] at kind

end Ners.Hpack
