import Ners.Hpack.TableBounds

set_option autoImplicit false

namespace Ners.Hpack

-- Every string literal that the loop of decode reaches in the block ends,
-- without wrapping, below 2 ^ 64.
def StringsFit (d : HpackDecoder) (block : Bytes) : Prop :=
  ∀ headers d1 first tail, Walk d block headers d1 (first :: tail) →
    ∀ pfx index, literalKind first = some (pfx, index) →
      ∀ s, LiteralString d1 (first :: tail) pfx s → LengthFits s

-- Only a literal can fault: an indexed field checks its index and a size update
-- reads one integer.
theorem decode_field_returns_iff (d : HpackDecoder) (first : UInt8) (tail : Bytes) :
    (∃ result, d.decodeField first (first :: tail) = .ok result) ↔
      ∀ pfx index, literalKind first = some (pfx, index) → ∀ s, LiteralString d (first :: tail) pfx s → LengthFits s := by
  cases kind : literalKind first with
  | some pair =>
      obtain ⟨pfx, index⟩ := pair
      have literal := decode_literal_returns_iff d (first :: tail) pfx index (literal_kind_narrow first pfx index kind)
      rw [decode_field_literal d first _ pfx index kind]
      constructor
      · rintro ⟨result, returned⟩ otherPfx otherIndex same
        obtain ⟨rfl, rfl⟩ : pfx = otherPfx ∧ index = otherIndex := by simpa using same
        refine literal.mp ?_
        cases read : d.decodeLiteral (first :: tail) pfx index with
        | error fault => simp [read] at returned
        | ok after => exact ⟨after, rfl⟩
      · intro fits
        obtain ⟨after, read⟩ := literal.mpr (fits pfx index rfl)
        exact ⟨(pushed after.1, after.2), by simp only [read]⟩
  | none =>
      refine ⟨fun _ pfx index impossible => (nomatch impossible), fun _ => ?_⟩
      rcases literal_kind_none first kind with indexed | ⟨low, high⟩
      · rw [decode_field_indexed d first _ indexed]
        cases decodeInteger (first :: tail) 7 with
        | error e => exact ⟨_, rfl⟩
        | ok pair =>
            obtain ⟨found, isFound⟩ := get_indexed_returns d pair.1
            simp only [isFound]
            cases found <;> exact ⟨_, rfl⟩
      · rw [decode_field_update d first _ low high]
        cases decodeInteger (first :: tail) 5 <;> exact ⟨_, rfl⟩

theorem decode_returns_iff_strings_fit (d : HpackDecoder) (block : Bytes) :
    (∃ result, d.decode block = .ok result) ↔ StringsFit d block := by
  constructor
  · rintro ⟨result, returned⟩ headers d1 first tail walk
    refine (decode_field_returns_iff d1 first tail).mp ?_
    rw [walk_decode d d1 block _ headers walk, decode_cons] at returned
    cases field : d1.decodeField first (first :: tail) with
    | error fault => simp [field, prepend] at returned
    | ok after => exact ⟨after, rfl⟩
  · intro fits
    rcases decode_walk d block with ⟨headers, d', walk, same⟩ | ⟨headers, d1, d', first, tail, e, walk, field, same⟩ |
      ⟨headers, d1, first, tail, fault, walk, field, same⟩
    · exact ⟨_, same⟩
    · exact ⟨_, same⟩
    · obtain ⟨result, returned⟩ := (decode_field_returns_iff d1 first tail).mpr (fits headers d1 first tail walk)
      simp [field] at returned

-- The name of a literal announces 2 ^ 64 - 1 bytes from position 11 of its
-- slice: the end wraps to 10, which the check lets through.
def wrappingBlock : Bytes := [0x00, 0x7f, 0x80, 0xff, 0xff, 0xff, 0xff, 0xff, 0xff, 0xff, 0xff, 0x01]

theorem decode_panics_on_wrapping_length :
    ¬ ∀ (N : Nat) (d : HpackDecoder), d.Reachable N → ∀ block, ∃ result, d.decode block = .ok result := by
  intro always
  obtain ⟨result, returned⟩ := always 4096 (.new 4096) ⟨[], .new⟩ wrappingBlock
  have panics : (HpackDecoder.new 4096).decode wrappingBlock = .error .panic := by decide
  rw [panics] at returned
  cases returned

end Ners.Hpack
