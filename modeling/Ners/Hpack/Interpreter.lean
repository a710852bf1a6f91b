import Ners.Hpack.Instruction
import Ners.Hpack.DecoderRun

set_option autoImplicit false

namespace Ners.Hpack

open PrefixInteger (code)
open Utf8 (asBytes)

def HpackDecoder.lookup (d : HpackDecoder) (i : Nat) : Option Header :=
  if i = 0 then none else d.addressSpace[i - 1]?

def HpackDecoder.resolve (d : HpackDecoder) : FieldName → Option String
  | .index i => (d.lookup i).map Prod.fst
  | .text name => some name

def HpackDecoder.perform (d : HpackDecoder) : Instruction → Option (Option Header × HpackDecoder)
  | .indexed i => (d.lookup i).map fun header => (some header, d)
  | .literal mode name value =>
      (d.resolve name).map fun name => (some (name, value), if mode = .incremental then d.addEntry name value else d)
  | .sizeUpdate newSize => some (none, d.resize newSize)

theorem get_indexed_lookup (d : HpackDecoder) (i : Nat) :
    match d.lookup i with
    | none => ∃ e, d.getIndexed i = .ok (.error e)
    | some header => d.getIndexed i = .ok (.ok header) := by
  by_cases zero : i = 0
  · simp only [HpackDecoder.lookup, if_pos zero]
    exact get_indexed_missing d i (.inl zero)
  · simp only [HpackDecoder.lookup, if_neg zero]
    cases found : d.addressSpace[i - 1]? with
    | none => exact get_indexed_missing d i (.inr found)
    | some header => exact get_indexed_found d i header zero found

theorem decode_string_written (s : String) (rest : Bytes) (short : (asBytes s).length < 2 ^ 63) :
    decodeString (writeString s ++ rest) = .ok (.ok (s, (writeString s).length)) := by
  have small := PrefixInteger.code_length 7 0 (asBytes s).length (by omega)
  have read := decode_integer_code 7 0 (asBytes s).length (asBytes s ++ rest) (by decide) (by decide) (by omega)
  rw [← List.append_assoc] at read
  have decoded := decode_string_within _ _ _ read (by omega)
  rw [if_neg (by simp only [List.length_append]; omega)] at decoded
  rw [writeString, decoded, List.append_assoc, List.drop_left, List.take_left, Utf8.from_utf8_lossy_bytes, List.length_append]

theorem read_string_written (front : Bytes) (s : String) (rest : Bytes) (short : (asBytes s).length < 2 ^ 63) :
    readString (front ++ (writeString s ++ rest)) front.length =
      .ok (.ok (s, (front ++ writeString s).length)) := by
  rw [read_string_within _ _ (by simp), List.drop_left, decode_string_written s rest short, List.length_append]

theorem mode_code (mode : Indexing) (i : Nat) (rest : Bytes) (fits : i < 2 ^ 63) :
    decodeInteger (code mode.pfx mode.bits i ++ rest) mode.pfx = .ok (i, (code mode.pfx mode.bits i).length) := by
  have whole := decode_integer_code mode.pfx mode.bits i rest
  cases mode <;> exact whole (by decide) (by decide) (by omega)

theorem decode_literal_written (d : HpackDecoder) (mode : Indexing) (index : Bool) (name : FieldName) (value : String)
    (rest : Bytes) (writable : name.Writable) (short : (asBytes value).length < 2 ^ 63) :
    match d.resolve name with
    | none => ∃ e, d.decodeLiteral (writeName mode name ++ (writeString value ++ rest)) mode.pfx index = .ok (.error e, d)
    | some found =>
        d.decodeLiteral (writeName mode name ++ (writeString value ++ rest)) mode.pfx index =
          .ok (.ok ((found, value), (writeName mode name ++ writeString value).length),
            if index then d.addEntry found value else d) := by
  cases name with
  | index i =>
      have integer := mode_code mode i (writeString value ++ rest) writable.2
      have lookup := get_indexed_lookup d i
      have positive : ¬ i = 0 := by have := writable.1; omega
      simp only [HpackDecoder.resolve]
      cases found : d.lookup i with
      | none =>
          rw [found] at lookup
          obtain ⟨e, missing⟩ := lookup
          exact ⟨e, by simp only [HpackDecoder.decodeLiteral, writeName, integer, HpackDecoder.literalName, if_neg positive, missing]⟩
      | some header =>
          rw [found] at lookup
          have read := read_string_written (code mode.pfx mode.bits i) value rest short
          simp only [Option.map_some, HpackDecoder.decodeLiteral, writeName, integer, HpackDecoder.literalName, if_neg positive,
            lookup, read]
  | text text =>
      have integer := mode_code mode 0 (writeString text ++ (writeString value ++ rest)) (by decide)
      have readName := read_string_written (code mode.pfx mode.bits 0) text (writeString value ++ rest) writable
      have readValue := read_string_written (code mode.pfx mode.bits 0 ++ writeString text) value rest short
      simp only [List.append_assoc] at readValue
      simp only [HpackDecoder.resolve, HpackDecoder.decodeLiteral, writeName, List.append_assoc, integer, HpackDecoder.literalName,
        if_true, readName, readValue]

theorem mode_kind (mode : Indexing) (i : Nat) :
    ∃ first tail, code mode.pfx mode.bits i = first :: tail ∧
      literalKind first = some (mode.pfx, decide (mode = .incremental)) := by
  obtain ⟨low, tail, small, shape⟩ := PrefixInteger.code_head mode.pfx mode.bits i
  refine ⟨.ofNat (mode.bits + low), tail, shape, ?_⟩
  cases mode with
  | incremental =>
      have byte := byte_value (0x40 + low) (by have : low < 64 := small; omega)
      simp only [Indexing.pfx, Indexing.bits, literalKind, byte] at small ⊢
      rw [if_neg (by omega), if_pos (by omega)]
      rfl
  | without =>
      have byte := byte_value (0x00 + low) (by have : low < 16 := small; omega)
      simp only [Indexing.pfx, Indexing.bits, literalKind, byte] at small ⊢
      rw [if_neg (by omega), if_neg (by omega), if_neg (by omega)]
      rfl
  | never =>
      have byte := byte_value (0x10 + low) (by have : low < 16 := small; omega)
      simp only [Indexing.pfx, Indexing.bits, literalKind, byte] at small ⊢
      rw [if_neg (by omega), if_neg (by omega), if_neg (by omega)]
      rfl

theorem write_name_head (mode : Indexing) (name : FieldName) :
    ∃ first tail, writeName mode name = first :: tail ∧
      literalKind first = some (mode.pfx, decide (mode = .incremental)) := by
  cases name with
  | index i => exact mode_kind mode i
  | text name =>
      obtain ⟨first, tail, shape, kind⟩ := mode_kind mode 0
      exact ⟨first, tail ++ writeString name, by rw [writeName, shape, List.cons_append], kind⟩

theorem decode_field_written (d : HpackDecoder) (instruction : Instruction) (rest : Bytes) (writable : instruction.Writable) :
    ∃ first tail, instruction.write ++ rest = first :: tail ∧
      match d.perform instruction with
      | none => ∃ e, d.decodeField first (first :: tail) = .ok (.error e, d)
      | some (header, next) => d.decodeField first (first :: tail) = .ok (.ok (header, instruction.write.length), next) := by
  cases instruction with
  | indexed i =>
      obtain ⟨low, tail, small, shape⟩ := PrefixInteger.code_head 7 0x80 i
      have integer := decode_integer_code 7 0x80 i rest (by decide) (by decide) (Nat.lt_trans writable (by decide))
      have lookup := get_indexed_lookup d i
      refine ⟨.ofNat (0x80 + low), tail ++ rest, by rw [Instruction.write, shape, List.cons_append], ?_⟩
      rw [decode_field_indexed d _ _ (by rw [byte_value] <;> omega), ← List.cons_append, ← shape, integer]
      simp only [HpackDecoder.perform]
      cases found : d.lookup i with
      | none =>
          rw [found] at lookup
          obtain ⟨e, missing⟩ := lookup
          exact ⟨e, by simp only [missing]⟩
      | some header =>
          rw [found] at lookup
          simp only [Option.map_some, lookup, Instruction.write]
  | literal mode name value =>
      obtain ⟨first, tail, shape, kind⟩ := write_name_head mode name
      have literal := decode_literal_written d mode (decide (mode = .incremental)) name value rest writable.1 writable.2
      refine ⟨first, tail ++ (writeString value ++ rest), by rw [Instruction.write, shape]; simp, ?_⟩
      rw [decode_field_literal d first _ _ _ kind, ← List.cons_append, ← shape]
      simp only [HpackDecoder.perform]
      cases found : d.resolve name with
      | none =>
          rw [found] at literal
          obtain ⟨e, failed⟩ := literal
          exact ⟨e, by simp only [failed, pushed]⟩
      | some text =>
          rw [found] at literal
          simp only [Option.map_some, literal, pushed, Instruction.write, decide_eq_true_eq]
  | sizeUpdate newSize =>
      obtain ⟨low, tail, small, shape⟩ := PrefixInteger.code_head 5 0x20 newSize
      have integer := decode_integer_code 5 0x20 newSize rest (by decide) (by decide) (Nat.lt_trans writable (by decide))
      refine ⟨.ofNat (0x20 + low), tail ++ rest, by rw [Instruction.write, shape, List.cons_append], ?_⟩
      rw [decode_field_update d _ _ (by rw [byte_value] <;> omega) (by rw [byte_value] <;> omega), ← List.cons_append, ← shape,
        integer]
      rfl

end Ners.Hpack
