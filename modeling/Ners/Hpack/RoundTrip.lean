import Ners.Hpack.Encoder
import Ners.Hpack.Interpreter

set_option autoImplicit false

namespace Ners.Hpack

open PrefixInteger (code)
open Utf8 (asBytes)

-- The instruction that encode writes for one header.
def chosen (name value : String) : Instruction :=
  match findStatic name value with
  | some (index, true) => .indexed index
  | some (index, false) => .literal .incremental (.index index) value
  | none => .literal .incremental (.text name) value

-- A Rust string occupies at most isize::MAX bytes.
def Allocated (s : String) : Prop := (asBytes s).length < 2 ^ 63

def AllocatedHeaders (headers : List Header) : Prop := ∀ header ∈ headers, Allocated header.1 ∧ Allocated header.2

instance (s : String) : Decidable (Allocated s) := inferInstanceAs (Decidable ((asBytes s).length < 2 ^ 63))

instance (headers : List Header) : Decidable (AllocatedHeaders headers) :=
  inferInstanceAs (Decidable (∀ header ∈ headers, Allocated header.1 ∧ Allocated header.2))

theorem encode_string_written (s : String) : encodeString s = writeString s := by
  rw [encodeString, writeString, encode_integer_code _ 7 0 (by decide) (by decide)]
  rfl

theorem static_position (name value : String) (index : Nat) (hasValue : Bool)
    (found : findStatic name value = some (index, hasValue)) :
    1 ≤ index ∧ index ≤ 61 ∧ ∃ v, staticTable[index - 1]? = some (name, v) ∧ (hasValue = true → v = value) := by
  obtain ⟨one, v, access, agrees⟩ := find_static_found name value staticTable 0 index hasValue found
  obtain ⟨bound, _⟩ := List.getElem?_eq_some_iff.mp access
  have rows : staticTable.length = 61 := rfl
  exact ⟨one, by omega, v, access, agrees⟩

theorem encode_header_written (e : HpackEncoder) (name value : String) :
    (e.encodeHeader name value).1 = (chosen name value).write := by
  unfold HpackEncoder.encodeHeader chosen
  rcases findStatic name value with _ | ⟨index, _ | _⟩
  · simp only [Instruction.write, writeName, encode_string_written]
    rfl
  · simp only [Instruction.write, writeName, encode_string_written, Bool.false_eq_true, if_false]
    rw [encode_integer_code index 6 0x40 (by decide) (by decide)]
    rfl
  · simp only [Instruction.write, if_true]
    exact encode_integer_code index 7 0x80 (by decide) (by decide)

theorem chosen_writable (name value : String) (short : Allocated name ∧ Allocated value) : (chosen name value).Writable := by
  unfold chosen
  rcases found : findStatic name value with _ | ⟨index, _ | _⟩
  · exact short
  · obtain ⟨one, within, _⟩ := static_position name value index false found
    exact ⟨⟨one, by omega⟩, short.2⟩
  · obtain ⟨one, within, _⟩ := static_position name value index true found
    simp only [Instruction.Writable]
    omega

theorem static_lookup (d : HpackDecoder) (index : Nat) (one : 1 ≤ index) (within : index ≤ 61) :
    d.lookup index = staticTable[index - 1]? := by
  have rows : staticTable.length = 61 := rfl
  rw [HpackDecoder.lookup, if_neg (by omega), HpackDecoder.addressSpace, List.getElem?_append_left (by omega)]

theorem perform_chosen (e : HpackEncoder) (d : HpackDecoder) (name value : String) :
    ∃ d', d.perform (chosen name value) = some (some (name, value), d') ∧
      (d.toHpackTable = e.toHpackTable → d'.toHpackTable = (e.encodeHeader name value).2.toHpackTable) := by
  unfold chosen HpackEncoder.encodeHeader
  rcases found : findStatic name value with _ | ⟨index, _ | _⟩
  · refine ⟨d.addEntry name value, rfl, ?_⟩
    intro same
    simp only [HpackDecoder.addEntry, HpackEncoder.addEntry, same]
  · obtain ⟨one, within, v, access, _⟩ := static_position name value index false found
    have lookup := static_lookup d index one within
    refine ⟨d.addEntry name value, ?_, ?_⟩
    · simp only [HpackDecoder.perform, HpackDecoder.resolve, lookup, access, Option.map_some, if_true]
    · intro same
      simp only [HpackDecoder.addEntry, HpackEncoder.addEntry, same, Bool.false_eq_true, if_false]
  · obtain ⟨one, within, v, access, agrees⟩ := static_position name value index true found
    have lookup := static_lookup d index one within
    refine ⟨d, ?_, fun same => same⟩
    simp only [HpackDecoder.perform, lookup, access, Option.map_some, agrees rfl]

theorem decode_encoded (headers : List Header) (short : AllocatedHeaders headers)
    (e : HpackEncoder) (d : HpackDecoder) :
    ∃ d', Walk d (e.encode headers).1 headers d' [] ∧
      (d.toHpackTable = e.toHpackTable → d'.toHpackTable = (e.encode headers).2.toHpackTable) := by
  induction headers generalizing e d with
  | nil => exact ⟨d, .here d [], fun same => same⟩
  | cons header rest ih =>
      obtain ⟨name, value⟩ := header
      have writable := chosen_writable name value (short (name, value) (by simp))
      obtain ⟨next, performed, lockstep⟩ := perform_chosen e d name value
      obtain ⟨d', walk, later⟩ := ih (fun other member => short other (by simp [member])) (e.encodeHeader name value).2 next
      obtain ⟨first, tail, front, field⟩ := decode_field_written d (chosen name value)
        ((e.encodeHeader name value).2.encode rest).1 writable
      rw [performed] at field
      refine ⟨d', ?_, fun same => later (lockstep same)⟩
      simp only [HpackEncoder.encode, encode_header_written, front]
      refine .turn d next d' first tail [] (some (name, value)) _ rest field ?_
      rw [← front, List.drop_left]
      exact walk

-- Blocks encoded by one side and decoded by the other, in order.
def HpackEncoder.encodeAll (e : HpackEncoder) : List (List Header) → List Bytes × HpackEncoder
  | [] => ([], e)
  | headers :: later =>
      let written := e.encode headers
      (written.1 :: (written.2.encodeAll later).1, (written.2.encodeAll later).2)

def HpackDecoder.decodeAll (d : HpackDecoder) : List Bytes → Except Fault (List (Except String (List Header)) × HpackDecoder)
  | [] => .ok ([], d)
  | block :: later =>
      match d.decode block with
      | .error fault => .error fault
      | .ok (result, d) =>
          match d.decodeAll later with
          | .error fault => .error fault
          | .ok (results, d) => .ok (result :: results, d)

theorem walk_to_end (d d' : HpackDecoder) (block : Bytes) (headers : List Header) (walk : Walk d block headers d' []) :
    d.decode block = .ok (.ok headers, d') := by
  rw [walk_decode d d' block [] headers walk, decode_nil]
  simp only [prepend, List.append_nil]

theorem decode_all_encoded (blocks : List (List Header)) (short : ∀ headers ∈ blocks, AllocatedHeaders headers)
    (e : HpackEncoder) (d : HpackDecoder) (same : d.toHpackTable = e.toHpackTable) :
    ∃ d', d.decodeAll (e.encodeAll blocks).1 = .ok (blocks.map .ok, d') ∧
      d'.toHpackTable = (e.encodeAll blocks).2.toHpackTable := by
  induction blocks generalizing e d with
  | nil => exact ⟨d, rfl, same⟩
  | cons headers later ih =>
      obtain ⟨next, walk, lockstep⟩ := decode_encoded headers (short headers List.mem_cons_self) e d
      obtain ⟨d', decoded, final⟩ :=
        ih (fun other member => short other (List.mem_cons_of_mem _ member)) (e.encode headers).2 next (lockstep same)
      refine ⟨d', ?_, final⟩
      simp only [HpackEncoder.encodeAll, HpackDecoder.decodeAll, walk_to_end d next _ headers walk, decoded, List.map_cons]

theorem encode_round_trip :
    (∀ (e : HpackEncoder) (d : HpackDecoder) (headers : List Header), AllocatedHeaders headers →
      ∃ d', Walk d (e.encode headers).1 headers d' [] ∧ d.decode (e.encode headers).1 = .ok (.ok headers, d')) ∧
    (∀ (N : Nat) (blocks : List (List Header)), (∀ headers ∈ blocks, AllocatedHeaders headers) →
      ∃ d', (HpackDecoder.new N).decodeAll ((HpackEncoder.new N).encodeAll blocks).1 = .ok (blocks.map .ok, d') ∧
        d'.toHpackTable = ((HpackEncoder.new N).encodeAll blocks).2.toHpackTable) := by
  constructor
  · intro e d headers short
    obtain ⟨d', walk, _⟩ := decode_encoded headers short e d
    exact ⟨d', walk, walk_to_end d d' _ headers walk⟩
  · intro N blocks short
    exact decode_all_encoded blocks short (.new N) (.new N) rfl

theorem encode_round_trip_pair :
    (∃ d', Walk (.new 0) ((HpackEncoder.new 4096).encode [(":method", "PUT"), ("", "")]).1 [(":method", "PUT"), ("", "")] d' [] ∧
      (HpackDecoder.new 0).decode ((HpackEncoder.new 4096).encode [(":method", "PUT"), ("", "")]).1 =
        .ok (.ok [(":method", "PUT"), ("", "")], d')) ∧
    ∃ d', (HpackDecoder.new 64).decodeAll ((HpackEncoder.new 64).encodeAll [[("a", "b")], [("a", "b")]]).1 =
        .ok ([.ok [("a", "b")], .ok [("a", "b")]], d') ∧
      d'.toHpackTable = ((HpackEncoder.new 64).encodeAll [[("a", "b")], [("a", "b")]]).2.toHpackTable :=
  ⟨encode_round_trip.1 (.new 4096) (.new 0) [(":method", "PUT"), ("", "")] (by decide),
    encode_round_trip.2 64 [[("a", "b")], [("a", "b")]] (by decide)⟩

end Ners.Hpack
