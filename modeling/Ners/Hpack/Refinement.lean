import Ners.Hpack.Interpreter
import Ners.Hpack.TableBounds

set_option autoImplicit false

namespace Ners.Hpack

open Eviction (LongestFit fit)
open Utf8 (asBytes)

def DynamicEntry.header (entry : DynamicEntry) : Header := (entry.name, entry.value)

-- The table that the reference interpreter runs on: entries without their
-- cached sizes, and no running total.
def HpackDecoder.view (d : HpackDecoder) : ReferenceTable := ⟨d.dynamicTable.map DynamicEntry.header, d.maxSize⟩

theorem header_size (entry : DynamicEntry) : headerSize entry.header = entry.size := entry.sized.symm

theorem fit_headers (limit : Nat) (entries : List DynamicEntry) :
    (fit DynamicEntry.size limit entries).map DynamicEntry.header = fit headerSize limit (entries.map DynamicEntry.header) := by
  induction entries generalizing limit with
  | nil => rfl
  | cons entry rest ih =>
      rw [List.map_cons, fit, fit, header_size]
      by_cases room : entry.size ≤ limit
      · rw [if_pos room, if_pos room, List.map_cons, ih]
      · rw [if_neg room, if_neg room, List.map_nil]

theorem longest_is_fit (limit : Nat) (entries kept : List DynamicEntry)
    (fits : LongestFit DynamicEntry.size limit entries kept) : kept = fit DynamicEntry.size limit entries :=
  Eviction.longest_fit_unique _ limit entries _ _ fits (Eviction.fit_longest _ limit entries)

theorem view_add_entry (d : HpackDecoder) (name value : String) (sized : d.toHpackTable.Sized) :
    (d.addEntry name value).view = d.view.insert (name, value) := by
  have kept := longest_is_fit _ _ _ (add_entry_fits d.toHpackTable name value sized)
  simp only [HpackDecoder.view, HpackDecoder.addEntry, kept, add_entry_max_size, ReferenceTable.insert, fit_headers,
    List.map_cons]
  rfl

theorem view_resize (d : HpackDecoder) (newSize : Nat) (sized : d.toHpackTable.Sized) :
    (d.resize newSize).view = d.view.setLimit newSize := by
  have kept := longest_is_fit _ _ _ (resize_fits d.toHpackTable newSize sized)
  simp only [HpackDecoder.view, HpackDecoder.resize, kept, resize_max_size, ReferenceTable.setLimit, fit_headers]

theorem view_lookup (d : HpackDecoder) (i : Nat) : d.view.lookup i = d.lookup i := by
  have rows : staticTable.length = 61 := rfl
  by_cases zero : i = 0
  · rw [ReferenceTable.lookup, HpackDecoder.lookup, if_pos zero, if_pos zero]
  · rw [ReferenceTable.lookup, HpackDecoder.lookup, if_neg zero, if_neg zero, HpackDecoder.addressSpace]
    by_cases static : i ≤ 61
    · rw [if_pos static, List.getElem?_append_left (by omega)]
    · rw [if_neg static, List.getElem?_append_right (by omega), rows, Nat.sub_sub]
      rfl

theorem view_resolve (d : HpackDecoder) (name : FieldName) : d.view.resolve name = d.resolve name := by
  cases name with
  | index i => rw [ReferenceTable.resolve, HpackDecoder.resolve, view_lookup]
  | text name => rfl

theorem view_step (d : HpackDecoder) (instruction : Instruction) (sized : d.toHpackTable.Sized) :
    d.view.step instruction = (d.perform instruction).map fun after => (after.1, after.2.view) := by
  cases instruction with
  | indexed i =>
      rw [ReferenceTable.step, HpackDecoder.perform, view_lookup, Option.map_map]
      rfl
  | literal mode name value =>
      rw [ReferenceTable.step, HpackDecoder.perform, view_resolve, Option.map_map]
      congr 1
      funext name
      by_cases indexing : mode = .incremental
      · simp only [if_pos indexing, Function.comp_apply, view_add_entry d name value sized]
      · simp only [if_neg indexing, Function.comp_apply]
  | sizeUpdate newSize =>
      rw [ReferenceTable.step, HpackDecoder.perform, Option.map_some, view_resize d newSize sized]

theorem perform_sized (d d' : HpackDecoder) (instruction : Instruction) (header : Option Header)
    (performed : d.perform instruction = some (header, d')) (sized : d.toHpackTable.Sized) : d'.toHpackTable.Sized := by
  cases instruction with
  | indexed i =>
      obtain ⟨found, _, same⟩ := Option.map_eq_some_iff.mp performed
      cases same
      exact sized
  | literal mode name value =>
      obtain ⟨found, _, same⟩ := Option.map_eq_some_iff.mp performed
      by_cases indexing : mode = .incremental
      · rw [if_pos indexing] at same
        cases same
        exact add_entry_sized d.toHpackTable found value sized
      · rw [if_neg indexing] at same
        cases same
        exact sized
  | sizeUpdate newSize =>
      cases performed
      exact resize_sized d.toHpackTable newSize sized

-- What decode has to return and leave for the outcome of a reference run.
def Matches (outcome : Option (List Header) × ReferenceTable) (decoded : Decoded) : Prop :=
  ∃ d', d'.view = outcome.2 ∧
    match outcome.1 with
    | some headers => decoded = .ok (.ok headers, d')
    | none => ∃ e, decoded = .ok (.error e, d')

theorem matches_prepend (front : List Header) (headers : Option (List Header)) (t : ReferenceTable) (decoded : Decoded)
    (later : Matches (headers, t) decoded) : Matches (headers.map (front ++ ·), t) (prepend front decoded) := by
  obtain ⟨d', same, shape⟩ := later
  refine ⟨d', same, ?_⟩
  cases headers with
  | none =>
      obtain ⟨e, rfl⟩ := shape
      exact ⟨e, rfl⟩
  | some found =>
      have equal : decoded = .ok (.ok found, d') := shape
      subst equal
      rfl

theorem decode_written (instructions : List Instruction) (writable : ∀ instruction ∈ instructions, instruction.Writable)
    (d : HpackDecoder) (sized : d.toHpackTable.Sized) : Matches (d.view.run instructions) (d.decode (writeBlock instructions)) := by
  induction instructions generalizing d with
  | nil => exact ⟨d, rfl, rfl⟩
  | cons instruction later ih =>
      obtain ⟨first, tail, front, field⟩ :=
        decode_field_written d instruction (writeBlock later) (writable instruction List.mem_cons_self)
      have block : writeBlock (instruction :: later) = first :: tail := by
        rw [← front]
        rfl
      rw [block, decode_cons, ReferenceTable.run, view_step d instruction sized]
      cases performed : d.perform instruction with
      | none =>
          rw [performed] at field
          obtain ⟨e, failed⟩ := field
          exact ⟨d, rfl, e, by rw [failed]⟩
      | some after =>
          obtain ⟨header, next⟩ := after
          rw [performed] at field
          have decoded := ih (fun other member => writable other (List.mem_cons_of_mem _ member)) next
            (perform_sized d next instruction header performed sized)
          simp only [field, Option.map_some]
          rw [← front, List.drop_left]
          exact matches_prepend _ _ _ _ decoded

theorem decode_interprets (N : Nat) (d : HpackDecoder) (reachable : d.Reachable N) (instructions : List Instruction)
    (writable : ∀ instruction ∈ instructions, instruction.Writable) :
    Matches (d.view.run instructions) (d.decode (writeBlock instructions)) := by
  obtain ⟨calls, run⟩ := reachable
  exact decode_written instructions writable d (run_sized N calls d run)

-- An insertion, a reference to it from index 62, an insertion named by it that
-- evicts it, and a reference past the end.
def evictingProgram : List Instruction := [
  .sizeUpdate 66, .literal .incremental (.text "k") "v", .indexed 62, .literal .incremental (.index 62) "w",
  .literal .never (.index 62) "x", .indexed 63]

theorem decode_interprets_evicting : ∃ e d', d'.view = ⟨[("k", "w")], 66⟩ ∧
    (HpackDecoder.new 4096).decode (writeBlock evictingProgram) = .ok (.error e, d') := by
  obtain ⟨d', same, e, failed⟩ := decode_interprets 4096 (.new 4096) ⟨[], .new⟩ evictingProgram (by decide)
  exact ⟨e, d', same, failed⟩

end Ners.Hpack
