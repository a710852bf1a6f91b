import Ners.Http.Written
import Mathlib.Data.List.Induction

set_option autoImplicit false

namespace Ners.Http

open Unicode (isWhitespace toLowercase)
open Utf8 (Ascii append_whole ascii_whole encode_ascii first_high high_torn scan)

def lengthName : List Char := "content-length".toList

-- The decimal numerals of a number, with any leading zeros.
def Numeral (digits : List Char) (c : Nat) : Prop :=
  digits ≠ [] ∧ digits.all Char.isDigit = true ∧ digits.foldl (fun n d => n * 10 + (d.toNat - 48)) 0 = c

-- One header line is named Content-Length, in any case, and gives c.
def RequestHead.LengthIs (head : RequestHead) (c : Nat) : Prop :=
  ∃ before line after, head.fields = before ++ line :: after ∧ line.name = lengthName ∧ Numeral (trim line.value) c ∧
    ∀ other ∈ before ++ after, other.name ≠ lengthName

theorem parse_numeral (digits : List Char) (c : Nat) (numeral : Numeral digits c) (word : c < 2 ^ 64) :
    parseUsize digits = some c := by
  obtain ⟨nonempty, decimal, value⟩ := numeral
  simp only [parseUsize]
  split
  · cases decimal
  · simp only [nonempty, decimal, value, not_true_eq_false, or_false, if_false, if_pos word]

-- The trimmed value of a line named Content-Length in any case.
def lengthValue (line : List Char) : Option (List Char) :=
  match line.span (· ≠ ':') with
  | (_, []) => none
  | (key, _ :: value) => if toLowercase (trim key) = lengthName then some (trim value) else none

theorem insert_line_lookup (headers : Headers) (line : List Char) :
    (insertLine headers line).lookup "content-length" =
      ((lengthValue line).map String.ofList).or (headers.lookup "content-length") := by
  have name : "content-length" = String.ofList lengthName := String.ofList_toList.symm
  unfold insertLine lengthValue
  rcases line.span (· ≠ ':') with ⟨key, _ | ⟨colon, value⟩⟩
  · rfl
  · dsimp only
    by_cases named : toLowercase (trim key) = lengthName
    · rw [if_pos named, named, name, AList.lookup_insert]
      rfl
    · have apart : String.ofList lengthName ≠ String.ofList (toLowercase (trim key)) := fun same =>
        named (String.ofList_injective same).symm
      rw [if_neg named, name, AList.lookup_insert_ne apart]
      rfl

-- The last insertion of the key stays.
theorem insert_lines_lookup (found : List (List Char)) :
    (found.foldl insertLine ∅).lookup "content-length" = ((found.filterMap lengthValue).getLast?).map String.ofList := by
  induction found using List.reverseRecOn with
  | nil => rfl
  | append_singleton front line ih =>
      rw [List.foldl_append, List.foldl_cons, List.foldl_nil, insert_line_lookup, ih, List.filterMap_append,
        List.getLast?_append]
      cases value : lengthValue line with
      | none => simp [value]
      | some digits => simp [value]

theorem length_value_field (line : HeaderLine) :
    lengthValue line.chars = if line.name = lengthName then some (trim line.value) else none := by
  rw [lengthValue, field_cut]
  rfl

theorem header_map_length (fields : List HeaderLine) :
    (headerMap fields).lookup "content-length" =
      ((fields.filterMap fun line => if line.name = lengthName then some (trim line.value) else none).getLast?).map
        String.ofList := by
  rw [headerMap, ← insert_lines, insert_lines_lookup, List.filterMap_map]
  congr 3
  funext line
  exact length_value_field line

theorem content_length_last (before after : List HeaderLine) (line : HeaderLine) (c : Nat) (named : line.name = lengthName)
    (numeral : Numeral (trim line.value) c) (word : c < 2 ^ 64) (last : ∀ other ∈ after, other.name ≠ lengthName) :
    contentLength (headerMap (before ++ line :: after)) = c := by
  have none_behind : after.filterMap (fun line => if line.name = lengthName then some (trim line.value) else none) = [] :=
    List.filterMap_eq_nil_iff.mpr fun other member => if_neg (last other member)
  rw [contentLength, header_map_length, List.filterMap_append, List.filterMap_cons, if_pos named, none_behind,
    List.getLast?_append, List.getLast?_singleton, Option.some_or, Option.map_some, Option.bind_some, String.toList_ofList,
    parse_numeral _ c numeral word]
  rfl

theorem content_length_missing (fields : List HeaderLine) (other : ∀ line ∈ fields, line.name ≠ lengthName) :
    contentLength (headerMap fields) = 0 := by
  have none_there : fields.filterMap (fun line => if line.name = lengthName then some (trim line.value) else none) = [] :=
    List.filterMap_eq_nil_iff.mpr fun line member => if_neg (other line member)
  rw [contentLength, header_map_length, none_there]
  rfl

theorem body_is_opaque_iff (head : RequestHead) (c : Nat) (body : Bytes) (announced : head.LengthIs c)
    (small : head.bytes.length + c < 2 ^ 64) (size : body.length = c) :
    ((∃ req, parse (head.bytes ++ body) = .ok (.ok (req, head.bytes.length + c)) ∧ req.body = body) ∧
      ∀ k < c, parse (head.bytes ++ body.take k) = .ok (.error .incomplete)) ↔ Ascii body := by
  have headWhole := ascii_whole _ (head_ascii head)
  constructor
  · intro answers
    by_contra other
    obtain ⟨front, b, back, rfl, ascii, high⟩ := first_high body other
    have torn := high_torn _ b (append_whole _ _ headWhole (ascii_whole front ascii)) high
    rw [List.append_assoc] at torn
    have refused := parse_unread _ _ (read_head_torn _ torn)
    cases back with
    | nil =>
        obtain ⟨⟨req, parsed, _⟩, _⟩ := answers
        cases refused.symm.trans parsed
    | cons next back =>
        simp only [List.length_append, List.length_cons] at size
        have waits := answers.2 (front.length + 1) (by omega)
        have cut : (front ++ b :: next :: back).take (front.length + 1) = front ++ [b] := List.take_length_add_append 1
        rw [cut] at waits
        cases refused.symm.trans waits
  · intro ascii
    obtain ⟨before, line, after, fields, named, numeral, single⟩ := announced
    have read := read_written head body (ascii_whole body ascii)
    have length : contentLength (headerMap head.fields) = c := by
      rw [fields]
      exact content_length_last before after line c named numeral (by omega) fun other member =>
        single other (List.mem_append_right before member)
    have whole := append_whole _ _ headWhole (ascii_whole body ascii)
    generalize same : (Head.mk (.ofList head.method.chars) (.ofList head.path.chars) (.ofList head.version.chars)
      (headerMap head.fields) head.bytes.length) = parts at read
    have starts : parts.bodyStart = head.bytes.length := by rw [← same]
    have announced : contentLength parts.headers = c := by rw [← same, length]
    have total : parts.total = head.bytes.length + c := by rw [Head.total, starts, announced]
    refine ⟨⟨parts.request (head.bytes ++ body), ?_, ?_⟩, fun k short => ?_⟩
    · rw [← total]
      apply parse_complete _ _ parts read whole (total ▸ small) _ rfl
      rw [total, List.length_append, size]
    · rw [Head.request, starts, announced, List.drop_left, ← size, List.take_length]
    · have cut : (head.bytes ++ body).take (head.bytes.length + k) = head.bytes ++ body.take k := by
        rw [List.take_length_add_append]
      have front : Ascii (body.take k) := fun b member => ascii b (List.mem_of_mem_take member)
      rw [← cut]
      apply parse_partial _ parts _ read _ (total ▸ small) (by rw [total]; omega)
      rw [cut]
      exact append_whole _ _ headWhole (ascii_whole _ front)

-- "POST / HTTP/1.1\r\nContent-Length: 2\r\n\r\n"
def postHead : RequestHead where
  method := ⟨['P', 'O', 'S', 'T'], by decide, by decide, by simp [isWhitespace]⟩
  path := ⟨['/'], by decide, by decide, by simp [isWhitespace]⟩
  version := ⟨['H', 'T', 'T', 'P', '/', '1', '.', '1'], by decide, by decide, by simp [isWhitespace]⟩
  fields := [⟨['C', 'o', 'n', 't', 'e', 'n', 't', '-', 'L', 'e', 'n', 'g', 't', 'h'], [' ', '2'], by decide, by decide,
    by simp, by decide, by simp⟩]
  some := by decide

theorem post_head_length : postHead.LengthIs 2 :=
  ⟨[], _, [], rfl, by decide, by unfold Numeral; decide, fun _ member => nomatch member⟩

theorem post_head_size : postHead.bytes.length = 38 := by
  rw [RequestHead.bytes, encode_ascii _ (by decide), List.length_map]
  decide

theorem post_arrives : (∃ req, parse (postHead.bytes ++ [0x68, 0x69]) = .ok (.ok (req, postHead.bytes.length + 2)) ∧
      req.body = [0x68, 0x69]) ∧
    ∀ k < 2, parse (postHead.bytes ++ [0x68, 0x69].take k) = .ok (.error .incomplete) :=
  (body_is_opaque_iff postHead 2 [0x68, 0x69] post_head_length (by rw [post_head_size]; decide) rfl).mpr (by decide)

-- Two bytes outside UTF-8, and the first byte of a character of two bytes.
theorem foreign_bytes_refused : postHead.LengthIs 2 ∧
    parse (postHead.bytes ++ [0xff, 0xff]) = .ok (.error (.invalid "Invalid UTF-8")) ∧
    parse (postHead.bytes ++ [0xc3, 0xa9].take 1) = .ok (.error (.invalid "Invalid UTF-8")) := by
  have whole := ascii_whole _ (head_ascii postHead)
  have torn (bytes : Bytes) (torn : none ∈ scan bytes) : none ∈ scan (postHead.bytes ++ bytes) := by
    rw [Utf8.scan_append _ _ whole]
    exact List.mem_append_right _ torn
  exact ⟨post_head_length, parse_unread _ _ (read_head_torn _ (torn _ (by decide))),
    parse_unread _ _ (read_head_torn _ (torn _ (by decide)))⟩

end Ners.Http
