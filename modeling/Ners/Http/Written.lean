import Ners.Http.Retry
import Mathlib.Data.List.TakeDrop

set_option autoImplicit false

namespace Ners.Http

open Search
open Unicode (isWhitespace toLowercase)
open Utf8 (Ascii AsciiText append_whole ascii_append ascii_encode ascii_whole encode encode_append encode_ascii encode_member scan
  scan_append scan_chars scan_lone)

-- A word of the request line, and a header line: what a client may write.
structure Word where
  chars : List Char
  nonempty : chars ≠ []
  ascii : AsciiText chars
  solid : ∀ c ∈ chars, isWhitespace c = false

structure HeaderLine where
  key : List Char
  value : List Char
  nonempty : key ≠ []
  keyAscii : AsciiText key
  keyPlain : ∀ c ∈ key, c ≠ ':' ∧ c ≠ '\r' ∧ c ≠ '\n'
  valueAscii : AsciiText value
  valuePlain : ∀ c ∈ value, c ≠ '\r' ∧ c ≠ '\n'

structure RequestHead where
  method : Word
  path : Word
  version : Word
  fields : List HeaderLine
  some : fields ≠ []

def eol : List Char := ['\r', '\n']

def HeaderLine.chars (line : HeaderLine) : List Char := line.key ++ ':' :: line.value

def HeaderLine.name (line : HeaderLine) : List Char := toLowercase (trim line.key)

def RequestHead.requestLine (head : RequestHead) : List Char :=
  head.method.chars ++ ' ' :: (head.path.chars ++ ' ' :: head.version.chars)

def joined (line : List Char) (later : List (List Char)) : List Char := line ++ later.flatMap (eol ++ ·)

def RequestHead.data (head : RequestHead) : List Char := joined head.requestLine (head.fields.map HeaderLine.chars)

-- The request line and the header lines, each ended by a line break, and an
-- empty line.
def RequestHead.bytes (head : RequestHead) : Bytes := encode (head.data ++ eol ++ eol)

def headerMap (fields : List HeaderLine) : Headers :=
  fields.foldl (fun headers line => headers.insert (.ofList line.name) (.ofList (trim line.value))) ∅

-- A line of text: ASCII, not empty, without line breaks.
def Plain (line : List Char) : Prop := AsciiText line ∧ ∀ c ∈ line, c ≠ '\r' ∧ c ≠ '\n'

theorem text_encode (chars : List Char) : text (encode chars) = chars := by
  rw [text_scan, encode, scan_chars, List.map_map]
  simp [Function.comp_def]

theorem split_words (method path version : Word) :
    splitWhitespace (method.chars ++ ' ' :: (path.chars ++ ' ' :: version.chars)) =
      [method.chars, path.chars, version.chars] := by
  have solid (word : Word) (c : Char) (member : c ∈ word.chars) : isWhitespace c = false := word.solid c member
  rw [splitWhitespace, List.splitOnP_append_cons_of_forall_mem (solid method) ' ' (by decide),
    List.splitOnP_append_cons_of_forall_mem (solid path) ' ' (by decide), List.splitOnP_eq_singleton (solid version)]
  simp [method.nonempty, path.nonempty, version.nonempty]

theorem lines_cons (line rest : List Char) (whole : '\n' ∉ line) :
    lines (line ++ '\n' :: rest) = stripCr line :: lines rest := by
  have split : (line ++ '\n' :: rest).splitOn '\n' = line :: rest.splitOn '\n' :=
    List.splitOn_append_cons_self_of_not_mem whole rest
  have some := List.splitOn_ne_nil '\n' rest
  simp only [lines, split]
  rw [List.dropLast_cons_of_ne_nil some, List.map_cons, List.cons_append, List.getLast?_cons_of_ne_nil some]

theorem lines_last (line : List Char) (whole : '\n' ∉ line) (nonempty : line ≠ []) : lines line = [line] := by
  simp [lines, List.splitOn_eq_singleton whole, nonempty]

theorem lines_joined (line : List Char) (later : List (List Char)) (nonempty : line ≠ []) (whole : '\n' ∉ line)
    (also : ∀ other ∈ later, other ≠ [] ∧ '\n' ∉ other) : lines (joined line later) = line :: later := by
  induction later generalizing line with
  | nil =>
      rw [joined, List.flatMap_nil, List.append_nil]
      exact lines_last line whole nonempty
  | cons next later ih =>
      have here := also next List.mem_cons_self
      have tail := ih next here.1 here.2 fun other member => also other (List.mem_cons_of_mem next member)
      have cut : joined line (next :: later) = (line ++ ['\r']) ++ '\n' :: joined next later := by
        simp [joined, eol]
      have strip : stripCr (line ++ ['\r']) = line := by simp [stripCr]
      rw [cut, lines_cons _ _ (by simpa using whole), strip, tail]

theorem field_cut (line : HeaderLine) : line.chars.span (· ≠ ':') = (line.key, ':' :: line.value) := by
  have key : ∀ c ∈ line.key, decide (c ≠ ':') = true := fun c member => decide_eq_true (line.keyPlain c member).1
  rw [List.span_eq_takeWhile_dropWhile, HeaderLine.chars, List.takeWhile_append_of_pos key, List.dropWhile_append_of_pos key]
  simp

theorem insert_line (headers : Headers) (line : HeaderLine) :
    insertLine headers line.chars = headers.insert (.ofList line.name) (.ofList (trim line.value)) := by
  rw [insertLine, field_cut]
  rfl

theorem insert_lines (headers : Headers) (fields : List HeaderLine) :
    (fields.map HeaderLine.chars).foldl insertLine headers =
      fields.foldl (fun headers line => headers.insert (.ofList line.name) (.ofList (trim line.value))) headers := by
  induction fields generalizing headers with
  | nil => rfl
  | cons line rest ih =>
      rw [List.map_cons, List.foldl_cons, List.foldl_cons, insert_line]
      exact ih _

theorem plain_append (front back : List Char) (one : Plain front) (other : Plain back) : Plain (front ++ back) := by
  refine ⟨fun c member => ?_, fun c member => ?_⟩
  · exact (List.mem_append.mp member).elim (one.1 c) (other.1 c)
  · exact (List.mem_append.mp member).elim (one.2 c) (other.2 c)

theorem plain_word (word : Word) : Plain word.chars := by
  refine ⟨word.ascii, fun c member => ⟨?_, ?_⟩⟩
  · rintro rfl
    cases word.solid _ member
  · rintro rfl
    cases word.solid _ member

theorem request_line_plain (head : RequestHead) : Plain head.requestLine := by
  have space : Plain [' '] := by simp [Plain, AsciiText]
  have rest := plain_append _ _ space (plain_word head.version)
  have middle := plain_append _ _ space (plain_append _ _ (plain_word head.path) rest)
  exact plain_append _ _ (plain_word head.method) middle

theorem field_plain (line : HeaderLine) : Plain line.chars := by
  have colon : Plain [':'] := by simp [Plain, AsciiText]
  have rest := plain_append _ _ colon ⟨line.valueAscii, line.valuePlain⟩
  exact plain_append _ _ ⟨line.keyAscii, fun c member => (line.keyPlain c member).2⟩ rest

theorem field_nonempty (line : HeaderLine) : line.chars ≠ [] := by
  simp [HeaderLine.chars]

theorem plain_bytes (line : List Char) (plain : Plain line) (b : UInt8) (member : b ∈ encode line) :
    b ∉ crlf ++ crlf := by
  intro breaks
  have either : b = .ofNat '\r'.toNat ∨ b = .ofNat '\n'.toNat := by
    simp only [crlf, List.cons_append, List.nil_append, List.mem_cons, List.not_mem_nil, or_false] at breaks
    obtain rfl | rfl | rfl | rfl := breaks
    · exact .inl rfl
    · exact .inr rfl
    · exact .inl rfl
    · exact .inr rfl
  obtain rfl | rfl := either
  · exact (plain.2 _ (encode_member line '\r' plain.1 (by decide) member)).1 rfl
  · exact (plain.2 _ (encode_member line '\n' plain.1 (by decide) member)).2 rfl

theorem first_end (line : Bytes) (later : List Bytes) (rest : Bytes) (plain : ∀ b ∈ line, b ∉ crlf ++ crlf)
    (also : ∀ other ∈ later, other ≠ [] ∧ ∀ b ∈ other, b ∉ crlf ++ crlf) :
    First (crlf ++ crlf) (line ++ later.flatMap (crlf ++ ·) ++ (crlf ++ crlf) ++ rest)
      (line ++ later.flatMap (crlf ++ ·)).length := by
  have foreign (bytes : Bytes) (plain : ∀ b ∈ bytes, b ∉ crlf ++ crlf) : 0x0d ∉ bytes := fun member =>
    plain _ member (by decide)
  induction later generalizing line with
  | nil =>
      rw [List.flatMap_nil, List.append_nil]
      exact first_head _ line rest _ (foreign line plain)
  | cons next later ih =>
      obtain ⟨nonempty, clean⟩ := also next List.mem_cons_self
      cases next with
      | nil => exact absurd rfl nonempty
      | cons b tail =>
          have tailPlain : ∀ c ∈ tail, c ∉ crlf ++ crlf := fun c member => clean c (List.mem_cons_of_mem b member)
          have behind := ih tail tailPlain fun other member => also other (List.mem_cons_of_mem _ member)
          have clear : ∀ j, ¬ Occurs (crlf ++ crlf) (line ++ crlf) j := by
            intro j again
            have bound := occurs_bound _ _ j again
            simp only [crlf, List.length_append, List.length_cons, List.length_nil] at bound
            have at' := occurs_member _ _ 0x0d j again
            rw [List.getElem?_append_left (by omega)] at at'
            exact foreign line plain (List.mem_of_getElem? at')
          have past := first_past _ (line ++ crlf) _ b _ clear (clean b List.mem_cons_self) behind
          simp only [List.flatMap_cons, List.append_assoc, List.cons_append, List.length_append, List.length_cons] at past ⊢
          convert past using 1
          omega

theorem encode_eol : encode eol = crlf := by decide

theorem encode_joined (line : List Char) (later : List (List Char)) :
    encode (joined line later) = encode line ++ (later.map encode).flatMap (crlf ++ ·) := by
  rw [joined, encode_append]
  congr 1
  induction later with
  | nil => rfl
  | cons next later ih =>
      rw [List.flatMap_cons, List.map_cons, List.flatMap_cons, encode_append, encode_append, encode_eol, ih]

theorem encode_nonempty (line : List Char) (plain : Plain line) (nonempty : line ≠ []) : encode line ≠ [] := by
  rw [encode_ascii line plain.1]
  simpa using nonempty

theorem head_bytes (head : RequestHead) : head.bytes = encode head.data ++ (crlf ++ crlf) := by
  rw [RequestHead.bytes, encode_append, encode_append, encode_eol, List.append_assoc]

theorem head_end (head : RequestHead) (rest : Bytes) :
    First (crlf ++ crlf) (head.bytes ++ rest) (encode head.data).length := by
  rw [head_bytes, RequestHead.data, encode_joined]
  apply first_end
  · exact plain_bytes _ (request_line_plain head)
  · simp only [List.map_map, List.mem_map, Function.comp_apply]
    rintro _ ⟨field, _, rfl⟩
    exact ⟨encode_nonempty _ (field_plain field) (field_nonempty field), plain_bytes _ (field_plain field)⟩

theorem data_ascii (head : RequestHead) : AsciiText head.data := by
  intro c member
  simp only [RequestHead.data, joined, List.mem_append, List.mem_flatMap, List.mem_map] at member
  obtain inside | ⟨_, ⟨field, _, rfl⟩, inside | inside⟩ := member
  · exact (request_line_plain head).1 c inside
  · obtain rfl | rfl := (List.mem_pair.mp inside)
    · decide
    · decide
  · exact (field_plain field).1 c inside

theorem head_ascii (head : RequestHead) : Ascii head.bytes := by
  rw [head_bytes]
  exact ascii_append _ _ (ascii_encode _ (data_ascii head)) (by decide)

theorem data_cut (head : RequestHead) : ∃ field fields, head.fields = field :: fields ∧
    encode head.data = encode head.requestLine ++ crlf ++ encode (joined field.chars (fields.map HeaderLine.chars)) := by
  obtain ⟨field, fields, same⟩ : ∃ field fields, head.fields = field :: fields :=
    List.exists_cons_of_ne_nil head.some
  refine ⟨field, fields, same, ?_⟩
  rw [RequestHead.data, encode_joined, encode_joined, same]
  simp

theorem request_line_end (head : RequestHead) : find crlf (encode head.data) = some (encode head.requestLine).length := by
  obtain ⟨field, fields, _, cut⟩ := data_cut head
  have foreign : 0x0d ∉ encode head.requestLine := fun member =>
    plain_bytes _ (request_line_plain head) _ member (by decide)
  rw [cut]
  exact (find_first _ _ _).mpr (first_head _ _ _ _ foreign)

theorem field_lines (head : RequestHead) :
    lines (text ((encode head.data).drop ((encode head.requestLine).length + 2))) = head.fields.map HeaderLine.chars := by
  obtain ⟨field, fields, same, cut⟩ := data_cut head
  have size : (encode head.requestLine ++ crlf).length = (encode head.requestLine).length + 2 := List.length_append
  rw [cut, ← size, List.drop_left, text_encode, same, List.map_cons]
  have whole (line : HeaderLine) : '\n' ∉ line.chars := fun member => ((field_plain line).2 _ member).2 rfl
  apply lines_joined
  · exact field_nonempty field
  · exact whole field
  · simp only [List.mem_map]
    rintro _ ⟨other, _, rfl⟩
    exact ⟨field_nonempty other, whole other⟩

theorem read_data (head : RequestHead) :
    readLines (encode head.data) = .ok ⟨.ofList head.method.chars, .ofList head.path.chars, .ofList head.version.chars,
      headerMap head.fields, head.bytes.length⟩ := by
  have words : splitWhitespace (text ((encode head.data).take (encode head.requestLine).length)) =
      [head.method.chars, head.path.chars, head.version.chars] := by
    obtain ⟨field, fields, _, cut⟩ := data_cut head
    rw [cut, List.append_assoc, List.take_left, text_encode]
    exact split_words head.method head.path head.version
  have size : head.bytes.length = (encode head.data).length + 4 := by
    rw [head_bytes, List.length_append]
    rfl
  unfold readLines
  simp only [request_line_end, words, headerFields, field_lines, insert_lines, size, headerMap]

theorem read_written (head : RequestHead) (rest : Bytes) (whole : none ∉ scan rest) :
    readHead (head.bytes ++ rest) = .ok ⟨.ofList head.method.chars, .ofList head.path.chars, .ofList head.version.chars,
      headerMap head.fields, head.bytes.length⟩ := by
  have also := append_whole _ rest (ascii_whole _ (head_ascii head)) whole
  rw [read_head_found _ _ also (head_end head rest), head_bytes, List.append_assoc, List.take_left, read_data, head_bytes]

end Ners.Http
