import Ners.Http.WellFormed

set_option autoImplicit false

namespace Ners.Http

open Search (occurs_bound)
open Utf8 (fromUtf8)

-- The lines behind the request line, and the bytes up to the end of the empty
-- line.
def headLines (buf : Bytes) : List (List Char) :=
  match find (crlf ++ crlf) buf with
  | none => []
  | some headerEnd =>
      match find crlf (buf.take headerEnd) with
      | none => []
      | some firstLineEnd => lines (text ((buf.take headerEnd).drop (firstLineEnd + 2)))

def headLength (buf : Bytes) : Nat :=
  match find (crlf ++ crlf) buf with
  | none => 0
  | some headerEnd => headerEnd + 4

def lengthValues (buf : Bytes) : List (List Char) := (headLines buf).filterMap lengthValue

-- A request that parse accepts has the one length that all its Content-Length
-- lines give.
def Unambiguous (buf : Bytes) : Prop :=
  ∀ req n, parse buf = .ok (.ok (req, n)) →
    (lengthValues buf = [] ∧ n = headLength buf ∧ req.body = []) ∨
    ∃ c, lengthValues buf ≠ [] ∧ (∀ value ∈ lengthValues buf, Numeral value c) ∧ n = headLength buf + c ∧ req.body.length = c

-- What usize::from_str accepts.
def Decimal (value : List Char) (c : Nat) : Prop :=
  c < 2 ^ 64 ∧ ∃ digits, (value = digits ∨ value = '+' :: digits) ∧ Numeral digits c

-- How parse frames a request: by the last Content-Length line alone, and one
-- without a value of its type stands for 0.
def Announced (values : List (List Char)) (c : Nat) : Prop :=
  match values.getLast? with
  | none => c = 0
  | some last => Decimal last c ∨ (∀ k, ¬ Decimal last k) ∧ c = 0

-- A head is there, and its first line has fewer than three words.
def ShortRequestLine (buf : Bytes) : Prop :=
  ∃ headerEnd firstLineEnd, find (crlf ++ crlf) buf = some headerEnd ∧ find crlf (buf.take headerEnd) = some firstLineEnd ∧
    (splitWhitespace (text ((buf.take headerEnd).take firstLineEnd))).length < 3

theorem numeral_plus (digits : List Char) (c : Nat) : ¬ Numeral ('+' :: digits) c := by
  rintro ⟨_, decimal, _⟩
  simp [Char.isDigit] at decimal

theorem parse_usize_iff (value : List Char) (c : Nat) : parseUsize value = some c ↔ Decimal value c := by
  have core (digits : List Char) : (if digits = [] ∨ ¬ digits.all Char.isDigit then none
      else
        let value := digits.foldl (fun n c => n * 10 + (c.toNat - 48)) 0
        if value < 2 ^ 64 then some value else none) = some c ↔ c < 2 ^ 64 ∧ Numeral digits c := by
    simp only [Option.ite_none_left_eq_some, Option.ite_none_right_eq_some, Option.some.injEq, Numeral, not_or,
      not_not]
    constructor
    · rintro ⟨⟨nonempty, decimal⟩, small, rfl⟩
      exact ⟨small, nonempty, decimal, rfl⟩
    · rintro ⟨small, nonempty, decimal, rfl⟩
      exact ⟨⟨nonempty, decimal⟩, small, rfl⟩
  unfold parseUsize Decimal
  split
  · rename_i digits
    rw [core]
    refine and_congr_right fun small => ⟨fun numeral => ⟨digits, .inr rfl, numeral⟩, ?_⟩
    rintro ⟨other, same | same, numeral⟩
    · exact absurd (same ▸ numeral) (numeral_plus digits c)
    · exact (List.cons.inj same).2 ▸ numeral
  · rename_i plain
    rw [core]
    refine and_congr_right fun small => ⟨fun numeral => ⟨value, .inl rfl, numeral⟩, ?_⟩
    rintro ⟨digits, rfl | rfl, numeral⟩
    · exact numeral
    · exact absurd rfl (plain digits)

theorem content_length_announced (found : List (List Char)) :
    Announced (found.filterMap lengthValue) (contentLength (found.foldl insertLine ∅)) := by
  unfold Announced contentLength
  rw [insert_lines_lookup]
  cases (found.filterMap lengthValue).getLast? with
  | none => rfl
  | some last =>
      simp only [Option.map_some, Option.bind_some, String.toList_ofList]
      cases parsed : parseUsize last with
      | none =>
          refine .inr ⟨fun k decimal => ?_, rfl⟩
          cases parsed.symm.trans ((parse_usize_iff last k).mpr decimal)
      | some c => exact .inl ((parse_usize_iff last c).mp parsed)

theorem head_framed (buf : Bytes) (head : Head) (read : readHead buf = .ok head) :
    head.bodyStart = headLength buf ∧ head.headers = (headLines buf).foldl insertLine ∅ := by
  obtain ⟨headerEnd, _, ends, answer⟩ := read_head_ok buf head read
  obtain ⟨firstLineEnd, breaks, _, fields, start⟩ := read_lines_ok _ head answer
  have bound : headerEnd + 4 ≤ buf.length := occurs_bound _ _ _ ends.1
  rw [List.length_take, Nat.min_eq_left (by omega)] at start
  unfold headLength headLines
  rw [(find_first _ _ _).mpr ends]
  dsimp only
  rw [(find_first _ _ _).mpr breaks]
  exact ⟨start, fields⟩

theorem refused_unread (buf : Bytes) (reason : String) (refused : parse buf = .ok (.error (.invalid reason))) :
    readHead buf = .error (.invalid reason) := by
  cases read : readHead buf with
  | error e =>
      obtain rfl := Except.error.inj (Except.ok.inj ((parse_unread buf e read).symm.trans refused))
      rfl
  | ok head => cases (finish_refuses head buf _ ((parse_read buf head read).symm.trans refused)).1

theorem unread_iff (buf : Bytes) (reason : String) : readHead buf = .error (.invalid reason) ↔
    (reason = "Invalid UTF-8" ∧ fromUtf8 buf = none) ∨
    (reason = "Invalid request line" ∧ fromUtf8 buf ≠ none ∧ ShortRequestLine buf) := by
  unfold readHead ShortRequestLine
  cases decoded : fromUtf8 buf with
  | none =>
      constructor
      · intro unread
        cases unread
        exact .inl ⟨rfl, rfl⟩
      · rintro (⟨rfl, _⟩ | ⟨_, whole, _⟩)
        · rfl
        · exact absurd rfl whole
  | some s =>
      cases ends : find (crlf ++ crlf) buf with
      | none => simp
      | some headerEnd =>
          obtain ⟨missing, answer⟩ | ⟨i, found, few, answer⟩ | ⟨i, head, found, enough, answer, _⟩ :=
            read_lines_cases (buf.take headerEnd)
          · simp [missing, answer]
          · simp [found, answer, few, eq_comm]
          · simp [found, answer, enough]

theorem refused_iff (buf : Bytes) (reason : String) : parse buf = .ok (.error (.invalid reason)) ↔
    (reason = "Invalid UTF-8" ∧ fromUtf8 buf = none) ∨
    (reason = "Invalid request line" ∧ fromUtf8 buf ≠ none ∧ ShortRequestLine buf) :=
  Iff.trans ⟨refused_unread buf reason, parse_unread buf _⟩ (unread_iff buf reason)

theorem last_length_frames (buf : Bytes) (addressable : buf.length < 2 ^ 64) :
    (∀ req n, parse buf = .ok (.ok (req, n)) →
      ∃ c, Announced (lengthValues buf) c ∧ n = headLength buf + c ∧ req.body = (buf.drop (headLength buf)).take c ∧
        req.body.length = c) ∧
    ∀ reason, parse buf = .ok (.error (.invalid reason)) ↔
      (reason = "Invalid UTF-8" ∧ fromUtf8 buf = none) ∨
      (reason = "Invalid request line" ∧ fromUtf8 buf ≠ none ∧ ShortRequestLine buf) := by
  refine ⟨fun req n answer => ?_, refused_iff buf⟩
  obtain ⟨head, read, size, enough, rfl⟩ := parse_request buf req n addressable answer
  obtain ⟨start, headers⟩ := head_framed buf head read
  have announced := content_length_announced (headLines buf)
  rw [← headers] at announced
  rw [Head.total, start] at size
  refine ⟨contentLength head.headers, announced, size, by rw [Head.request, start], ?_⟩
  rw [Head.request, List.length_take, List.length_drop, start]
  omega

theorem written_lines (head : RequestHead) (rest : Bytes) : headLines (head.bytes ++ rest) = head.fields.map HeaderLine.chars := by
  have data : (head.bytes ++ rest).take (Utf8.encode head.data).length = Utf8.encode head.data := by
    rw [head_bytes, List.append_assoc, List.take_left]
  unfold headLines
  rw [(find_first _ _ _).mpr (head_end head rest)]
  dsimp only
  rw [data, request_line_end]
  exact field_lines head

theorem digit_plain (digit : Char) (between : digit.isDigit = true) : ∀ c ∈ [digit], c ≠ '\r' ∧ c ≠ '\n' := by
  intro c member
  obtain rfl := List.mem_singleton.mp member
  refine ⟨?_, ?_⟩
  · rintro rfl
    cases between
  · rintro rfl
    cases between

-- "POST / HTTP/1.1\r\nCONTENT-LENGTH:5\r\ncontent-length:0\r\n\r\n"
def twoLengths : RequestHead where
  method := postHead.method
  path := postHead.path
  version := postHead.version
  fields := [
    ⟨['C', 'O', 'N', 'T', 'E', 'N', 'T', '-', 'L', 'E', 'N', 'G', 'T', 'H'], ['5'], by decide, by decide, by simp, by decide,
      digit_plain '5' rfl⟩,
    ⟨['c', 'o', 'n', 't', 'e', 'n', 't', '-', 'l', 'e', 'n', 'g', 't', 'h'], ['0'], by decide, by decide, by simp, by decide,
      digit_plain '0' rfl⟩]
  some := by decide

theorem two_lengths_values : lengthValues twoLengths.bytes = [['5'], ['0']] := by
  have fields := written_lines twoLengths []
  rw [List.append_nil] at fields
  rw [lengthValues, fields]
  decide

theorem two_lengths_size : twoLengths.bytes.length = 55 := by
  rw [RequestHead.bytes, Utf8.encode_ascii _ (by decide), List.length_map]
  decide

theorem two_lengths_parsed : ∃ req, parse twoLengths.bytes = .ok (.ok (req, 55)) ∧ req.body = [] := by
  have length : contentLength (headerMap twoLengths.fields) = 0 :=
    content_length_last [_] [] _ 0 (by decide) (by unfold Numeral; decide) (by decide) (List.forall_mem_nil _)
  have parsed := written_parsed twoLengths [] [] (by decide) (by decide) length (by rw [two_lengths_size]; decide)
  rw [List.append_nil, List.append_nil, two_lengths_size] at parsed
  exact ⟨_, parsed, rfl⟩

-- The five bytes behind the head would be the next request.
theorem two_lengths_accepted : ¬ Unambiguous twoLengths.bytes := by
  intro unambiguous
  obtain ⟨req, parsed, _⟩ := two_lengths_parsed
  obtain ⟨none, _⟩ | ⟨c, _, same, _⟩ := unambiguous req 55 parsed
  · rw [two_lengths_values] at none
    cases none
  · rw [two_lengths_values] at same
    have five : 5 = c := (same ['5'] (by decide)).2.2
    have zero : 0 = c := (same ['0'] (by decide)).2.2
    omega

theorem two_lengths_framed : ∃ req c, parse twoLengths.bytes = .ok (.ok (req, 55)) ∧ Announced (lengthValues twoLengths.bytes) c ∧
    55 = headLength twoLengths.bytes + c := by
  obtain ⟨req, parsed, _⟩ := two_lengths_parsed
  obtain ⟨c, announced, size, _⟩ := (last_length_frames twoLengths.bytes (by rw [two_lengths_size]; decide)).1 req 55 parsed
  exact ⟨req, c, parsed, announced, size⟩

end Ners.Http
