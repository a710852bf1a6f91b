import Ners.Http.Head

set_option autoImplicit false

namespace Ners.Http

open Search
open Utf8 (Ascii append_whole ascii_whole scan scan_append)

theorem parse_unread (buf : Bytes) (e : ParseError) (read : readHead buf = .error e) : parse buf = .ok (.error e) := by
  rw [parse_head, read]

theorem parse_read (buf : Bytes) (head : Head) (read : readHead buf = .ok head) : parse buf = head.finish buf := by
  rw [parse_head, read]

-- Where a complete head says that its body starts, and how long it says that the
-- body is.
def Announces (buf : Bytes) (bodyStart length : Nat) : Prop :=
  none ∉ scan buf ∧ ∃ headerEnd firstLineEnd, First (crlf ++ crlf) buf headerEnd ∧
    First crlf (buf.take headerEnd) firstLineEnd ∧
    3 ≤ (splitWhitespace (text ((buf.take headerEnd).take firstLineEnd))).length ∧
    bodyStart = headerEnd + 4 ∧ length = contentLength (headerFields (buf.take headerEnd) firstLineEnd)

theorem announces_iff (buf : Bytes) (bodyStart length : Nat) :
    Announces buf bodyStart length ↔
      ∃ head, readHead buf = .ok head ∧ head.bodyStart = bodyStart ∧ contentLength head.headers = length := by
  constructor
  · intro ⟨whole, headerEnd, firstLineEnd, ends, breaks, pieces, starts, announced⟩
    have bound : headerEnd + 4 ≤ buf.length := occurs_bound _ _ _ ends.1
    have size : (buf.take headerEnd).length = headerEnd := by
      rw [List.length_take]
      omega
    rw [read_head_found buf headerEnd whole ends]
    obtain ⟨missing, _⟩ | ⟨i, found, few, _⟩ | ⟨i, head, found, _, answer, fields, start⟩ := read_lines_cases (buf.take headerEnd)
    · exact absurd breaks.1 (find_none _ _ _ missing)
    · obtain rfl := first_unique _ _ _ _ breaks (find_some _ _ _ found)
      omega
    · obtain rfl := first_unique _ _ _ _ breaks (find_some _ _ _ found)
      exact ⟨head, answer, by rw [start, size, starts], by rw [fields, announced]⟩
  · rintro ⟨head, read, rfl, rfl⟩
    obtain ⟨headerEnd, whole, ends, answer⟩ := read_head_ok buf head read
    have bound : headerEnd + 4 ≤ buf.length := occurs_bound _ _ _ ends.1
    obtain ⟨i, breaks, pieces, fields, start⟩ := read_lines_ok _ head answer
    refine ⟨whole, headerEnd, i, ends, breaks, pieces, ?_, by rw [fields]⟩
    rw [start, List.length_take]
    omega

-- Only the sum of body_start and content_length can make the call unwind.
theorem parse_returns_iff (buf : Bytes) :
    (∃ answer, parse buf = .ok answer) ↔
      ∀ bodyStart length, Announces buf bodyStart length → length = 0 ∨ bodyStart + length < 2 ^ 64 := by
  cases read : readHead buf with
  | error e =>
      refine ⟨fun _ bodyStart length announced => ?_, fun _ => ⟨_, parse_unread buf e read⟩⟩
      obtain ⟨head, also, _⟩ := (announces_iff buf bodyStart length).mp announced
      cases read.symm.trans also
  | ok head =>
      have start := read_head_start buf head read
      constructor
      · rintro ⟨answer, returned⟩ bodyStart length announced
        obtain ⟨other, also, rfl, rfl⟩ := (announces_iff buf bodyStart length).mp announced
        obtain rfl := Except.ok.inj (read.symm.trans also)
        by_cases empty : contentLength head.headers = 0
        · exact .inl empty
        · refine .inr (Nat.lt_of_not_le fun carry => ?_)
          have panics := (parse_read buf head read).trans (finish_panics head buf start empty carry)
          cases panics.symm.trans returned
      · intro exact'
        rw [parse_read buf head read]
        by_cases short : buf.length < wrap head.total
        · exact ⟨_, finish_short head buf short⟩
        · by_cases empty : contentLength head.headers = 0
          · exact ⟨_, finish_bodiless head buf short empty⟩
          · have fits : head.total < 2 ^ 64 :=
              (exact' _ _ ((announces_iff buf _ _).mpr ⟨head, read, rfl, rfl⟩)).resolve_left empty
            rw [wrap_exact _ fits] at short
            exact ⟨_, finish_body head buf (Nat.le_of_not_lt short) fits⟩

-- "G / H\r\ncontent-length:18446744073709551615\r\n\r\n"
def hugeRequest : Bytes :=
  [0x47, 0x20, 0x2f, 0x20, 0x48, 0x0d, 0x0a, 0x63, 0x6f, 0x6e, 0x74, 0x65, 0x6e, 0x74, 0x2d, 0x6c, 0x65, 0x6e, 0x67, 0x74, 0x68,
    0x3a, 0x31, 0x38, 0x34, 0x34, 0x36, 0x37, 0x34, 0x34, 0x30, 0x37, 0x33, 0x37, 0x30, 0x39, 0x35, 0x35, 0x31, 0x36, 0x31, 0x35,
    0x0d, 0x0a, 0x0d, 0x0a]

theorem huge_length_panics : parse hugeRequest = .error .panic := by
  have fields : lines (text ((hugeRequest.take 42).drop 7)) = ["content-length:18446744073709551615".toList] := by
    rw [text_scan]
    decide
  have length : contentLength (headerFields (hugeRequest.take 42) 5) = 18446744073709551615 := by
    have line : insertLine ∅ "content-length:18446744073709551615".toList =
        (∅ : Headers).insert "content-length" "18446744073709551615" := rfl
    rw [headerFields, fields, List.foldl_cons, List.foldl_nil, line, contentLength, AList.lookup_insert]
    rfl
  have announced : Announces hugeRequest 46 18446744073709551615 := by
    refine ⟨ascii_whole hugeRequest (by decide), 42, 5, find_some _ _ _ (by decide), find_some _ _ _ (by decide), ?_, rfl,
      length.symm⟩
    rw [text_scan]
    decide
  obtain ⟨head, read, starts, size⟩ := (announces_iff _ _ _).mp announced
  have carry : 2 ^ 64 ≤ head.total := by
    rw [Head.total, starts, size]
    decide
  rw [parse_read hugeRequest head read]
  exact finish_panics head hugeRequest (read_head_start _ _ read) (by rw [size]; decide) carry

theorem finish_refuses (head : Head) (buf : Bytes) (e : ParseError) (refused : head.finish buf = .ok (.error e)) :
    e = .incomplete ∧ buf.length < wrap head.total := by
  by_cases short : buf.length < wrap head.total
  · rw [finish_short head buf short] at refused
    exact ⟨(Except.error.inj (Except.ok.inj refused)).symm, short⟩
  · rw [Head.finish, if_neg short] at refused
    cases body : (if 0 < contentLength head.headers then slice buf head.bodyStart (wrap head.total) else .ok []) with
    | error fault =>
        rw [body] at refused
        cases refused
    | ok bytes =>
        rw [body] at refused
        cases refused

theorem finish_incomplete (head : Head) (buf : Bytes) :
    head.finish buf = .ok (.error .incomplete) ↔ buf.length < wrap head.total :=
  ⟨fun waits => (finish_refuses head buf _ waits).2, finish_short head buf⟩

theorem read_head_agrees (buf other : Bytes) (headerEnd : Nat) (whole : none ∉ scan buf) (also : none ∉ scan other)
    (ends : First (crlf ++ crlf) buf headerEnd) (same : other.take (headerEnd + 4) = buf.take (headerEnd + 4)) :
    readHead other = readHead buf := by
  have front : other.take headerEnd = buf.take headerEnd := by
    have shorter := congrArg (List.take headerEnd) same
    rwa [List.take_take, List.take_take, Nat.min_eq_left (Nat.le_add_right _ _)] at shorter
  rw [read_head_found buf headerEnd whole ends, read_head_found other headerEnd also (first_agrees _ _ _ _ ends same), front]

theorem read_head_append (buf more : Bytes) (headerEnd : Nat) (whole : none ∉ scan buf) (also : none ∉ scan (buf ++ more))
    (ends : First (crlf ++ crlf) buf headerEnd) : readHead (buf ++ more) = readHead buf := by
  apply read_head_agrees buf (buf ++ more) headerEnd whole also ends
  exact List.take_append_of_le_length (occurs_bound _ _ _ ends.1)

def HasHeaderLine (buf : Bytes) : Prop :=
  none ∉ scan buf → ∀ headerEnd, First (crlf ++ crlf) buf headerEnd → ∃ i, Occurs crlf (buf.take headerEnd) i

def bodyLength (headersData : Bytes) : Nat :=
  match find crlf headersData with
  | none => 0
  | some firstLineEnd => contentLength (headerFields headersData firstLineEnd)

-- The head is complete, with any number of header lines, and so is the body.
def Arrived (buf : Bytes) : Prop :=
  none ∉ scan buf ∧ ∃ headerEnd, First (crlf ++ crlf) buf headerEnd ∧
    headerEnd + 4 + bodyLength (buf.take headerEnd) ≤ buf.length

theorem no_line_waits (buf : Bytes) (headerEnd : Nat) (whole : none ∉ scan buf) (ends : First (crlf ++ crlf) buf headerEnd)
    (bare : ∀ i, ¬ Occurs crlf (buf.take headerEnd) i) : parse buf = .ok (.error .incomplete) := by
  apply parse_unread
  rw [read_head_found buf headerEnd whole ends]
  exact (read_lines_incomplete _).mpr bare

theorem no_line_arrived (buf : Bytes) (headerEnd : Nat) (whole : none ∉ scan buf) (ends : First (crlf ++ crlf) buf headerEnd)
    (bare : ∀ i, ¬ Occurs crlf (buf.take headerEnd) i) : Arrived buf := by
  have bound : headerEnd + 4 ≤ buf.length := occurs_bound _ _ _ ends.1
  refine ⟨whole, headerEnd, ends, ?_⟩
  rw [bodyLength, (find_missing _ _).mpr bare]
  exact bound

theorem arrived_answered (buf : Bytes) (arrived : Arrived buf) (line : HasHeaderLine buf) :
    parse buf ≠ .ok (.error .incomplete) := by
  obtain ⟨whole, headerEnd, ends, enough⟩ := arrived
  have bound : headerEnd + 4 ≤ buf.length := occurs_bound _ _ _ ends.1
  obtain ⟨j, breaks⟩ := line whole headerEnd ends
  have read := read_head_found buf headerEnd whole ends
  obtain ⟨missing, _⟩ | ⟨i, _, _, answer⟩ | ⟨i, head, found, _, answer, fields, start⟩ := read_lines_cases (buf.take headerEnd)
  · exact absurd breaks (find_none _ _ _ missing)
  · rw [parse_unread buf _ (read.trans answer)]
    exact fun same => nomatch same
  · rw [parse_read buf head (read.trans answer)]
    have length : bodyLength (buf.take headerEnd) = contentLength head.headers := by
      rw [bodyLength, found, fields]
    rw [List.length_take, Nat.min_eq_left (by omega)] at start
    have low : wrap head.total ≤ head.bodyStart + contentLength head.headers := Nat.mod_le _ _
    refine fun waits => absurd ((finish_incomplete head buf).mp waits) ?_
    omega

theorem announced_cured (buf : Bytes) (headerEnd i : Nat) (whole : none ∉ scan buf)
    (ends : First (crlf ++ crlf) buf headerEnd) (breaks : Occurs crlf (buf.take headerEnd) i) :
    ∃ more, none ∉ scan (buf ++ more) ∧ parse (buf ++ more) ≠ .ok (.error .incomplete) := by
  let body := List.replicate (bodyLength (buf.take headerEnd)) (0x61 : UInt8)
  have ascii : Ascii body := by
    intro b member
    obtain rfl := List.eq_of_mem_replicate member
    decide
  have bound : headerEnd + 4 ≤ buf.length := occurs_bound _ _ _ ends.1
  have also := append_whole buf body whole (ascii_whole body ascii)
  have later := first_append _ _ body _ ends
  have front : (buf ++ body).take headerEnd = buf.take headerEnd := List.take_append_of_le_length (by omega)
  refine ⟨body, also, arrived_answered _ ⟨also, headerEnd, later, ?_⟩ ?_⟩
  · rw [front, List.length_append, List.length_replicate]
    omega
  · intro _ other again
    obtain rfl := first_unique _ _ _ _ later again
    exact ⟨i, front ▸ breaks⟩

-- "a\r\nb\r\n\r\n" gives a head with a line break to whatever has arrived.
def cure : Bytes := [0x61, 0x0d, 0x0a, 0x62, 0x0d, 0x0a, 0x0d, 0x0a]

theorem open_cured (buf : Bytes) (whole : none ∉ scan buf) (open' : ∀ i, ¬ Occurs (crlf ++ crlf) buf i) :
    ∃ more, none ∉ scan (buf ++ more) ∧ parse (buf ++ more) ≠ .ok (.error .incomplete) := by
  have ascii : Ascii cure := by decide
  have also := append_whole buf cure whole (ascii_whole cure ascii)
  have ends : First (crlf ++ crlf) (buf ++ cure) (buf.length + 4) :=
    first_past _ buf _ 0x61 3 open' (by decide) (find_some _ _ _ (by decide))
  have front : (buf ++ cure).take (buf.length + 4) = buf ++ [0x61, 0x0d, 0x0a, 0x62] := by
    rw [List.take_append, List.take_of_length_le (Nat.le_add_right _ _), Nat.add_sub_cancel_left]
    rfl
  have breaks : Occurs crlf ((buf ++ cure).take (buf.length + 4)) (buf.length + 1) := by
    rw [front]
    exact ⟨buf ++ [0x61], [0x62], by simp [crlf], by simp⟩
  obtain ⟨more, stays, answered⟩ := announced_cured (buf ++ cure) _ _ also ends breaks
  rw [List.append_assoc] at stays answered
  exact ⟨cure ++ more, stays, answered⟩

theorem incomplete_cured (buf : Bytes) (incomplete : parse buf = .ok (.error .incomplete)) (line : HasHeaderLine buf) :
    ∃ more, none ∉ scan (buf ++ more) ∧ parse (buf ++ more) ≠ .ok (.error .incomplete) := by
  have whole : none ∉ scan buf := by
    intro torn
    cases (parse_unread buf _ (read_head_torn buf torn)).symm.trans incomplete
  cases found : find (crlf ++ crlf) buf with
  | none => exact open_cured buf whole ((find_missing _ _).mp found)
  | some headerEnd =>
      have ends := find_some _ _ _ found
      obtain ⟨i, breaks⟩ := line whole headerEnd ends
      exact announced_cured buf headerEnd i whole ends breaks

theorem torn_answered (buf : Bytes) : ∃ more, parse (buf ++ more) ≠ .ok (.error .incomplete) := by
  by_cases torn : none ∈ scan buf
  · refine ⟨[], ?_⟩
    rw [List.append_nil, parse_unread buf _ (read_head_torn buf torn)]
    exact fun same => nomatch same
  · refine ⟨[0xff], ?_⟩
    have ends : none ∈ scan (buf ++ [0xff]) := by
      rw [scan_append buf _ torn]
      exact List.mem_append_right _ (by decide)
    rw [parse_unread _ _ (read_head_torn _ ends)]
    exact fun same => nomatch same

theorem no_line_stuck (buf more : Bytes) (headerEnd : Nat) (whole : none ∉ scan buf) (also : none ∉ scan (buf ++ more))
    (ends : First (crlf ++ crlf) buf headerEnd) (bare : ∀ i, ¬ Occurs crlf (buf.take headerEnd) i) :
    parse (buf ++ more) = .ok (.error .incomplete) := by
  apply parse_unread
  rw [read_head_append buf more headerEnd whole also ends, read_head_found buf headerEnd whole ends]
  exact (read_lines_incomplete _).mpr bare

-- Only bytes that tear the text get parse to give up a complete head without
-- header lines.
theorem incomplete_is_curable_iff (buf : Bytes) :
    (((parse buf = .ok (.error .incomplete) → ∃ more, parse (buf ++ more) ≠ .ok (.error .incomplete)) ∧
      (Arrived buf → parse buf ≠ .ok (.error .incomplete))) ↔ HasHeaderLine buf) ∧
    ((parse buf = .ok (.error .incomplete) →
      ∃ more, none ∉ scan (buf ++ more) ∧ parse (buf ++ more) ≠ .ok (.error .incomplete)) ↔ HasHeaderLine buf) := by
  have bare (none' : ¬ HasHeaderLine buf) : ∃ headerEnd, none ∉ scan buf ∧ First (crlf ++ crlf) buf headerEnd ∧
      ∀ i, ¬ Occurs crlf (buf.take headerEnd) i := by
    simp only [HasHeaderLine, not_forall, not_exists] at none'
    obtain ⟨whole, headerEnd, ends, bare⟩ := none'
    exact ⟨headerEnd, whole, ends, bare⟩
  refine ⟨⟨fun answers => by_contra fun none' => ?_, fun line => ⟨fun _ => torn_answered buf, fun arrived =>
    arrived_answered buf arrived line⟩⟩, ⟨fun curable => by_contra fun none' => ?_, fun line incomplete =>
    incomplete_cured buf incomplete line⟩⟩
  · obtain ⟨headerEnd, whole, ends, bare⟩ := bare none'
    exact answers.2 (no_line_arrived buf headerEnd whole ends bare) (no_line_waits buf headerEnd whole ends bare)
  · obtain ⟨headerEnd, whole, ends, bare⟩ := bare none'
    obtain ⟨more, also, answered⟩ := curable (no_line_waits buf headerEnd whole ends bare)
    exact answered (no_line_stuck buf more headerEnd whole also ends bare)

-- "GET / HTTP/1.1\r\n\r\n"
def bareRequest : Bytes :=
  [0x47, 0x45, 0x54, 0x20, 0x2f, 0x20, 0x48, 0x54, 0x54, 0x50, 0x2f, 0x31, 0x2e, 0x31, 0x0d, 0x0a, 0x0d, 0x0a]

theorem bare_request_waits : Arrived bareRequest ∧ parse bareRequest = .ok (.error .incomplete) := by
  have whole : none ∉ scan bareRequest := ascii_whole bareRequest (by decide)
  have ends : First (crlf ++ crlf) bareRequest 14 := find_some _ _ _ (by decide)
  have bare : ∀ i, ¬ Occurs crlf (bareRequest.take 14) i := (find_missing _ _).mp (by decide)
  exact ⟨no_line_arrived bareRequest 14 whole ends bare, no_line_waits bareRequest 14 whole ends bare⟩

end Ners.Http
