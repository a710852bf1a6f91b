import Ners.Http.Arrival

set_option autoImplicit false

namespace Ners.Http

open Search
open Utf8 (Ascii ascii_append ascii_whole scan)

def Head.request (head : Head) (buf : Bytes) : HttpRequest :=
  ⟨head.method, head.path, head.version, head.headers, (buf.drop head.bodyStart).take (contentLength head.headers)⟩

theorem parse_request (buf : Bytes) (req : HttpRequest) (n : Nat) (addressable : buf.length < 2 ^ 64)
    (answer : parse buf = .ok (.ok (req, n))) :
    ∃ head, readHead buf = .ok head ∧ n = head.total ∧ n ≤ buf.length ∧ req = head.request buf := by
  cases read : readHead buf with
  | error e => cases (parse_unread buf e read).symm.trans answer
  | ok head =>
      have start := read_head_start buf head read
      have finished := (parse_read buf head read).symm.trans answer
      have enough : ¬ buf.length < wrap head.total := by
        intro short
        cases (finish_short head buf short).symm.trans finished
      have fits : head.total < 2 ^ 64 := by
        refine Nat.lt_of_not_le fun carry => ?_
        by_cases empty : contentLength head.headers = 0
        · rw [Head.total, empty] at carry
          omega
        · cases (finish_panics head buf start empty carry).symm.trans finished
      rw [wrap_exact _ fits] at enough
      have body := (finish_body head buf (Nat.le_of_not_lt enough) fits).symm.trans finished
      simp only [Except.ok.injEq, Prod.mk.injEq] at body
      exact ⟨head, rfl, body.2.symm, body.2 ▸ Nat.le_of_not_lt enough, body.1.symm⟩

theorem parse_complete (buf other : Bytes) (head : Head) (read : readHead buf = .ok head) (also : none ∉ scan other)
    (fits : head.total < 2 ^ 64) (enough : head.total ≤ other.length)
    (same : other.take head.total = buf.take head.total) : parse other = .ok (.ok (head.request buf, head.total)) := by
  obtain ⟨headerEnd, whole, ends, lines⟩ := read_head_ok buf head read
  have bound : headerEnd + 4 ≤ buf.length := occurs_bound _ _ _ ends.1
  obtain ⟨_, _, _, _, start⟩ := read_lines_ok _ head lines
  rw [List.length_take, Nat.min_eq_left (by omega)] at start
  have within : headerEnd + 4 ≤ head.total := start ▸ Nat.le_add_right _ _
  have front : other.take (headerEnd + 4) = buf.take (headerEnd + 4) := by
    have shorter := congrArg (List.take (headerEnd + 4)) same
    rwa [List.take_take, List.take_take, Nat.min_eq_left within] at shorter
  have body : (other.drop head.bodyStart).take (contentLength head.headers) =
      (buf.drop head.bodyStart).take (contentLength head.headers) := by
    rw [List.take_drop, List.take_drop]
    exact congrArg _ same
  rw [parse_read other head ((read_head_agrees buf other headerEnd whole also ends front).trans read)]
  rw [finish_body head other enough fits, body]
  rfl

theorem parse_partial (buf : Bytes) (head : Head) (k : Nat) (read : readHead buf = .ok head) (also : none ∉ scan (buf.take k))
    (fits : head.total < 2 ^ 64) (short : k < head.total) : parse (buf.take k) = .ok (.error .incomplete) := by
  obtain ⟨headerEnd, whole, ends, lines⟩ := read_head_ok buf head read
  by_cases cut : k < headerEnd + 4
  · exact parse_unread _ _ (read_head_open _ also (first_cut _ buf headerEnd k ends cut))
  · have front : (buf.take k).take (headerEnd + 4) = buf.take (headerEnd + 4) := by
      rw [List.take_take, Nat.min_eq_left (by omega)]
    rw [parse_read _ head ((read_head_agrees buf _ headerEnd whole also ends front).trans read)]
    apply finish_short
    rw [wrap_exact _ fits, List.length_take]
    omega

-- The parse stage on one connection: what arrives is appended to read_buf, and
-- the request is tried again until the answer is another than Incomplete. The
-- answer comes with the number of chunks that were not enough.
def retry (readBuf : Bytes) : List Bytes → Option (Nat × Except Fault (Except ParseError (HttpRequest × Nat)))
  | [] => none
  | chunk :: more =>
      match parse (readBuf ++ chunk) with
      | .ok (.error .incomplete) => (retry (readBuf ++ chunk) more).map fun (tries, answer) => (tries + 1, answer)
      | answer => some (0, answer)

theorem retry_completes (stream got : Bytes) (chunks : List Bytes) (req : HttpRequest) (n : Nat)
    (early : ∀ k < n, parse (stream.take k) = .ok (.error .incomplete))
    (late : ∀ k ≥ n, parse (stream.take k) = .ok (.ok (req, n))) (enough : n ≤ stream.length)
    (split : got ++ chunks.flatten = stream) (short : got.length < n) :
    ∃ before chunk after, chunks = before ++ chunk :: after ∧ (got ++ before.flatten).length < n ∧
      n ≤ (got ++ before.flatten ++ chunk).length ∧ retry got chunks = some (before.length, .ok (.ok (req, n))) := by
  induction chunks generalizing got with
  | nil =>
      rw [List.flatten_nil, List.append_nil] at split
      rw [split] at short
      omega
  | cons chunk more ih =>
      rw [List.flatten_cons, ← List.append_assoc] at split
      have arrived : got ++ chunk = stream.take (got ++ chunk).length := by
        rw [← split, List.take_left]
      by_cases complete : n ≤ (got ++ chunk).length
      · refine ⟨[], chunk, more, rfl, by simpa using short, by simpa using complete, ?_⟩
        rw [retry, arrived, late _ complete]
        rfl
      · obtain ⟨before, last, after, rfl, still, whole, answer⟩ := ih (got ++ chunk) split (Nat.lt_of_not_le complete)
        rw [List.append_assoc got chunk] at still whole
        refine ⟨chunk :: before, last, after, rfl, still, whole, ?_⟩
        have waits := early _ (Nat.lt_of_not_le complete)
        rw [← arrived] at waits
        rw [retry, waits]
        simp only [answer, Option.map_some, List.length_cons]

theorem arrival_does_not_matter (buf : Bytes) (ascii : Ascii buf) (addressable : buf.length < 2 ^ 64) :
    (∀ req n, parse buf = .ok (.ok (req, n)) →
      n ≤ buf.length ∧ (∀ k < n, parse (buf.take k) = .ok (.error .incomplete)) ∧
      (∀ suffix, Ascii suffix → parse (buf.take n ++ suffix) = .ok (.ok (req, n))) ∧
      ∀ chunks, chunks.flatten = buf → ∃ before chunk after, chunks = before ++ chunk :: after ∧
        before.flatten.length < n ∧ n ≤ (before.flatten ++ chunk).length ∧
        retry [] chunks = some (before.length, .ok (.ok (req, n)))) ∧
    ∀ reason, parse buf = .ok (.error (.invalid reason)) →
      ∀ suffix, Ascii suffix → parse (buf ++ suffix) = .ok (.error (.invalid reason)) := by
  have front (k : Nat) : Ascii (buf.take k) := fun b member => ascii b (List.mem_of_mem_take member)
  refine ⟨fun req n answer => ?_, fun reason answer suffix more => ?_⟩
  · obtain ⟨head, read, rfl, enough, rfl⟩ := parse_request buf req n addressable answer
    have fits : head.total < 2 ^ 64 := Nat.lt_of_le_of_lt enough addressable
    have early (k : Nat) (short : k < head.total) :=
      parse_partial buf head k read (ascii_whole _ (front k)) fits short
    refine ⟨enough, early, fun suffix more => ?_, fun chunks split => ?_⟩
    · have size : (buf.take head.total).length = head.total := by
        rw [List.length_take, Nat.min_eq_left enough]
      apply parse_complete buf _ head read (ascii_whole _ (ascii_append _ _ (front _) more)) fits
      · rw [List.length_append, size]
        exact Nat.le_add_right _ _
      · rw [List.take_append_of_le_length (Nat.le_of_eq size.symm), List.take_take, Nat.min_self]
    · have late (k : Nat) (whole : k ≥ head.total) : parse (buf.take k) = .ok (.ok (head.request buf, head.total)) := by
        apply parse_complete buf _ head read (ascii_whole _ (front k)) fits
        · rw [List.length_take]
          omega
        · rw [List.take_take, Nat.min_eq_left whole]
      have positive : ([] : Bytes).length < head.total := by
        rw [List.length_nil, Head.total]
        obtain ⟨_, _, _, lines⟩ := read_head_ok buf head read
        obtain ⟨_, _, _, _, start⟩ := read_lines_ok _ head lines
        omega
      exact retry_completes buf [] chunks _ _ early late enough (by rw [List.nil_append, split]) positive
  · cases read : readHead buf with
    | ok head => cases (finish_refuses head buf _ ((parse_read buf head read).symm.trans answer)).1
    | error e =>
        obtain rfl := Except.error.inj (Except.ok.inj ((parse_unread buf e read).symm.trans answer))
        have whole := ascii_whole buf ascii
        cases found : find (crlf ++ crlf) buf with
        | none => cases (read_head_open buf whole ((find_missing _ _).mp found)).symm.trans read
        | some headerEnd =>
            apply parse_unread
            have also := ascii_whole _ (ascii_append buf suffix ascii more)
            rw [read_head_append buf suffix headerEnd whole also (find_some _ _ _ found), read]

-- "G / H\r\nh:1\r\n\r\n"
def shortRequest : Bytes := [0x47, 0x20, 0x2f, 0x20, 0x48, 0x0d, 0x0a, 0x68, 0x3a, 0x31, 0x0d, 0x0a, 0x0d, 0x0a]

theorem short_request_arrives : ∃ req, parse shortRequest = .ok (.ok (req, 14)) ∧
    ∀ chunks, chunks.flatten = shortRequest → ∃ before chunk after, chunks = before ++ chunk :: after ∧
      before.flatten.length < 14 ∧ 14 ≤ (before.flatten ++ chunk).length ∧
      retry [] chunks = some (before.length, .ok (.ok (req, 14))) := by
  have ascii : Ascii shortRequest := by decide
  have fields : lines (text ((shortRequest.take 10).drop 7)) = ["h:1".toList] := by
    rw [text_scan]
    decide
  have length : contentLength (headerFields (shortRequest.take 10) 5) = 0 := by
    rw [headerFields, fields]
    rfl
  have announced : Announces shortRequest 14 0 := by
    refine ⟨ascii_whole _ ascii, 10, 5, find_some _ _ _ (by decide), find_some _ _ _ (by decide), ?_, rfl, length.symm⟩
    rw [text_scan]
    decide
  obtain ⟨head, read, starts, size⟩ := (announces_iff _ _ _).mp announced
  have total : head.total = 14 := by rw [Head.total, starts, size]
  have parsed := parse_complete shortRequest shortRequest head read (ascii_whole _ ascii) (by rw [total]; decide)
    (by rw [total]; decide) rfl
  rw [total] at parsed
  exact ⟨_, parsed, ((arrival_does_not_matter shortRequest ascii (by decide)).1 _ _ parsed).2.2.2⟩

end Ners.Http
