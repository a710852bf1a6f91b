import Ners.Base.Search
import Ners.Http.Parser

set_option autoImplicit false

namespace Ners.Http

open Search
open Utf8 (fromUtf8 scan)

theorem find_some (pattern : Bytes) (buf : Bytes) (i : Nat) (found : find pattern buf = some i) : First pattern buf i := by
  induction buf generalizing i with
  | nil =>
      by_cases empty : pattern = []
      · rw [find, if_pos empty, Option.some.injEq] at found
        subst found empty
        exact ⟨⟨[], [], rfl, rfl⟩, fun j before => absurd before (Nat.not_lt_zero j)⟩
      · rw [find, if_neg empty] at found
        cases found
  | cons b rest ih =>
      by_cases here : pattern.isPrefixOf (b :: rest) = true
      · rw [find, if_pos here, Option.some.injEq] at found
        subst found
        exact ⟨(occurs_zero pattern (b :: rest)).mpr (List.isPrefixOf_iff_prefix.mp here), fun j before =>
          absurd before (Nat.not_lt_zero j)⟩
      · rw [find, if_neg here, Option.map_eq_some_iff] at found
        obtain ⟨k, later, rfl⟩ := found
        refine ⟨(occurs_succ pattern rest b k).mpr (ih k later).1, fun j before again => ?_⟩
        cases j with
        | zero => exact here (List.isPrefixOf_iff_prefix.mpr ((occurs_zero pattern (b :: rest)).mp again))
        | succ j => exact (ih k later).2 j (Nat.lt_of_succ_lt_succ before) ((occurs_succ pattern rest b j).mp again)

theorem find_none (pattern : Bytes) (buf : Bytes) (i : Nat) (missing : find pattern buf = none) :
    ¬ Occurs pattern buf i := by
  induction buf generalizing i with
  | nil =>
      intro again
      have bound := occurs_bound pattern [] i again
      by_cases empty : pattern = []
      · rw [find, if_pos empty] at missing
        cases missing
      · rw [List.length_nil] at bound
        exact empty (List.length_eq_zero_iff.mp (by omega))
  | cons b rest ih =>
      by_cases here : pattern.isPrefixOf (b :: rest) = true
      · rw [find, if_pos here] at missing
        cases missing
      · rw [find, if_neg here, Option.map_eq_none_iff] at missing
        intro again
        cases i with
        | zero => exact here (List.isPrefixOf_iff_prefix.mpr ((occurs_zero pattern (b :: rest)).mp again))
        | succ i => exact ih i missing ((occurs_succ pattern rest b i).mp again)

theorem find_first (pattern buf : Bytes) (i : Nat) : find pattern buf = some i ↔ First pattern buf i := by
  refine ⟨find_some pattern buf i, fun first => ?_⟩
  cases found : find pattern buf with
  | none => exact absurd first.1 (find_none pattern buf i found)
  | some j => rw [first_unique pattern buf i j first (find_some pattern buf j found)]

theorem find_missing (pattern buf : Bytes) : find pattern buf = none ↔ ∀ i, ¬ Occurs pattern buf i := by
  refine ⟨fun missing i => find_none pattern buf i missing, fun missing => ?_⟩
  cases found : find pattern buf with
  | none => rfl
  | some i => exact absurd (find_some pattern buf i found).1 (missing i)

-- What parse has read of a request when it comes to the length of the body.
structure Head where
  method : String
  path : String
  version : String
  headers : Headers
  bodyStart : Nat

def Head.total (head : Head) : Nat := head.bodyStart + contentLength head.headers

def headerFields (headersData : Bytes) (firstLineEnd : Nat) : Headers :=
  (lines (text (headersData.drop (firstLineEnd + 2)))).foldl insertLine ∅

-- The bytes in front of the empty line are cut at their first line break.
def readLines (headersData : Bytes) : Except ParseError Head :=
  match find crlf headersData with
  | none => .error .incomplete
  | some firstLineEnd =>
      match splitWhitespace (text (headersData.take firstLineEnd)) with
      | method :: path :: version :: _ =>
          .ok ⟨.ofList method, .ofList path, .ofList version, headerFields headersData firstLineEnd, headersData.length + 4⟩
      | _ => .error (.invalid "Invalid request line")

def readHead (buf : Bytes) : Except ParseError Head :=
  match fromUtf8 buf with
  | none => .error (.invalid "Invalid UTF-8")
  | some _ =>
      match find (crlf ++ crlf) buf with
      | none => .error .incomplete
      | some headerEnd => readLines (buf.take headerEnd)

def Head.finish (head : Head) (buf : Bytes) : Except Fault (Except ParseError (HttpRequest × Nat)) :=
  if buf.length < wrap head.total then .ok (.error .incomplete)
  else
    (if 0 < contentLength head.headers then slice buf head.bodyStart (wrap head.total) else .ok []).map fun body =>
      .ok (⟨head.method, head.path, head.version, head.headers, body⟩, wrap head.total)

theorem parse_head (buf : Bytes) :
    parse buf = match readHead buf with
      | .error e => .ok (.error e)
      | .ok head => head.finish buf := by
  unfold parse readHead
  cases fromUtf8 buf with
  | none => rfl
  | some s =>
      cases found : find (crlf ++ crlf) buf with
      | none => rfl
      | some headerEnd =>
          have bound := occurs_bound _ _ _ (find_some _ _ _ found).1
          have size : (buf.take headerEnd).length = headerEnd := by
            rw [List.length_take]
            omega
          simp only [readLines, size]
          cases find crlf (buf.take headerEnd) with
          | none => rfl
          | some firstLineEnd =>
              simp only
              rcases splitWhitespace (text ((buf.take headerEnd).take firstLineEnd)) with _ | ⟨method, _ | ⟨path, _ | ⟨version, rest⟩⟩⟩
              · rfl
              · rfl
              · rfl
              · generalize fields : headerFields (buf.take headerEnd) firstLineEnd = headers
                rw [headerFields] at fields
                simp only [Head.finish, Head.total, fields]
                generalize (if 0 < contentLength headers then
                  slice buf (headerEnd + 4) (wrap (headerEnd + 4 + contentLength headers)) else .ok []) = body
                cases body with
                | error fault => rfl
                | ok body => rfl

theorem read_head_found (buf : Bytes) (headerEnd : Nat) (whole : none ∉ scan buf) (ends : First (crlf ++ crlf) buf headerEnd) :
    readHead buf = readLines (buf.take headerEnd) := by
  unfold readHead fromUtf8
  rw [if_neg whole, (find_first _ _ _).mpr ends]

theorem read_head_open (buf : Bytes) (whole : none ∉ scan buf) (open' : ∀ i, ¬ Occurs (crlf ++ crlf) buf i) :
    readHead buf = .error .incomplete := by
  unfold readHead fromUtf8
  rw [if_neg whole, (find_missing _ _).mpr open']

theorem read_head_torn (buf : Bytes) (torn : none ∈ scan buf) : readHead buf = .error (.invalid "Invalid UTF-8") := by
  unfold readHead fromUtf8
  rw [if_pos torn]

theorem read_head_ok (buf : Bytes) (head : Head) (read : readHead buf = .ok head) :
    ∃ headerEnd, none ∉ scan buf ∧ First (crlf ++ crlf) buf headerEnd ∧ readLines (buf.take headerEnd) = .ok head := by
  by_cases torn : none ∈ scan buf
  · rw [read_head_torn buf torn] at read
    cases read
  · cases found : find (crlf ++ crlf) buf with
    | none =>
        rw [read_head_open buf torn ((find_missing _ _).mp found)] at read
        cases read
    | some headerEnd =>
        have ends := find_some _ _ _ found
        rw [read_head_found buf headerEnd torn ends] at read
        exact ⟨headerEnd, torn, ends, read⟩

theorem read_lines_cases (data : Bytes) :
    (find crlf data = none ∧ readLines data = .error .incomplete) ∨
    (∃ i, find crlf data = some i ∧ (splitWhitespace (text (data.take i))).length < 3 ∧
      readLines data = .error (.invalid "Invalid request line")) ∨
    ∃ i head, find crlf data = some i ∧ 3 ≤ (splitWhitespace (text (data.take i))).length ∧
      readLines data = .ok head ∧ head.headers = headerFields data i ∧ head.bodyStart = data.length + 4 := by
  unfold readLines
  cases find crlf data with
  | none => exact .inl ⟨rfl, rfl⟩
  | some firstLineEnd =>
      refine .inr ?_
      simp only [Option.some.injEq, exists_eq_left', exists_and_left]
      rcases splitWhitespace (text (data.take firstLineEnd)) with _ | ⟨method, _ | ⟨path, _ | ⟨version, rest⟩⟩⟩
      · exact .inl ⟨by simp, rfl⟩
      · exact .inl ⟨by simp, rfl⟩
      · exact .inl ⟨by simp, rfl⟩
      · refine .inr ⟨by simp, ?_⟩
        simp only [Except.ok.injEq, exists_eq_left', and_self]

theorem read_lines_incomplete (data : Bytes) : readLines data = .error .incomplete ↔ ∀ i, ¬ Occurs crlf data i := by
  rw [← find_missing]
  obtain ⟨missing, answer⟩ | ⟨i, found, _, answer⟩ | ⟨i, head, found, _, answer, _⟩ := read_lines_cases data
  · exact ⟨fun _ => missing, fun _ => answer⟩
  · simp [found, answer]
  · simp [found, answer]

theorem read_lines_ok (data : Bytes) (head : Head) (read : readLines data = .ok head) :
    ∃ i, First crlf data i ∧ 3 ≤ (splitWhitespace (text (data.take i))).length ∧ head.headers = headerFields data i ∧
      head.bodyStart = data.length + 4 := by
  obtain ⟨_, answer⟩ | ⟨i, _, _, answer⟩ | ⟨i, other, found, pieces, answer, fields, start⟩ := read_lines_cases data
  · cases answer.symm.trans read
  · cases answer.symm.trans read
  · obtain rfl := Except.ok.inj (answer.symm.trans read)
    exact ⟨i, find_some _ _ _ found, pieces, fields, start⟩

theorem read_head_start (buf : Bytes) (head : Head) (read : readHead buf = .ok head) : head.bodyStart ≤ buf.length := by
  obtain ⟨headerEnd, _, ends, answer⟩ := read_head_ok buf head read
  have bound : headerEnd + 4 ≤ buf.length := occurs_bound _ _ _ ends.1
  obtain ⟨_, _, _, _, start⟩ := read_lines_ok _ head answer
  rw [start, List.length_take]
  omega

theorem parse_usize_word (s : List Char) (n : Nat) (parsed : parseUsize s = some n) : n < 2 ^ 64 := by
  unfold parseUsize at parsed
  simp only [Option.ite_none_left_eq_some, Option.ite_none_right_eq_some] at parsed
  obtain ⟨_, small, same⟩ := parsed
  exact Option.some.inj same ▸ small

theorem content_length_word (headers : Headers) : contentLength headers < 2 ^ 64 := by
  unfold contentLength
  cases value : (headers.lookup "content-length").bind fun v => parseUsize v.toList with
  | none => exact Nat.two_pow_pos 64
  | some n =>
      obtain ⟨v, _, parsed⟩ := Option.bind_eq_some_iff.mp value
      exact parse_usize_word v.toList n parsed

theorem finish_short (head : Head) (buf : Bytes) (short : buf.length < wrap head.total) :
    head.finish buf = .ok (.error .incomplete) := if_pos short

theorem finish_bodiless (head : Head) (buf : Bytes) (enough : ¬ buf.length < wrap head.total)
    (empty : contentLength head.headers = 0) :
    head.finish buf = .ok (.ok (⟨head.method, head.path, head.version, head.headers, []⟩, wrap head.total)) := by
  rw [Head.finish, if_neg enough, if_neg (by omega)]
  rfl

theorem finish_body (head : Head) (buf : Bytes) (enough : head.total ≤ buf.length) (exact : head.total < 2 ^ 64) :
    head.finish buf = .ok (.ok (⟨head.method, head.path, head.version, head.headers,
      (buf.drop head.bodyStart).take (contentLength head.headers)⟩, head.total)) := by
  have whole := wrap_exact head.total exact
  by_cases empty : contentLength head.headers = 0
  · rw [finish_bodiless head buf (by omega) empty, whole, empty, List.take_zero]
  · have size : head.total - head.bodyStart = contentLength head.headers := Nat.add_sub_cancel_left _ _
    have ordered : head.bodyStart ≤ head.total := Nat.le_add_right _ _
    rw [Head.finish, whole, if_neg (by omega), if_pos (by omega), slice_ok _ _ _ ordered enough, size]
    rfl

theorem finish_panics (head : Head) (buf : Bytes) (start : head.bodyStart ≤ buf.length)
    (announced : contentLength head.headers ≠ 0) (carry : 2 ^ 64 ≤ head.total) : head.finish buf = .error .panic := by
  have below : wrap head.total < head.bodyStart := wrap_carry _ _ (content_length_word head.headers) carry
  rw [Head.finish, if_neg (by omega), if_pos (by omega), slice_panics _ _ _ below]
  rfl

end Ners.Http
