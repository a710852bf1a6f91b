import Ners.Base.Delimited
import Ners.Http.Body
import Ners.Http.Builder
import Mathlib.Data.List.TakeWhile

set_option autoImplicit false

namespace Ners.Http

open Delimited
open Search (First)
open Unicode (isWhitespace toLowercase)
open Utf8 (AsciiText as_bytes_append as_bytes_chars asBytes encode encode_member from_utf8_lossy_bytes)

def HttpResponse.statusLine (r : HttpResponse) : Bytes := asBytes ("HTTP/1.1 " ++ toString r.status ++ " " ++ r.statusText)

def headerLine (entry : String × String) : Bytes := asBytes (entry.1 ++ ": " ++ entry.2)

-- Cut at the first empty line, the bytes are a head of a line for each header
-- and the body, and one line alone is a Content-Length, which is the body's.
def HttpResponse.Legible (order : HeaderOrder) (r : HttpResponse) : Prop :=
  ∃ headerEnd, find (crlf ++ crlf) (r.toBytes order) = some headerEnd ∧
    pieces 0x0d 0x0a ((r.toBytes order).take headerEnd) = r.statusLine :: (order.list r.headers).map headerLine ∧
    (r.toBytes order).drop (headerEnd + 4) = r.body ∧
    ∃ digits, (pieces 0x0d 0x0a ((r.toBytes order).take headerEnd)).filterMap (fun line => lengthValue (text line)) = [digits] ∧
      Numeral digits r.body.length

-- What the parser makes of a header key: it cuts the line at the first colon,
-- trims the name and lowers its case.
def NamesLength (key : String) : Prop := toLowercase (trim (key.toList.takeWhile (· ≠ ':'))) = lengthName

structure Clean (calls : List BuilderCall) (body : Bytes) : Prop where
  unbroken : ∀ key value, Stays calls key value → find crlf (asBytes key) = none ∧ find crlf (asBytes value) = none
  length : ∀ key value, Stays calls key value → NamesLength key →
    key = "Content-Length" ∧ Numeral (trim value.toList) body.length

theorem clear_find (bytes : Bytes) : find crlf bytes = none ↔ Clear 0x0d 0x0a bytes := find_missing crlf bytes

theorem header_line_bytes (entry : String × String) :
    headerLine entry = asBytes entry.1 ++ 0x3a :: ([] ++ 0x20 :: asBytes entry.2) := by
  have colon : asBytes ": " = [0x3a, 0x20] := by decide
  rw [headerLine, as_bytes_append, as_bytes_append, colon, List.append_assoc]
  rfl

theorem header_line_clear (entry : String × String) :
    Clear 0x0d 0x0a (headerLine entry) ↔ Clear 0x0d 0x0a (asBytes entry.1) ∧ Clear 0x0d 0x0a (asBytes entry.2) := by
  rw [header_line_bytes, clear_append_iff _ _ _ (by decide) (by decide), clear_append_iff _ _ _ (by decide) (by decide)]
  exact and_congr_right fun _ => and_iff_right (clear_missing [] List.not_mem_nil)

theorem to_bytes_joined (order : HeaderOrder) (r : HttpResponse) :
    r.toBytes order =
      Delimited.joined 0x0d 0x0a (r.statusLine :: (order.list r.headers).map headerLine) ++ [0x0d, 0x0a, 0x0d, 0x0a] ++ r.body := by
  have eol : asBytes "\r\n" = [0x0d, 0x0a] := by decide
  have ended := joined_ended 0x0d 0x0a (r.statusLine :: (order.list r.headers).map headerLine) (List.cons_ne_nil _ _)
  have each : (order.list r.headers).flatMap (fun entry => asBytes (entry.1 ++ ": " ++ entry.2 ++ "\r\n")) =
      ((order.list r.headers).map headerLine).flatMap (· ++ [0x0d, 0x0a]) := by
    rw [List.flatMap_map]
    refine List.flatMap_congr fun entry _ => ?_
    rw [headerLine, ← eol, ← as_bytes_append]
  calc r.toBytes order
      = asBytes ("HTTP/1.1 " ++ toString r.status ++ " " ++ r.statusText ++ "\r\n") ++
          (order.list r.headers).flatMap (fun entry => asBytes (entry.1 ++ ": " ++ entry.2 ++ "\r\n")) ++ asBytes "\r\n" ++ r.body := rfl
    _ = (r.statusLine :: (order.list r.headers).map headerLine).flatMap (· ++ [0x0d, 0x0a]) ++ [0x0d, 0x0a] ++ r.body := by
      rw [each, as_bytes_append _ "\r\n", eol]
      rfl
    _ = _ := by
      rw [← ended, List.append_assoc _ [0x0d, 0x0a] [0x0d, 0x0a]]
      rfl

theorem digit_plain_ascii (c : Char) (digit : c.isDigit = true) :
    c.toNat < 0x80 ∧ c ≠ ':' ∧ c ≠ '\r' ∧ isWhitespace c = false := by
  have bounds : 48 ≤ c.toNat ∧ c.toNat ≤ 57 := by
    simpa [Char.isDigit, UInt32.le_iff_toNat_le] using digit
  refine ⟨by omega, ?_, ?_, ?_⟩
  · rintro rfl
    exact absurd bounds.2 (by decide)
  · rintro rfl
    exact absurd bounds.1 (by decide)
  · simp only [isWhitespace, decide_eq_false_iff_not]
    omega

theorem digits_plain (n : Nat) : ∀ c ∈ (toString n).toList, c.isDigit = true := by
  rw [Nat.toString_eq_ofList_toDigits, String.toList_ofList]
  exact fun c member => Nat.isDigit_of_mem_toDigits (by decide) (by decide) member

theorem numeral_to_string (n : Nat) : Numeral (toString n).toList n := by
  refine ⟨?_, List.all_eq_true.mpr (digits_plain n), ?_⟩
  · rw [Nat.toString_eq_ofList_toDigits, String.toList_ofList]
    exact Nat.toDigits_ne_nil
  · rw [Nat.toString_eq_ofList_toDigits, String.toList_ofList]
    refine Eq.trans ?_ (Nat.ofDigitChars_ten_toDigits)
    rw [Nat.ofDigitChars_eq_foldl]
    congr 1
    funext sum digit
    rw [Nat.mul_comm]
    rfl

theorem trim_solid (s : List Char) (solid : ∀ c ∈ s, isWhitespace c = false) : trim s = s := by
  have kept (t : List Char) (solid : ∀ c ∈ t, isWhitespace c = false) : t.dropWhile isWhitespace = t := by
    cases t with
    | nil => rfl
    | cons c t => exact List.dropWhile_cons_of_neg (by rw [solid c List.mem_cons_self]; decide)
  rw [trim, kept s solid, kept s.reverse fun c member => solid c (List.mem_reverse.mp member), List.reverse_reverse]

theorem trim_space (s : List Char) : trim (' ' :: s) = trim s := by
  rw [trim, List.dropWhile_cons_of_pos (by decide)]
  rfl

theorem clear_text (s : String) (ascii : AsciiText s.toList) (plain : '\r' ∉ s.toList) : Clear 0x0d 0x0a (asBytes s) := by
  refine clear_missing _ fun member => plain ?_
  rw [as_bytes_chars] at member
  exact encode_member s.toList '\r' ascii (by decide) member

theorem header_text (entry : String × String) :
    text (headerLine entry) = entry.1.toList ++ ':' :: ' ' :: entry.2.toList := by
  rw [text, headerLine, from_utf8_lossy_bytes, String.toList_append, String.toList_append, List.append_assoc]
  rfl

theorem cut_at_colon (key rest : List Char) :
    ∃ behind, (key ++ ':' :: rest).span (· ≠ ':') = (key.takeWhile (· ≠ ':'), ':' :: behind) ∧
      (':' ∉ key → behind = rest) := by
  induction key with
  | nil => exact ⟨rest, by simp [List.span_eq_takeWhile_dropWhile], fun _ => rfl⟩
  | cons c key ih =>
      obtain ⟨behind, cut, same⟩ := ih
      rw [List.span_eq_takeWhile_dropWhile] at cut
      by_cases colon : c = ':'
      · subst colon
        exact ⟨key ++ ':' :: rest, by simp [List.span_eq_takeWhile_dropWhile], fun missing => absurd List.mem_cons_self missing⟩
      · obtain ⟨taken, dropped⟩ := Prod.mk.inj cut
        refine ⟨behind, ?_, fun missing => same fun member => missing (List.mem_cons_of_mem c member)⟩
        have goes : decide (c ≠ ':') = true := decide_eq_true colon
        simp only [List.span_eq_takeWhile_dropWhile, List.cons_append, List.takeWhile_cons, List.dropWhile_cons, goes, if_true,
          taken, dropped]

theorem header_value_iff (entry : String × String) :
    (∃ value, lengthValue (text (headerLine entry)) = some value) ↔ NamesLength entry.1 := by
  obtain ⟨behind, cut, _⟩ := cut_at_colon entry.1.toList (' ' :: entry.2.toList)
  simp only [header_text, lengthValue, cut, NamesLength]
  by_cases named : toLowercase (trim (entry.1.toList.takeWhile (· ≠ ':'))) = lengthName
  · rw [if_pos named]
    exact iff_of_true ⟨_, rfl⟩ named
  · rw [if_neg named]
    refine iff_of_false ?_ named
    rintro ⟨value, missing⟩
    cases missing

theorem header_value_none (entry : String × String) (other : ¬ NamesLength entry.1) :
    lengthValue (text (headerLine entry)) = none :=
  Option.eq_none_iff_forall_ne_some.mpr fun value there => other ((header_value_iff entry).mp ⟨value, there⟩)

theorem content_length_value (value : String) :
    lengthValue (text (headerLine ("Content-Length", value))) = some (trim value.toList) := by
  obtain ⟨behind, cut, same⟩ := cut_at_colon "Content-Length".toList (' ' :: value.toList)
  have key : ':' ∉ "Content-Length".toList := by decide
  have named : toLowercase (trim ("Content-Length".toList.takeWhile (· ≠ ':'))) = lengthName := by decide
  obtain rfl := same key
  rw [header_text, lengthValue, cut]
  simp only [if_pos named, trim_space]

theorem start_status (start : Start) :
    AsciiText start.response.statusText.toList ∧ ':' ∉ start.response.statusText.toList ∧ '\r' ∉ start.response.statusText.toList := by
  obtain ⟨status, same⟩ := start_new start
  rw [same]
  simp only [HttpResponse.new]
  split_ifs <;> decide

theorem status_chars (r : HttpResponse) (plain : AsciiText r.statusText.toList ∧ ':' ∉ r.statusText.toList ∧ '\r' ∉ r.statusText.toList) :
    Clear 0x0d 0x0a r.statusLine ∧ r.statusLine ≠ [] ∧ lengthValue (text r.statusLine) = none := by
  obtain ⟨ascii, colon, line⟩ := plain
  have chars : ∀ c ∈ ("HTTP/1.1 " ++ toString r.status ++ " " ++ r.statusText).toList, c.toNat < 0x80 ∧ c ≠ ':' ∧ c ≠ '\r' := by
    have front : ∀ c ∈ "HTTP/1.1 ".toList ++ " ".toList, c.toNat < 0x80 ∧ c ≠ ':' ∧ c ≠ '\r' := by
      have all : ("HTTP/1.1 ".toList ++ " ".toList).all (fun c => c.toNat < 0x80 ∧ c ≠ ':' ∧ c ≠ '\r') = true := by decide
      exact fun c member => of_decide_eq_true (List.all_eq_true.mp all c member)
    simp only [String.toList_append, List.mem_append]
    rintro c (((start | digit) | space) | status)
    · exact front c (List.mem_append_left _ start)
    · obtain ⟨low, notColon, notLine, _⟩ := digit_plain_ascii c (digits_plain r.status.toNat c digit)
      exact ⟨low, notColon, notLine⟩
    · exact front c (List.mem_append_right _ space)
    · exact ⟨ascii c status, fun same => colon (same ▸ status), fun same => line (same ▸ status)⟩
  refine ⟨clear_text _ (fun c member => (chars c member).1) fun member => (chars _ member).2.2 rfl, ?_, ?_⟩
  · have front : asBytes "HTTP/1.1 " ≠ [] := by decide
    rw [HttpResponse.statusLine, as_bytes_append, as_bytes_append, as_bytes_append]
    simp [front]
  · have kept : ("HTTP/1.1 " ++ toString r.status ++ " " ++ r.statusText).toList.dropWhile (· ≠ ':') = [] :=
      List.dropWhile_eq_nil_iff.mpr fun c member => decide_eq_true (chars c member).2.1
    rw [text, HttpResponse.statusLine, from_utf8_lossy_bytes, lengthValue, List.span_eq_takeWhile_dropWhile, kept]

-- The bytes are cut back into the lines they are made of if and only if no
-- header breaks its own line.
theorem legible_iff (order : HeaderOrder) (r : HttpResponse) (plain : Clear 0x0d 0x0a r.statusLine) (nonempty : r.statusLine ≠ [])
    (unnamed : lengthValue (text r.statusLine) = none) :
    r.Legible order ↔ (∀ entry ∈ order.list r.headers, Clear 0x0d 0x0a (headerLine entry)) ∧
      ∃ digits, ((order.list r.headers).filterMap fun entry => lengthValue (text (headerLine entry))) = [digits] ∧
        Numeral digits r.body.length := by
  have values : ((r.statusLine :: (order.list r.headers).map headerLine).filterMap fun line => lengthValue (text line)) =
      (order.list r.headers).filterMap fun entry => lengthValue (text (headerLine entry)) := by
    simp only [List.filterMap_cons, unnamed, List.filterMap_map]
    rfl
  constructor
  · rintro ⟨headerEnd, _, cut, _, length⟩
    rw [cut, values] at length
    refine ⟨fun entry member => ?_, length⟩
    refine clear_pieces ((r.toBytes order).take headerEnd) _ ?_
    rw [cut]
    exact List.mem_cons_of_mem _ (List.mem_map_of_mem member)
  · rintro ⟨unbroken, length⟩
    have each : ∀ line ∈ r.statusLine :: (order.list r.headers).map headerLine, Clear 0x0d 0x0a line ∧ line ≠ [] := by
      intro line member
      rcases List.mem_cons.mp member with rfl | header
      · exact ⟨plain, nonempty⟩
      · obtain ⟨entry, there, rfl⟩ := List.mem_map.mp header
        refine ⟨unbroken entry there, ?_⟩
        rw [header_line_bytes]
        exact List.append_ne_nil_of_right_ne_nil _ (List.cons_ne_nil _ _)
    have blank := first_blank (by decide) _ r.body (List.cons_ne_nil _ _) each
    have whole := pieces_joined (by decide) _ (List.cons_ne_nil _ _) fun line member => (each line member).1
    rw [← to_bytes_joined] at blank
    refine ⟨_, (find_first _ _ _).mpr blank, ?_⟩
    rw [to_bytes_joined, List.append_assoc, List.take_left, whole, ← List.drop_drop, List.drop_left, values]
    exact ⟨rfl, rfl, length⟩

theorem one_survivor {α β : Type} (f : α → Option β) (items : List α) (x : α) (b : β) (distinct : items.Nodup) (member : x ∈ items)
    (kept : f x = some b) (others : ∀ y ∈ items, y ≠ x → f y = none) : items.filterMap f = [b] := by
  obtain ⟨front, back, rfl⟩ := List.append_of_mem member
  rw [List.nodup_middle, List.nodup_cons, List.mem_append] at distinct
  have dropped (part : List α) (inside : ∀ y ∈ part, y ∈ front ∨ y ∈ back) : part.filterMap f = [] := by
    refine List.filterMap_eq_nil_iff.mpr fun y there => others y ?_ ?_
    · simpa [or_comm, or_left_comm] using Or.inr (inside y there)
    · rintro rfl
      exact distinct.1 (inside y there)
  rw [List.filterMap_append, List.filterMap_cons_some kept, dropped front fun y there => .inl there,
    dropped back fun y there => .inr there, List.nil_append]

theorem same_survivor {α β : Type} (f : α → Option β) (items : List α) (x y : α) (b : β) (distinct : items.Nodup)
    (single : items.filterMap f = [b]) (one : x ∈ items) (other : y ∈ items) (kept : ∃ c, f x = some c) (also : ∃ c, f y = some c) :
    x = y ∧ f x = some b := by
  obtain ⟨c, kept⟩ := kept
  obtain ⟨d, also⟩ := also
  have value : c ∈ items.filterMap f := List.mem_filterMap.mpr ⟨x, one, kept⟩
  rw [single, List.mem_singleton] at value
  refine ⟨?_, value ▸ kept⟩
  by_contra differ
  obtain ⟨front, back, rfl⟩ := List.append_of_mem one
  have rest : y ∈ front ∨ y ∈ back := by
    rcases List.mem_append.mp other with before | behind
    · exact .inl before
    · exact .inr ((List.mem_cons.mp behind).resolve_left (Ne.symm differ))
  rw [List.filterMap_append, List.filterMap_cons_some kept] at single
  have size := congrArg List.length single
  simp only [List.length_append, List.length_cons, List.length_nil] at size
  rcases rest with before | behind
  · have some := List.length_pos_of_mem (List.mem_filterMap.mpr ⟨y, before, also⟩)
    omega
  · have some := List.length_pos_of_mem (List.mem_filterMap.mpr ⟨y, behind, also⟩)
    omega

theorem length_kept (start : Start) (calls : List BuilderCall) :
    ∃ value, (built start calls).headers.lookup "Content-Length" = some value := by
  induction calls using List.reverseRecOn with
  | nil => exact ⟨_, (start_header start "Content-Length" _).mpr (.inl ⟨rfl, rfl⟩)⟩
  | append_singleton before call ih =>
      obtain ⟨value, there⟩ := ih
      rw [built_snoc, apply_headers]
      by_cases same : "Content-Length" = call.header.1
      · rw [same, AList.lookup_insert]
        exact ⟨_, rfl⟩
      · rw [AList.lookup_insert_ne same]
        exact ⟨value, there⟩

theorem names_content_length : NamesLength "Content-Length" := by
  unfold NamesLength
  decide

theorem names_content_type : ¬ NamesLength "Content-Type" := by
  unfold NamesLength
  decide

theorem legible_clean (order : HeaderOrder) (start : Start) (calls : List BuilderCall)
    (unbroken : ∀ entry ∈ order.list (built start calls).headers, Clear 0x0d 0x0a (headerLine entry))
    (length : ∃ digits, ((order.list (built start calls).headers).filterMap fun entry => lengthValue (text (headerLine entry))) =
      [digits] ∧ Numeral digits start.response.body.length) : Clean calls start.response.body := by
  obtain ⟨digits, single, numeral⟩ := length
  have entry (key value : String) (stays : Stays calls key value) : (key, value) ∈ order.list (built start calls).headers :=
    (order_entry order _ key value).mpr ((header_built start calls key value).mpr (.inl stays))
  refine ⟨fun key value stays => ?_, fun key value stays named => ?_⟩
  · have clear := (header_line_clear _).mp (unbroken _ (entry key value stays))
    exact ⟨(clear_find _).mpr clear.1, (clear_find _).mpr clear.2⟩
  · obtain ⟨held, there⟩ := length_kept start calls
    have kept := (header_value_iff (key, value)).mpr named
    have also := (header_value_iff ("Content-Length", held)).mpr names_content_length
    obtain ⟨same, first⟩ := same_survivor _ _ (key, value) ("Content-Length", held) digits (order_nodup order _) single
      (entry key value stays) ((order_entry order _ _ held).mpr there) kept also
    obtain ⟨rfl, rfl⟩ := Prod.mk.inj same
    rw [content_length_value] at first
    exact ⟨rfl, Option.some.inj first ▸ numeral⟩

theorem start_plain (start : Start) (key value : String) (there : start.response.headers.lookup key = some value) :
    Clear 0x0d 0x0a (headerLine (key, value)) := by
  rw [header_line_clear]
  rcases (start_header start key value).mp there with ⟨rfl, rfl⟩ | ⟨rfl, rfl⟩
  · have digits := digits_plain start.response.body.length
    refine ⟨clear_text "Content-Length" (by decide) (by decide),
      clear_text _ (fun c member => (digit_plain_ascii c (digits c member)).1) ?_⟩
    exact fun member => (digit_plain_ascii _ (digits _ member)).2.2.1 rfl
  · exact ⟨clear_text _ (by decide) (by decide), clear_text _ (by decide) (by decide)⟩

theorem clean_length (start : Start) (calls : List BuilderCall) (clean : Clean calls start.response.body) (key value : String)
    (there : (built start calls).headers.lookup key = some value) (named : NamesLength key) :
    key = "Content-Length" ∧ Numeral (trim value.toList) start.response.body.length := by
  rcases (header_built start calls key value).mp there with stays | ⟨_, first⟩
  · exact clean.length key value stays named
  · rcases (start_header start key value).mp first with ⟨rfl, rfl⟩ | ⟨rfl, _⟩
    · rw [trim_solid _ fun c member => (digit_plain_ascii c (digits_plain _ c member)).2.2.2]
      exact ⟨rfl, numeral_to_string _⟩
    · exact absurd named names_content_type

theorem clean_legible (order : HeaderOrder) (start : Start) (calls : List BuilderCall) (clean : Clean calls start.response.body) :
    (∀ entry ∈ order.list (built start calls).headers, Clear 0x0d 0x0a (headerLine entry)) ∧
      ∃ digits, ((order.list (built start calls).headers).filterMap fun entry => lengthValue (text (headerLine entry))) = [digits] ∧
        Numeral digits start.response.body.length := by
  constructor
  · rintro ⟨key, value⟩ member
    rcases (header_built start calls key value).mp ((order_entry order _ key value).mp member) with stays | ⟨_, first⟩
    · obtain ⟨one, other⟩ := clean.unbroken key value stays
      exact (header_line_clear _).mpr ⟨(clear_find _).mp one, (clear_find _).mp other⟩
    · exact start_plain start key value first
  · obtain ⟨value, there⟩ := length_kept start calls
    obtain ⟨_, numeral⟩ := clean_length start calls clean _ value there names_content_length
    refine ⟨_, one_survivor _ _ ("Content-Length", value) _ (order_nodup order _) ((order_entry order _ _ value).mpr there)
      (content_length_value value) ?_, numeral⟩
    rintro ⟨key, other⟩ member differ
    refine header_value_none _ fun named => differ ?_
    have lookup := (order_entry order _ key other).mp member
    obtain ⟨rfl, _⟩ := clean_length start calls clean key other lookup named
    exact congrArg _ (Option.some.inj (lookup.symm.trans there))

theorem built_legible_iff (order : HeaderOrder) (start : Start) (calls : List BuilderCall) :
    (built start calls).Legible order ↔ Clean calls start.response.body := by
  obtain ⟨status, statusText, body⟩ := built_rest start calls
  have chars := start_status start
  rw [← statusText] at chars
  obtain ⟨plain, nonempty, unnamed⟩ := status_chars (built start calls) chars
  rw [legible_iff order _ plain nonempty unnamed, body]
  exact ⟨fun both => legible_clean order start calls both.1 both.2, clean_legible order start calls⟩

-- Another spelling of the name makes a second Content-Length line.
theorem lower_case_length : ¬ (built (.ok (asBytes "hello")) [.withHeader "content-length" "7"]).Legible .stored := by
  have chars := status_chars (built (.ok (asBytes "hello")) [.withHeader "content-length" "7"]) (by decide)
  rw [legible_iff _ _ chars.1 chars.2.1 chars.2.2]
  rintro ⟨unbroken, length⟩
  have clean := legible_clean .stored (.ok (asBytes "hello")) [.withHeader "content-length" "7"] unbroken length
  have named : NamesLength "content-length" := by
    unfold NamesLength
    decide
  have spelled := (clean.length "content-length" "7" ⟨[], _, [], rfl, rfl, List.forall_mem_nil _⟩ named).1
  exact absurd spelled (by decide)

end Ners.Http
