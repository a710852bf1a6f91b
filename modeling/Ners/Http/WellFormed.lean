import Ners.Http.Body

set_option autoImplicit false

namespace Ners.Http

open Utf8 (Ascii append_whole ascii_append ascii_whole)

-- The last Content-Length line, if there is one, gives the size of the body;
-- without one the body is empty.
def RequestHead.Frames (head : RequestHead) (body : Bytes) : Prop :=
  (∃ before line after, head.fields = before ++ line :: after ∧ line.name = lengthName ∧
    Numeral (trim line.value) body.length ∧ ∀ other ∈ after, other.name ≠ lengthName) ∨
  ((∀ line ∈ head.fields, line.name ≠ lengthName) ∧ body = [])

structure Request where
  head : RequestHead
  body : Bytes
  ascii : Ascii body
  framed : head.Frames body

def Request.bytes (request : Request) : Bytes := request.head.bytes ++ request.body

def Request.parsed (request : Request) : HttpRequest :=
  ⟨.ofList request.head.method.chars, .ofList request.head.path.chars, .ofList request.head.version.chars,
    headerMap request.head.fields, request.body⟩

theorem frames_length (head : RequestHead) (body : Bytes) (framed : head.Frames body) (word : body.length < 2 ^ 64) :
    contentLength (headerMap head.fields) = body.length := by
  obtain ⟨before, line, after, fields, named, numeral, last⟩ | ⟨missing, rfl⟩ := framed
  · rw [fields]
    exact content_length_last before after line _ named numeral word last
  · exact content_length_missing head.fields missing

theorem written_parsed (head : RequestHead) (body rest : Bytes) (ascii : Ascii body) (also : Ascii rest)
    (length : contentLength (headerMap head.fields) = body.length) (small : head.bytes.length + body.length < 2 ^ 64) :
    parse (head.bytes ++ body ++ rest) = .ok (.ok (⟨.ofList head.method.chars, .ofList head.path.chars,
      .ofList head.version.chars, headerMap head.fields, body⟩, head.bytes.length + body.length)) := by
  have behind := ascii_whole _ (ascii_append body rest ascii also)
  have whole := append_whole _ _ (ascii_whole _ (head_ascii head)) behind
  have read := read_written head (body ++ rest) behind
  have complete := parse_complete _ _ _ read whole (by rw [Head.total, length]; exact small) (by
    rw [Head.total, length, ← List.append_assoc, List.length_append, List.length_append]
    exact Nat.le_add_right _ _) rfl
  rw [Head.request, Head.total, length, List.drop_left, List.take_left] at complete
  rw [List.append_assoc]
  exact complete

theorem well_formed_parsed (request : Request) (rest : Bytes) (ascii : Ascii rest)
    (addressable : (request.bytes ++ rest).length < 2 ^ 64) :
    parse (request.bytes ++ rest) = .ok (.ok (request.parsed, request.bytes.length)) := by
  rw [Request.bytes, List.length_append, List.length_append] at addressable
  have length := frames_length request.head request.body request.framed (by omega)
  rw [Request.bytes, List.length_append]
  exact written_parsed request.head request.body rest request.ascii ascii length (by omega)

-- The request of two bytes, with the first byte of another behind it.
def postRequest : Request where
  head := postHead
  body := [0x68, 0x69]
  ascii := by decide
  framed := .inl ⟨[], _, [], rfl, by decide, by unfold Numeral; decide, List.forall_mem_nil _⟩

theorem post_request_parsed : parse (postRequest.bytes ++ [0x47]) = .ok (.ok (postRequest.parsed, 40)) := by
  have size : postRequest.bytes.length = 40 := by
    rw [Request.bytes, List.length_append]
    exact congrArg (· + 2) post_head_size
  have parsed := well_formed_parsed postRequest [0x47] (by decide) (by rw [List.length_append, size]; decide)
  rwa [size] at parsed

end Ners.Http
