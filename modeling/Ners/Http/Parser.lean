import Ners.Base.Unicode
import Ners.Base.Utf8
import Mathlib.Data.List.AList

set_option autoImplicit false

namespace Ners.Http

open Unicode (isWhitespace toLowercase)
open Utf8 (asBytes fromUtf8 fromUtf8Lossy)

inductive ParseError where
  | incomplete
  | invalid (reason : String)
deriving DecidableEq

abbrev Headers := AList fun _ : String => String

structure HttpRequest where
  method : String
  path : String
  version : String
  headers : Headers
  body : Bytes

-- str::find: the byte position of the first occurrence.
def find (pattern : Bytes) : Bytes → Option Nat
  | [] => if pattern = [] then some 0 else none
  | b :: rest => if pattern.isPrefixOf (b :: rest) then some 0 else (find pattern rest).map (· + 1)

def crlf : Bytes := [0x0d, 0x0a]

-- The text of a piece of a well-formed buffer.
def text (bytes : Bytes) : List Char := (fromUtf8Lossy bytes).toList

theorem text_scan (bytes : Bytes) : text bytes = (Utf8.scan bytes).map (·.getD '\uFFFD') := by
  rw [text, fromUtf8Lossy, String.toList_ofList]

def splitWhitespace (s : List Char) : List (List Char) := (s.splitOnP isWhitespace).filter (· ≠ [])

def trim (s : List Char) : List Char := ((s.dropWhile isWhitespace).reverse.dropWhile isWhitespace).reverse

def stripCr (line : List Char) : List Char := if line.getLast? = some '\r' then line.dropLast else line

-- str::lines: every line ends with a line feed, in front of which one carriage
-- return is dropped, except a last line that is not empty.
def lines (s : List Char) : List (List Char) :=
  let pieces := s.splitOn '\n'
  pieces.dropLast.map stripCr ++ (pieces.getLast?.toList.filter (· ≠ []))

-- str::parse for usize: an optional plus sign, then decimal digits in range.
def parseUsize (s : List Char) : Option Nat :=
  let digits := match s with
    | '+' :: rest => rest
    | _ => s
  if digits = [] ∨ ¬ digits.all Char.isDigit then none
  else
    let value := digits.foldl (fun n c => n * 10 + (c.toNat - 48)) 0
    if value < 2 ^ 64 then some value else none

-- A header line is cut at its first colon; a line without one is skipped.
def insertLine (headers : Headers) (line : List Char) : Headers :=
  match line.span (· ≠ ':') with
  | (_, []) => headers
  | (key, _ :: value) => headers.insert (.ofList (toLowercase (trim key))) (.ofList (trim value))

def contentLength (headers : Headers) : Nat :=
  ((headers.lookup "content-length").bind fun v => parseUsize v.toList).getD 0

-- HttpParser::parse. The sum of body_start and content_length wraps; when it
-- does, the length check passes and the slice of the body can unwind.
def parse (buf : Bytes) : Except Fault (Except ParseError (HttpRequest × Nat)) :=
  match fromUtf8 buf with
  | none => .ok (.error (.invalid "Invalid UTF-8"))
  | some _ =>
      match find (crlf ++ crlf) buf with
      | none => .ok (.error .incomplete)
      | some headerEnd =>
          let headersData := buf.take headerEnd
          match find crlf headersData with
          | none => .ok (.error .incomplete)
          | some firstLineEnd =>
              match splitWhitespace (text (headersData.take firstLineEnd)) with
              | method :: path :: version :: _ =>
                  let headers := (lines (text (headersData.drop (firstLineEnd + 2)))).foldl insertLine ∅
                  let contentLength := contentLength headers
                  let bodyStart := headerEnd + 4
                  let totalLength := wrap (bodyStart + contentLength)
                  if buf.length < totalLength then .ok (.error .incomplete)
                  else
                    match (if 0 < contentLength then slice buf bodyStart totalLength else .ok []) with
                    | .error fault => .error fault
                    | .ok body => .ok (.ok (⟨.ofList method, .ofList path, .ofList version, headers, body⟩, totalLength))
              | _ => .ok (.error (.invalid "Invalid request line"))

end Ners.Http
