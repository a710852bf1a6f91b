import Ners.Http.Parser

set_option autoImplicit false

namespace Ners.Http

open Utf8 (asBytes)

structure HttpResponse where
  status : UInt16
  statusText : String
  headers : Headers
  body : Bytes

def HttpResponse.new (status : UInt16) (body : Bytes) : HttpResponse where
  status := status
  statusText :=
    if status = 200 then "OK"
    else if status = 201 then "Created"
    else if status = 204 then "No Content"
    else if status = 400 then "Bad Request"
    else if status = 404 then "Not Found"
    else if status = 500 then "Internal Server Error"
    else "Unknown"
  headers := ((∅ : Headers).insert "Content-Length" (toString body.length)).insert "Content-Type" "text/plain"
  body := body

def HttpResponse.ok (body : Bytes) : HttpResponse := .new 200 body

def HttpResponse.notFound : HttpResponse := .new 404 (asBytes "404 Not Found")

def HttpResponse.internalError : HttpResponse := .new 500 (asBytes "500 Internal Server Error")

def HttpResponse.withHeader (r : HttpResponse) (key value : String) : HttpResponse :=
  { r with headers := r.headers.insert key value }

def HttpResponse.json (r : HttpResponse) : HttpResponse :=
  { r with headers := r.headers.insert "Content-Type" "application/json" }

def HttpResponse.html (r : HttpResponse) : HttpResponse :=
  { r with headers := r.headers.insert "Content-Type" "text/html; charset=utf-8" }

-- The order in which a map of headers is iterated, which the standard library
-- leaves open.
structure HeaderOrder where
  list : Headers → List (String × String)
  entries : ∀ headers, (list headers).Perm (headers.entries.map fun entry => (entry.1, entry.2))

-- The order of insertion, latest first.
def HeaderOrder.stored : HeaderOrder := ⟨fun headers => headers.entries.map fun entry => (entry.1, entry.2), fun _ => .refl _⟩

def HttpResponse.toBytes (order : HeaderOrder) (r : HttpResponse) : Bytes :=
  asBytes ("HTTP/1.1 " ++ toString r.status ++ " " ++ r.statusText ++ "\r\n") ++
    ((order.list r.headers).flatMap fun (key, value) => asBytes (key ++ ": " ++ value ++ "\r\n")) ++
    asBytes "\r\n" ++ r.body

end Ners.Http
