import SequencerHub.Http.Message

/-! The heads of messages as text: a first line, and a line for each header. -/
namespace SequencerHub.Http

def trimBlanks (cs : List Char) : List Char :=
  ((cs.dropWhile Char.isWhitespace).reverse.dropWhile Char.isWhitespace).reverse

def header? (line : String) : Option (String × String) :=
  match line.toList.span (· != ':') with
  | (_, []) => none
  | (name, _ :: value) => some (String.ofList (trimBlanks name), String.ofList (trimBlanks value))

def requestOfHead? (lines : List String) : Option HttpRequest :=
  match lines with
  | [] => none
  | first :: headers =>
    match first.splitOn " " with
    | [method, target, _] => some ⟨method, target, headers.filterMap header?, []⟩
    | _ => none

def bodySize (r : HttpRequest) : Nat :=
  ((r.header? "content-length").bind String.toNat?).getD 0

def reason : Nat → String
  | 200 => "OK"
  | 202 => "Accepted"
  | 400 => "Bad Request"
  | 404 => "Not Found"
  | 405 => "Method Not Allowed"
  | 415 => "Unsupported Media Type"
  | 422 => "Unprocessable Entity"
  | _ => "Internal Server Error"

def headOf (r : HttpResponse) : String :=
  let headers := r.contentType.toList.map ("content-type: " ++ ·) ++ r.allow.toList.map ("allow: " ++ ·) ++
    [s!"content-length: {r.body.length}"]
  s!"HTTP/1.1 {r.status} {reason r.status}\r\n" ++ String.join (headers.map (· ++ "\r\n")) ++ "\r\n"

end SequencerHub.Http
