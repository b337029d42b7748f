import SequencerHub.Json.Printer
import SequencerHub.Text.Octets

/-! Requests and responses of the wire protocol. -/
namespace SequencerHub

structure HttpRequest where
  method : String
  /-- The path, and behind a question mark the query. -/
  target : String
  headers : List (String × String)
  body : List UInt8

/-- The first value of a header, whose name may be in any letter case. -/
def HttpRequest.header? (r : HttpRequest) (name : String) : Option String :=
  (r.headers.find? fun x => x.1.map Char.toLower = name).map (·.2)

structure HttpResponse where
  status : Nat
  contentType : Option String := none
  allow : Option String := none
  body : List UInt8 := []

namespace HttpResponse

def jsonType : String := "application/json"
def textType : String := "text/plain; charset=utf-8"

def json (status : Nat) (j : Json) : HttpResponse :=
  { status, contentType := some jsonType, body := Octets.encode j.render.toList }

def text (status : Nat) (t : String) : HttpResponse :=
  { status, contentType := some textType, body := Octets.encode t.toList }

def isSuccess (r : HttpResponse) : Bool := 200 ≤ r.status && r.status < 300

end HttpResponse
end SequencerHub
