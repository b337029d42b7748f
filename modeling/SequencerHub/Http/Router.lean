import SequencerHub.Files.Path
import SequencerHub.Http.Body
import SequencerHub.Http.MediaType
import SequencerHub.Http.Message
import SequencerHub.Wire.Request

/-! The two routes of the wire protocol: one for requests to a provider, one that asks the server to stop. A request is
checked in a fixed order: its path, its method, the provider id, the kind of the body, the body. -/
namespace SequencerHub.Http

def rpcPath (providerId : UInt16) : String := s!"/mobject/v1/providers/{providerId.toNat}/rpc"

def shutdownPath : String := "/mobject/v1/shutdown"

inductive Route
  | rpc (segment : List Char)
  | shutdown

def route? (path : List Char) : Option Route :=
  match (Path.splitSlashes path).map String.ofList with
  | ["", "mobject", "v1", "shutdown"] => some .shutdown
  | ["", "mobject", "v1", "providers", segment, "rpc"] =>
    if segment = "" then none else some (.rpc segment.toList)
  | _ => none

def pathOf (target : String) : List Char := target.toList.takeWhile fun c => c != '?' && c != '#'

def hexValue? (c : Char) : Option Nat :=
  if c.isDigit then some (c.toNat - '0'.toNat)
  else if 'a' ≤ c && c ≤ 'f' then some (c.toNat - 'a'.toNat + 10)
  else if 'A' ≤ c && c ≤ 'F' then some (c.toNat - 'A'.toNat + 10)
  else none

/-- The octets of a segment; a percent sign and two digits stand for the octet of that number. -/
def unescape : List Char → List UInt8
  | [] => []
  | [a] => Octets.encode [a]
  | [a, b] => Octets.encode [a, b]
  | a :: b :: c :: r =>
    match a == '%', hexValue? b, hexValue? c with
    | true, some x, some y => UInt8.ofNat (16 * x + y) :: unescape r
    | _, _, _ => Octets.encode [a] ++ unescape (b :: c :: r)

/-- A number of a provider: decimal digits, behind a plus sign or none. -/
def providerId? (cs : List Char) : Option UInt16 :=
  let digits := match cs with
    | '+' :: r => r
    | r => r
  if digits.isEmpty || !digits.all Char.isDigit then none
  else
    let n := digits.foldl (fun n c => 10 * n + (c.toNat - '0'.toNat)) 0
    if n < 0x10000 then some (UInt16.ofNat n) else none

inductive Routed
  | respond (r : HttpResponse)
  | rpc (providerId : UInt16) (r : Request)
  | shutdown

def badRequest : Nat := 400
def notFound : Nat := 404
def methodNotAllowed : Nat := 405
def unsupportedMediaType : Nat := 415
def unprocessable : Nat := 422

/-- The way to the refused part of a body, in words. -/
def pathText : Bool → List Segment → String
  | _, [] => ""
  | _, .item i :: more => s!"[{i}]" ++ pathText false more
  | first, .key k :: more => (if first then "" else ".") ++ k ++ pathText false more
  | first, .unknown :: more => (if first then "" else ".") ++ "?" ++ pathText false more

/-- The error with the way to it, unless the way is not known at all. -/
def errorText (e : JsonError) : String :=
  if e.path.all (· = .unknown) then e.message else s!"{pathText true e.path}: {e.message}"

def refusal (e : JsonError) : HttpResponse :=
  if e.isSyntax then
    .text badRequest s!"Failed to parse the request body as JSON: {errorText e}"
  else
    .text unprocessable s!"Failed to deserialize the JSON body into the target type: {errorText e}"

def readRpc (segment : List Char) (r : HttpRequest) : Routed :=
  match Octets.decode? (unescape segment) with
  | none => .respond (.text badRequest "Invalid URL: Invalid UTF-8 in `provider_id`")
  | some cs =>
    match providerId? cs with
    | none =>
      .respond (.text badRequest s!"Invalid URL: Cannot parse `{String.ofList cs}` to a `u16`")
    | some id =>
      if ((r.header? "content-type").map MediaType.isJson).getD false then
        match Body.read Request.read r.body with
        | .ok request => .rpc id request
        | .error e => .respond (refusal e)
      else
        .respond (.text unsupportedMediaType "Expected request with `Content-Type: application/json`")

def routed (r : HttpRequest) : Routed :=
  match route? (pathOf r.target) with
  | none => .respond { status := notFound }
  | some route =>
    if r.method = "POST" then
      match route with
      | .shutdown => .shutdown
      | .rpc segment => readRpc segment r
    else .respond { status := methodNotAllowed, allow := some "POST" }

def accepted : HttpResponse := { status := 202 }

/-- The mark of a response that says that there is no such provider. -/
def noSuchProvider : String := "no_such_provider"

/-- The response to a request: the provider's reply, or that there is no such provider. -/
def respond (providerId : UInt16) : Option Json → HttpResponse
  | some reply => .json 200 reply
  | none =>
    .json notFound (.object [("error", .string noSuchProvider), ("provider_id", .ofUInt16 providerId)])

end SequencerHub.Http
