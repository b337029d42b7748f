import SequencerHub.Client.Error
import SequencerHub.Http.Router

/-! The client's end of the wire protocol: the requests it sends and what it makes of responses. -/
namespace SequencerHub.Http

def baseOf (address : String) : String :=
  String.ofList (address.toList.reverse.dropWhile (· == '/')).reverse

def rpcUrl (base : String) (providerId : UInt16) : String := base ++ rpcPath providerId

def shutdownUrl (base : String) : String := base ++ shutdownPath

def rpcRequest (providerId : UInt16) (r : Request) : HttpRequest where
  method := "POST"
  target := rpcPath providerId
  headers := [("content-type", HttpResponse.jsonType)]
  body := Octets.encode r.toJson.render.toList

def shutdownRequest : HttpRequest where
  method := "POST"
  target := shutdownPath
  headers := []
  body := []

def bodyJson? (body : List UInt8) : Option Json := (Octets.decode? body).bind fun cs => (Json.parse cs).toOption

/-- The reply that a response carries. A missing page counts as a missing provider only if it says so
itself. -/
def replyOf (base : String) (providerId : UInt16) (r : HttpResponse) : Except TransportError Json :=
  if r.isSuccess then
    match bodyJson? r.body with
    | some j => .ok j
    | none => .error (.undecodable base)
  else if r.status = notFound ∧
      (((bodyJson? r.body).bind (Json.get? "error")).bind Json.string?) = some noSuchProvider then
    .error (.noSuchProvider providerId)
  else .error (.status base r.status)

def shutdownReply (base : String) (r : HttpResponse) : Except TransportError Unit :=
  if r.isSuccess then .ok () else .error (.status base r.status)

end SequencerHub.Http
