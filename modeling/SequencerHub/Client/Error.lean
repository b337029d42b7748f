import SequencerHub.Http.Url
import SequencerHub.Wire.ErrorKind

/-! What can go wrong with a request on its way, and what its caller is told. -/
namespace SequencerHub

/-- A request that did not reach a provider, or whose reply did not come back. -/
inductive TransportError
  | unknownAddress (address : String)
  | unsupportedScheme (address : String)
  | noSuchProvider (id : UInt16)
  | unreachable (base url : String)
  | invalidUrl (base : String) (fault : Url.Fault)
  | undecodable (base : String)
  | status (base : String) (status : Nat)
  | aborted (reason : String)
  deriving DecidableEq

namespace TransportError

def reason? : TransportError → Option String
  | unreachable _ url => some s!"error sending request for url ({url})"
  | invalidUrl _ _ => some "builder error"
  | undecodable _ => some "error decoding response body"
  | _ => none

def message : TransportError → String
  | unknownAddress a => s!"cannot resolve address {a}"
  | unsupportedScheme a => s!"unsupported address {a}"
  | noSuchProvider id => s!"no provider with id {id.toNat}"
  | unreachable base url => s!"request to {base} failed: error sending request for url ({url})"
  | invalidUrl base _ => s!"request to {base} failed: builder error"
  | undecodable base => s!"request to {base} failed: error decoding response body"
  | status base n => s!"{base} answered with HTTP {n}"
  | aborted reason => s!"request handler aborted: {reason}"

def ofUrl (base url : String) : TransportError :=
  match Url.canonical url with
  | .ok url => .unreachable base url
  | .error f => .invalidUrl base f

end TransportError

inductive CallError
  | remote (e : RemoteError)
  | transport (e : TransportError)
  | malformed (reason : String)
  deriving DecidableEq

namespace CallError

def message : CallError → String
  | remote e => e.message
  | transport e => e.message
  | malformed reason => s!"malformed reply: {reason}"

def kind? : CallError → Option ErrorKind
  | remote e => some e.kind
  | _ => none

def isNotFound (e : CallError) : Bool := e.kind? = some .notFound

end CallError
end SequencerHub
