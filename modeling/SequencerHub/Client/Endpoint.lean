import SequencerHub.Http.Client
import SequencerHub.Text.Quoted

/-! Addresses and the links they stand for. -/
namespace SequencerHub

inductive Link
  /-- To the host of that number, without an address. -/
  | direct (host : Nat)
  /-- To whichever host is bound to the address when the request is sent. -/
  | named (address : String)
  | http (base : String)
  deriving DecidableEq

/-- A link with the address that it was made for. -/
structure Endpoint where
  address : String
  link : Link
  deriving DecidableEq

namespace Endpoint

def localScheme : String := "local://"
def httpSchemes : List String := ["http://", "https://"]

def startsWith (address scheme : String) : Bool := scheme.toList.isPrefixOf address.toList

/-- The endpoint of an address; a local one has to be bound at this time. -/
def lookup (isBound : String → Bool) (address : String) : Except TransportError Endpoint :=
  if startsWith address localScheme then
    if isBound address then .ok ⟨address, .named address⟩ else .error (.unknownAddress address)
  else if httpSchemes.any (startsWith address) then .ok ⟨address, .http (Http.baseOf address)⟩
  else .error (.unsupportedScheme address)

def describe (e : Endpoint) : String :=
  "Endpoint \x7b address: " ++ Quoted.quote e.address ++ ", .. \x7d"

end Endpoint

def Link.receive (link : Link) (providerId : UInt16) (reply : Option Json) :
    Except TransportError Json :=
  match link with
  | .http base => Http.replyOf base providerId (Http.respond providerId reply)
  | _ =>
    match reply with
    | some j => .ok j
    | none => .error (.noSuchProvider providerId)

end SequencerHub
