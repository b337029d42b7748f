import SequencerHub.Hub.Basic
import SequencerHub.Json.Document
import SequencerHub.Wire.Payload

/-! Calls of clients: a request is sent to an address, and the reply is read at the type that the caller expects. The
outcome is absent while the request waits. -/
namespace SequencerHub

/-- The outcome of a call: none while it waits. -/
abbrev Outgoing (α : Type) := Option (Except CallError α)

def unwrap {α : Type} (p : Payload α) (reply : Json) : Except CallError α :=
  match decodeJson (Envelope.read p) reply with
  | .error e => .error (.malformed e.message)
  | .ok envelope => envelope.toResult.mapError .remote

def settled {α : Type} (p : Payload α) (reply : Except TransportError Json) : Except CallError α :=
  match reply with
  | .ok j => unwrap p j
  | .error e => .error (.transport e)

namespace Hub

def callAt {α : Type} (h : Hub) (p : Payload α) (e : Endpoint) (providerId : UInt16) (r : Request) :
    Hub × Outgoing α :=
  let (h, reply) := h.forward e.link providerId r
  (h, reply.map (settled p))

def call {α : Type} (h : Hub) (p : Payload α) (address : String) (providerId : UInt16) (r : Request) :
    Hub × Outgoing α :=
  match h.lookup address with
  | .error e => (h, some (.error (.transport e)))
  | .ok e => h.callAt p e providerId r

def shutdownAt (h : Hub) (e : Endpoint) : Hub × Except CallError Unit :=
  match e.link with
  | .direct n => (h.stop n, .ok ())
  | .named address =>
    match h.hostAt? address with
    | some n => (h.stop n, .ok ())
    | none => (h, .error (.transport (.unknownAddress address)))
  | .http base =>
    match h.online, h.serverAt? base with
    | true, some (n, front) =>
      let message := Http.shutdownRequest
      match h.respond n { message with target := front ++ message.target } with
      | (h, some response) => (h, (Http.shutdownReply base response).mapError .transport)
      | (h, none) => (h, .error (.transport (.undecodable base)))
    | _, _ =>
      match h.fetch? (Http.shutdownUrl base) Http.shutdownRequest with
      | some response => (h, (Http.shutdownReply base response).mapError .transport)
      | none => (h, .error (.transport (.ofUrl base (Http.shutdownUrl base))))

end Hub
end SequencerHub
