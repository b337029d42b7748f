import SequencerHub.Hub.Basic

/-! A server at work. Clients send requests and may hang up; a request that has been taken goes on without its client.
Once the server has been asked to stop it takes no further request, and it is done when no client waits any more. What
still runs then is cut off. -/
namespace SequencerHub.Server

structure Client where
  request : Nat
  task : Nat
  providerId : UInt16

structure Serving where
  hub : Hub
  host : Nat
  taken : Nat := 0
  clients : List Client := []
  responses : List (Nat × HttpResponse) := []

inductive Event
  | request (r : HttpRequest)
  | hangUp (request : Nat)
  | openGate (gate : String)
  /-- The operator asks the server to stop. -/
  | signal

namespace Serving

def isStopping (s : Serving) : Bool := (s.hub.hosts[s.host]?).any (·.stopping)

def isDone (s : Serving) : Bool := s.isStopping && s.clients.isEmpty

def respond (s : Serving) (request : Nat) (r : HttpResponse) : Serving :=
  { s with responses := s.responses ++ [(request, r)] }

def response? (s : Serving) (c : Client) : Option (Nat × HttpResponse) :=
  (s.hub.reply? c.task).map fun reply => (c.request, Http.respond c.providerId reply.toOption)

def respondAll (s : Serving) : Serving :=
  { s with
    clients := s.clients.filter fun c => (s.response? c).isNone
    responses := s.responses ++ s.clients.filterMap s.response? }

def take (s : Serving) (r : HttpRequest) : Serving :=
  let number := s.taken
  let s := { s with taken := number + 1 }
  match Http.routed r with
  | .respond response => s.respond number response
  | .shutdown => { s with hub := s.hub.stop s.host }.respond number Http.accepted
  | .rpc providerId request =>
    let (hub, task) := s.hub.start (.sending (.direct s.host) providerId request)
    respondAll { s with hub := hub.settle, clients := s.clients ++ [⟨number, task, providerId⟩] }

/-- What happens at an event. A request that comes too late changes nothing. -/
def step (s : Serving) : Event → Serving
  | .request r => if s.isStopping then s else s.take r
  | .hangUp request => { s with clients := s.clients.filter (·.request ≠ request) }
  | .openGate gate => respondAll { s with hub := s.hub.openGate gate }
  | .signal => { s with hub := s.hub.cancel s.host }

def run (s : Serving) (events : List Event) : Serving := events.foldl step s

/-- The end of a server that is done: its host is torn down, and nothing else goes on. -/
def finish (s : Serving) : Hub × Teardown :=
  let hub := s.hub.stopServing s.host
  match hub.hosts[s.host]? with
  | none => (hub, .finished)
  | some host =>
    let (host, t, l) := host.tearDown hub.opened hub.ledger
    ({ hub.setHost s.host host l with tasks := [] }, t)

end Serving
end SequencerHub.Server
