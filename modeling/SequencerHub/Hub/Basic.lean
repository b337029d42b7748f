import SequencerHub.Client.Endpoint
import SequencerHub.Host.Basic

/-! Hosts, the addresses they are bound to, and the requests that are under way between clients and hosts. A request is
a task of its own: once it is sent it goes on whether or not anybody waits for its reply. A task runs until it ends or
waits at a closed gate; other tasks run meanwhile. -/
namespace SequencerHub

inductive Task
  /-- A request that has not left its client. -/
  | sending (link : Link) (providerId : UInt16) (r : Request)
  | serving (link : Link) (providerId : UInt16) (d : Dispatch)
  | replied (reply : Except TransportError Json)
  | tearing (t : Teardown)

structure Hub where
  hosts : List Host := []
  /-- Numbers of hosts by local address. -/
  bound : List (String × Nat) := []
  /-- Numbers of hosts by the address where they are served. -/
  served : List (String × Nat) := []
  /-- Whether there is a network between clients and served hosts. -/
  online : Bool := false
  /-- What comes back from other servers, by the address in its canonical form and the message sent there. -/
  elsewhere : String → HttpRequest → Option HttpResponse := fun _ _ => none
  opened : Gates := []
  tasks : List Task := []
  ledger : Ledger

namespace Task

def ofDispatch (link : Link) (providerId : UInt16) : Dispatch → Task
  | .replied reply => .replied (link.receive providerId (some reply))
  | d => .serving link providerId d

def reply? : Task → Option (Except TransportError Json)
  | replied r => some r
  | _ => none

end Task

namespace Hub

def addHost (h : Hub) (address : String) : Hub × Nat :=
  ({ h with hosts := h.hosts ++ [{ address }] }, h.hosts.length)

def setHost (h : Hub) (n : Nat) (host : Host) (l : Ledger) : Hub :=
  { h with hosts := h.hosts.set n host, ledger := l }

/-- Makes a host reachable under its own address, in place of one that was. -/
def bind (h : Hub) (n : Nat) : Hub :=
  match h.hosts[n]? with
  | none => h
  | some host =>
    { h with
      bound := (h.bound.filter (·.1 ≠ host.address)) ++ [(host.address, n)]
      ledger := h.ledger.logged (.hostBound host.address) }

def hostAt? (h : Hub) (address : String) : Option Nat :=
  (h.bound.find? (·.1 = address)).map (·.2)

def isBound (h : Hub) (address : String) : Bool := (h.hostAt? address).isSome

def unbind (h : Hub) (address : String) : Hub × Option Nat :=
  ({ h with bound := h.bound.filter (·.1 ≠ address) }, h.hostAt? address)

/-- Serves a host where a listener waits for connections, given as host and port. -/
def listen (h : Hub) (n : Nat) (listener : String) : Hub :=
  match h.hosts[n]? with
  | none => h
  | some host =>
    { h with
      served := h.served ++ [("http://" ++ listener, n)]
      ledger := h.ledger.logged (.listening listener host.address) }

def stopServing (h : Hub) (n : Nat) : Hub :=
  { h with
    served := h.served.filter (·.2 ≠ n)
    ledger := h.ledger.logged .serverStopping }

def lookup (h : Hub) (address : String) : Except TransportError Endpoint :=
  Endpoint.lookup h.isBound address

/-- Stops a host without a word. -/
def cancel (h : Hub) (n : Nat) : Hub :=
  match h.hosts[n]? with
  | none => h
  | some host => h.setHost n { host with stopping := true } h.ledger

/-- Asks a host to stop serving. -/
def stop (h : Hub) (n : Nat) : Hub :=
  match h.hosts[n]? with
  | none => h
  | some host =>
    let (host, l) := host.requestShutdown h.ledger
    h.setHost n host l

def deliver (h : Hub) (n : Nat) (link : Link) (providerId : UInt16) (r : Request) : Hub × Task :=
  match h.hosts[n]? with
  | none => (h, .replied (link.receive providerId none))
  | some host =>
    match host.dispatch h.opened providerId r h.ledger with
    | none => (h, .replied (link.receive providerId none))
    | some (host, d, l) => (h.setHost n host l, .ofDispatch link providerId d)

def serverAt? (h : Hub) (base : String) : Option (Nat × String) :=
  (h.served.find? fun x => Endpoint.startsWith base x.1).map fun x =>
    (x.2, String.ofList (base.toList.drop x.1.length))

/-- What comes back from a server that serves none of the hosts. -/
def fetch? (h : Hub) (url : String) (message : HttpRequest) : Option HttpResponse :=
  match h.online, Url.canonical url with
  | true, .ok url => h.elsewhere url message
  | _, _ => none

def fetchReply (h : Hub) (base : String) (providerId : UInt16) (r : Request) : Except TransportError Json :=
  match h.fetch? (Http.rpcUrl base providerId) (Http.rpcRequest providerId r) with
  | some response => Http.replyOf base providerId response
  | none => .error (.ofUrl base (Http.rpcUrl base providerId))

/-- Sends a request over the wire: what the server reads is what the client wrote. -/
def sendHttp (h : Hub) (base : String) (providerId : UInt16) (r : Request) : Hub × Task :=
  match h.online, h.serverAt? base with
  | true, some (n, front) =>
    let message := Http.rpcRequest providerId r
    match Http.routed { message with target := front ++ message.target } with
    | .respond response => (h, .replied (Http.replyOf base providerId response))
    | .rpc id r => h.deliver n (.http base) id r
    | .shutdown => (h, .replied (Http.replyOf base providerId Http.accepted))
  | _, _ => (h, .replied (h.fetchReply base providerId r))

/-- Sends a request over a link. A local address is looked up only now. -/
def send (h : Hub) (link : Link) (providerId : UInt16) (r : Request) : Hub × Task :=
  match link with
  | .direct n => h.deliver n link providerId r
  | .named address =>
    match h.hostAt? address with
    | some n => h.deliver n link providerId r
    | none => (h, .replied (.error (.unknownAddress address)))
  | .http base => h.sendHttp base providerId r

def run (h : Hub) : Task → Hub × Task
  | .sending link providerId r => h.send link providerId r
  | .serving link providerId d =>
    let (d, l) := d.resume h.opened h.ledger
    ({ h with ledger := l }, .ofDispatch link providerId d)
  | .tearing t =>
    let (t, l) := t.resume h.opened h.ledger
    ({ h with ledger := l }, .tearing t)
  | .replied r => (h, .replied r)

def start (h : Hub) (t : Task) : Hub × Nat := ({ h with tasks := h.tasks ++ [t] }, h.tasks.length)

def advance (h : Hub) (n : Nat) : Hub :=
  match h.tasks[n]? with
  | none => h
  | some t =>
    let (h, t) := h.run t
    { h with tasks := h.tasks.set n t }

/-- Lets all tasks go on, in the order in which they were started. -/
def settle (h : Hub) : Hub := (List.range h.tasks.length).foldl advance h

def reply? (h : Hub) (n : Nat) : Option (Except TransportError Json) :=
  (h.tasks[n]?).bind Task.reply?

/-- Opens a gate, and lets everything run that waited for it. -/
def openGate (h : Hub) (gate : String) : Hub :=
  settle { h with opened := gate :: h.opened.filter (· ≠ gate) }

def closeGate (h : Hub) (gate : String) : Hub :=
  { h with opened := h.opened.filter (· ≠ gate) }

/-- Sends a request and waits for its reply; there is none while the request waits at a gate. -/
def forward (h : Hub) (link : Link) (providerId : UInt16) (r : Request) :
    Hub × Option (Except TransportError Json) :=
  let (h, n) := h.start (.sending link providerId r)
  let h := h.settle
  (h, h.reply? n)

/-- What a host responds to a request of the wire protocol; nothing while the request waits. -/
def respond (h : Hub) (n : Nat) (r : HttpRequest) : Hub × Option HttpResponse :=
  match Http.routed r with
  | .respond response => (h, some response)
  | .shutdown => (h.stop n, some Http.accepted)
  | .rpc providerId request =>
    let (h, reply) := h.forward (.direct n) providerId request
    (h, reply.map fun reply => Http.respond providerId reply.toOption)

end Hub
end SequencerHub
