import SequencerHub.Json.Document
import SequencerHub.Provider.Options
import SequencerHub.Provider.Work

/-! A provider: the live sequencers of one provider id, and the requests it serves. A request consults the registry
exactly once: it inserts, looks up or removes. What the backend does afterwards no longer depends on the registry, so a
slow backend keeps no other request waiting. -/
namespace SequencerHub

/-- Live instances by identifier, in the order in which they were registered. -/
abbrev Registry := List (SequencerId × Instance)

namespace Registry

def find? (r : Registry) (id : SequencerId) : Option Instance :=
  (List.find? (·.1 = id) r).map (·.2)

def erase (r : Registry) (id : SequencerId) : Registry := List.filter (·.1 ≠ id) r

def insert (r : Registry) (id : SequencerId) (i : Instance) : Registry := r.erase id ++ [(id, i)]

def ids (r : Registry) : List SequencerId := r.map (·.1)

end Registry

structure Provider where
  options : ProviderOptions
  factory : Factory
  live : Registry := []

namespace Provider

def id (p : Provider) : UInt16 := p.options.providerId

/-- An empty token protects nothing. -/
def isProtected (p : Provider) : Bool := p.options.token ≠ ""

/-- The description of the provider. It tells whether there is a token, never which. -/
def describe (p : Provider) : Json :=
  .object [("provider_id", .ofUInt16 p.id),
    ("sequencers", .ofStrings ((p.live.ids.map SequencerId.toText).mergeSort (· ≤ ·))),
    ("teardown", .string p.options.teardown.name),
    ("token_protected", .bool p.isProtected)]

def admits (p : Provider) (token : String) : Bool := !p.isProtected || p.options.token = token

def invalidToken : RemoteError := ⟨.auth, "Invalid security token"⟩

def unknownType (name : String) : RemoteError :=
  ⟨.unknownBackendType, (FactoryError.unknownType name).message⟩

def notConstructed (name : String) (e : ErrorChain) : RemoteError :=
  ⟨.backendConstruction, (FactoryError.construction name e).message⟩

def notFound (id : SequencerId) : RemoteError := ⟨.notFound, s!"Sequencer {id} not found"⟩

def parseConfig (text : String) : Except RemoteError Json :=
  match Json.ofText text with
  | .error e => .error ⟨.configParse, s!"Could not parse sequencer configuration: {e.message}"⟩
  | .ok j =>
    if j.isObject then .ok j
    else .error ⟨.configParse, "Sequencer configuration must be a JSON object"⟩

def enlist (p : Provider) (how : Construction) (sequencerType : String) (i : Instance) (l : Ledger) :
    Provider × Work × Ledger :=
  let id := l.nextId
  ({ p with live := p.live.insert id i }, .answered (.id id),
    l.mint.logged (.constructed how p.id id sequencerType))

def build (p : Provider) (how : Construction) (sequencerType : String) (c : Constructors)
    (config : Json) (l : Ledger) : Provider × Work × Ledger :=
  let args : BackendArgs := ⟨p.id, config⟩
  let serial := l.built.length
  let made := c.pick how serial args
  let l := (l.constructed ⟨how, sequencerType, args⟩).recordedAll made.effects
  match made.outcome with
  | .ok backend => p.enlist how sequencerType ⟨serial, backend⟩ l
  | .failed e => (p, .refused (notConstructed sequencerType e), l)
  | .panicked q => (p, .ended (.panicked q), l)

/-- Creates or opens a sequencer: the token is checked first, then the type, then the configuration, and
only then the constructor is called. -/
def construct (p : Provider) (how : Construction) (token sequencerType config : String) (l : Ledger) :
    Provider × Work × Ledger :=
  if p.admits token then
    match p.factory.find? sequencerType with
    | none => (p, .refused (unknownType sequencerType), l)
    | some c =>
      match parseConfig config with
      | .error e => (p, .refused e, l)
      | .ok config => p.build how sequencerType c config l
  else (p, .refused invalidToken, l.logged (.tokenRejected p.id))

def close (p : Provider) (token : String) (id : SequencerId) (l : Ledger) : Provider × Work × Ledger :=
  if p.admits token then
    match p.live.find? id with
    | none => (p, .refused (notFound id), l)
    | some _ =>
      ({ p with live := p.live.erase id }, .answered (.flag true), l.logged (.closed p.id id))
  else (p, .refused invalidToken, l.logged (.tokenRejected p.id))

/-- Unregisters a sequencer, and then has its backend destroy its state. -/
def destroy (p : Provider) (token : String) (id : SequencerId) (l : Ledger) :
    Provider × Work × Ledger :=
  if p.admits token then
    match p.live.find? id with
    | none => (p, .refused (notFound id), l)
    | some i =>
      let s := i.backend.destroy (l.history i.serial)
      ({ p with live := p.live.erase id }, .destroying id s.acts s.outcome,
        l.called i.serial .destroy)
  else (p, .refused invalidToken, l.logged (.tokenRejected p.id))

def check (p : Provider) (id : SequencerId) : Work :=
  match p.live.find? id with
  | none => .refused (notFound id)
  | some _ => .answered (.flag true)

def sayHello (p : Provider) (id : SequencerId) (l : Ledger) : Work × Ledger :=
  match p.live.find? id with
  | none => (.refused (notFound id), l)
  | some i =>
    let g := i.backend.sayHello (l.history i.serial)
    let l := (l.called i.serial .hello).recordedAll g.effects
    match g.panic with
    | none => (.answered .greeted, l)
    | some q => (.ended (.panicked q), l)

def computeSum (p : Provider) (id : SequencerId) (x y : Int32) (l : Ledger) : Work × Ledger :=
  match p.live.find? id with
  | none => (.refused (notFound id), l)
  | some i =>
    let s := i.backend.computeSum (l.history i.serial) x y
    (.summing s.acts s.outcome, l.called i.serial (.sum x y))

/-- Serves a request up to where its backend call would first wait. -/
def serve (p : Provider) (r : Request) (l : Ledger) : Provider × Work × Ledger :=
  match r with
  | .construct how token sequencerType config => p.construct how token sequencerType config l
  | .close token id => p.close token id l
  | .destroy token id => p.destroy token id l
  | .check id => (p, p.check id, l)
  | .sayHello id => (p, p.sayHello id l)
  | .computeSum id x y => (p, p.computeSum id x y l)

def droppedEvents (p : Provider) : Request → Work → List LogEvent
  | .sayHello _, .ended (.answered (.error e)) => [.greetingDropped p.id e.message]
  | _, _ => []

/-- Serves a request that came over a wire: it is logged, and a greeting that goes astray is too. -/
def handle (p : Provider) (r : Request) (l : Ledger) : Provider × Work × Ledger :=
  let (q, w, l) := p.serve r (l.logged (.handling p.id r.op))
  (q, w, (p.droppedEvents r w).foldl Ledger.logged l)

end Provider
end SequencerHub
