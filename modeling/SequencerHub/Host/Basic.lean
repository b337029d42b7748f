import SequencerHub.Provider.Teardown

/-! A host: the providers of one server process, by their ids, and the dispatch of requests to them. -/
namespace SequencerHub

structure Host where
  address : String
  /-- By increasing id. -/
  providers : List Provider := []
  stopping : Bool := false

structure ProviderTaken where
  id : UInt16
  deriving DecidableEq

def ProviderTaken.message (e : ProviderTaken) : String :=
  s!"provider {e.id.toNat} is already registered"

inductive Dispatch
  | replied (reply : Json)
  | running (providerId : UInt16) (op : Operation) (work : Work)

namespace Dispatch

def panicReply (op : Operation) (p : Panic) : Json :=
  (Envelope.failure (α := Unit) .backendOperation s!"{op.name} panicked: {p.message}").toJson
    fun _ => .null

/-- Replies as soon as the work has ended. A panic is logged and becomes a failure. -/
def ofWork (providerId : UInt16) (op : Operation) : Work → Ledger → Dispatch × Ledger
  | .ended (.answered r), l => (.replied (op.reply r), l)
  | .ended (.panicked p), l =>
    (.replied (panicReply op p), l.logged (.handlerPanicked providerId op p.message))
  | w, l => (.running providerId op w, l)

def resume (opened : Gates) : Dispatch → Ledger → Dispatch × Ledger
  | replied r, l => (replied r, l)
  | running providerId op w, l =>
    let (w, l) := w.resume opened providerId l
    ofWork providerId op w l

end Dispatch

namespace Host

def find? (h : Host) (id : UInt16) : Option Provider := h.providers.find? (·.id = id)

def providerIds (h : Host) : List UInt16 := h.providers.map Provider.id

/-- Puts a provider at its place; it takes the place of one with the same id. -/
def insert (p : Provider) : List Provider → List Provider
  | [] => [p]
  | q :: more =>
    if p.id < q.id then p :: q :: more
    else if p.id = q.id then p :: more
    else q :: insert p more

def put (h : Host) (p : Provider) : Host := { h with providers := insert p h.providers }

def register (h : Host) (p : Provider) (l : Ledger) : Except ProviderTaken (Host × Ledger) :=
  match h.find? p.id with
  | some _ => .error ⟨p.id⟩
  | none => .ok (h.put p, l.logged (.providerRegistered h.address p.id))

/-- Takes a provider out of the table, with all its live sequencers. -/
def deregister (h : Host) (id : UInt16) (l : Ledger) : Option Provider × Host × Ledger :=
  match h.find? id with
  | none => (none, h, l)
  | some p =>
    (some p, { h with providers := h.providers.filter (·.id ≠ id) },
      l.logged (.providerDeregistered h.address id))

/-- Runs a request on the provider it names, as far as it goes; nothing if there is no such
provider. -/
def dispatch (h : Host) (opened : Gates) (id : UInt16) (r : Request) (l : Ledger) :
    Option (Host × Dispatch × Ledger) :=
  match h.find? id with
  | none => none
  | some p =>
    let (p, w, l) := p.handle r l
    let (w, l) := w.resume opened id l
    some (h.put p, Dispatch.ofWork id r.op w l)

/-- Asks the serving loop to stop. To ask again changes nothing. -/
def requestShutdown (h : Host) (l : Ledger) : Host × Ledger :=
  ({ h with stopping := true }, if h.stopping then l else l.logged (.shutdownRequested h.address))

/-- Takes all providers out of the table and tears them down. -/
def tearDown (h : Host) (opened : Gates) (l : Ledger) : Host × Teardown × Ledger :=
  let (t, l) := Teardown.all opened h.providers l
  ({ h with providers := [] }, t, l)

end Host
end SequencerHub
