import SequencerHub.Client.Call

/-! Remote administration: sequencers are created, opened, closed and destroyed, and servers stopped. -/
namespace SequencerHub.Admin

def construct (h : Hub) (how : Construction) (address : String) (providerId : UInt16)
    (sequencerType config token : String) : Hub × Outgoing SequencerId :=
  match h.call .id address providerId (.construct how token sequencerType config) with
  | (h, some (.ok id)) =>
    ({ h with ledger := h.ledger.logged (.sequencerMade how address providerId id) }, some (.ok id))
  | other => other

def constructJson (h : Hub) (how : Construction) (address : String) (providerId : UInt16)
    (sequencerType : String) (config : Json) (token : String) : Hub × Outgoing SequencerId :=
  construct h how address providerId sequencerType config.render token

def close (h : Hub) (address : String) (providerId : UInt16) (id : SequencerId) (token : String) :
    Hub × Outgoing Unit :=
  let (h, r) := h.call .boolean address providerId (.close token id)
  (h, r.map (·.map fun _ => ()))

def destroy (h : Hub) (address : String) (providerId : UInt16) (id : SequencerId) (token : String) :
    Hub × Outgoing Bool :=
  h.call .boolean address providerId (.destroy token id)

def shutdown (h : Hub) (address : String) : Hub × Except CallError Unit :=
  match h.lookup address with
  | .error e => (h, .error (.transport e))
  | .ok e =>
    match h.shutdownAt e with
    | (h, .ok ()) => ({ h with ledger := h.ledger.logged (.shutdownSent address) }, .ok ())
    | (h, .error e) => (h, .error e)

end SequencerHub.Admin
