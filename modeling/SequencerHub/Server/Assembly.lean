import SequencerHub.Backend.Dummy
import SequencerHub.Config.Settings
import SequencerHub.Host.Basic

/-! The host of a server: one provider for every entry of the settings, and the backend types that the server knows. -/
namespace SequencerHub.Server

def factory : Factory := Factory.register {} Dummy.typeName Dummy.constructors

def registerAll (h : Host) : List ProviderOptions → Ledger → Except ProviderTaken (Host × Ledger)
  | [], l => .ok (h, l)
  | o :: more, l =>
    match h.register { options := o, factory } (l.logged (.providerCreated o)) with
    | .ok (h, l) => registerAll h more l
    | .error e => .error e

def host (s : Settings) (l : Ledger) : Except ProviderTaken (Host × Ledger) :=
  registerAll { address := s.server.address } s.providers l

def failureChain (e : ProviderTaken) : List String := ["Failed to register provider", e.message]

end SequencerHub.Server
