import SequencerHub.Log.Level
import SequencerHub.Provider.Options
import SequencerHub.Wire.Request

/-! The events that the server and its clients log. -/
namespace SequencerHub

inductive LogEvent
  | typeRegistered (sequencerType : String)
  | typeReplaced (sequencerType : String)
  | providerCreated (options : ProviderOptions)
  | handling (providerId : UInt16) (op : Operation)
  | tokenRejected (providerId : UInt16)
  | constructed (how : Construction) (providerId : UInt16) (id : SequencerId)
      (sequencerType : String)
  | closed (providerId : UInt16) (id : SequencerId)
  | destroyed (providerId : UInt16) (id : SequencerId) (answer : Bool)
  | destroyFailed (providerId : UInt16) (id : SequencerId) (error : String)
  | greetingDropped (providerId : UInt16) (error : String)
  | detachedAll (providerId : UInt16) (count : Nat)
  | tornDown (providerId : UInt16) (id : SequencerId) (answer : Bool)
  | tearDownFailed (providerId : UInt16) (id : SequencerId) (error : String)
  | providerRegistered (address : String) (providerId : UInt16)
  | providerDeregistered (address : String) (providerId : UInt16)
  | handlerPanicked (providerId : UInt16) (op : Operation) (panic : String)
  | tearingDown (providerId : UInt16)
  | shutdownRequested (address : String)
  | hostBound (address : String)
  | listening (listener address : String)
  | serverStopping
  | sequencerMade (how : Construction) (address : String) (providerId : UInt16) (id : SequencerId)
  | shutdownSent (address : String)
  | dummyMade (how : Construction) (providerId : UInt16)
  | helloWorld
  deriving DecidableEq

namespace LogEvent

def level : LogEvent → Level
  | handling .. => .trace
  | typeRegistered .. | providerCreated .. | greetingDropped .. | tearingDown .. | hostBound ..
  | sequencerMade .. | dummyMade .. => .debug
  | constructed .. | closed .. | destroyed .. | detachedAll .. | tornDown ..
  | providerRegistered .. | providerDeregistered .. | shutdownRequested .. | listening ..
  | serverStopping | shutdownSent .. | helloWorld => .info
  | typeReplaced .. | tokenRejected .. | destroyFailed .. | tearDownFailed .. => .warn
  | handlerPanicked .. => .error

def target : LogEvent → String
  | typeRegistered .. | typeReplaced .. => "mobject::factory"
  | providerCreated .. | handling .. | tokenRejected .. | constructed .. | closed .. | destroyed ..
  | destroyFailed .. | greetingDropped .. | detachedAll .. | tornDown .. | tearDownFailed .. =>
    "mobject::provider"
  | providerRegistered .. | providerDeregistered .. | handlerPanicked .. | tearingDown ..
  | shutdownRequested .. => "mobject::host"
  | hostBound .. => "mobject::transport::local"
  | listening .. | serverStopping => "mobject::transport::http"
  | sequencerMade .. | shutdownSent .. => "mobject::admin"
  | dummyMade .. | helloWorld => "dummy_sequencer"

def message : LogEvent → String
  | typeRegistered .. => "Registered backend type"
  | typeReplaced .. => "Backend type re-registered, replacing previous constructors"
  | providerCreated .. => "Provider created"
  | handling .. => "Handling request"
  | tokenRejected .. => "Rejected admin request with invalid token"
  | constructed .create .. => "Created sequencer"
  | constructed .attach .. => "Opened sequencer"
  | closed .. => "Closed sequencer"
  | destroyed .. => "Destroyed sequencer"
  | destroyFailed .. => "Sequencer destroy failed"
  | greetingDropped .. => "say_hello dropped"
  | detachedAll .. => "Detached sequencers on teardown"
  | tornDown .. => "Destroyed sequencer on teardown"
  | tearDownFailed .. => "Sequencer destroy failed on teardown"
  | providerRegistered .. => "Provider registered"
  | providerDeregistered .. => "Provider deregistered"
  | handlerPanicked _ _ panic => panic
  | tearingDown .. => "Tearing down provider"
  | shutdownRequested .. => "Remote shutdown requested"
  | hostBound .. => "Binding local host"
  | listening .. => "RPC server listening"
  | serverStopping => "RPC server shutting down gracefully (cancellation)"
  | sequencerMade .create .. => "Sequencer created"
  | sequencerMade .attach .. => "Sequencer opened"
  | shutdownSent .. => "Shutdown requested"
  | dummyMade .create _ => "Creating dummy sequencer"
  | dummyMade .attach _ => "Opening dummy sequencer"
  | helloWorld => "Hello World"

def policyWord : TeardownPolicy → String
  | .detach => "Detach"
  | .destroy => "Destroy"

def fields : LogEvent → List (String × Json)
  | typeRegistered t => [("sequencer_type", .string t)]
  | typeReplaced t => [("sequencer_type", .string t)]
  | providerCreated o =>
    [("provider_id", .ofUInt16 o.providerId), ("token_protected", .bool (o.token ≠ "")),
      ("teardown", .string (policyWord o.teardown))]
  | handling p op => [("provider_id", .ofUInt16 p), ("op", .string op.name)]
  | tokenRejected p => [("provider_id", .ofUInt16 p)]
  | constructed _ p id t =>
    [("provider_id", .ofUInt16 p), ("sequencer_id", .string id.toText), ("sequencer_type", .string t)]
  | closed p id => [("provider_id", .ofUInt16 p), ("sequencer_id", .string id.toText)]
  | destroyed p id b =>
    [("provider_id", .ofUInt16 p), ("sequencer_id", .string id.toText), ("destroyed", .bool b)]
  | destroyFailed p id e =>
    [("provider_id", .ofUInt16 p), ("sequencer_id", .string id.toText), ("error", .string e)]
  | greetingDropped p e => [("provider_id", .ofUInt16 p), ("error", .string e)]
  | detachedAll p n => [("provider_id", .ofUInt16 p), ("count", .ofNat n)]
  | tornDown p id b =>
    [("provider_id", .ofUInt16 p), ("sequencer_id", .string id.toText), ("destroyed", .bool b)]
  | tearDownFailed p id e =>
    [("provider_id", .ofUInt16 p), ("sequencer_id", .string id.toText), ("error", .string e)]
  | providerRegistered a p => [("address", .string a), ("provider_id", .ofUInt16 p)]
  | providerDeregistered a p => [("address", .string a), ("provider_id", .ofUInt16 p)]
  | handlerPanicked p op _ => [("provider_id", .ofUInt16 p), ("op", .string op.name)]
  | tearingDown p => [("provider_id", .ofUInt16 p)]
  | shutdownRequested a => [("address", .string a)]
  | hostBound a => [("address", .string a)]
  | listening addr a => [("addr", .string addr), ("address", .string a)]
  | serverStopping => []
  | sequencerMade _ a p id =>
    [("address", .string a), ("provider_id", .ofUInt16 p), ("sequencer_id", .string id.toText)]
  | shutdownSent a => [("address", .string a)]
  | dummyMade _ p => [("provider_id", .ofUInt16 p)]
  | helloWorld => []

end LogEvent
end SequencerHub
