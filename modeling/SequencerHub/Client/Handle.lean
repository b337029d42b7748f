import SequencerHub.Client.Call

/-! Handles: what a client holds of a remote sequencer. They never change; whether the sequencer is still there shows
with the next call. -/
namespace SequencerHub

structure Handle where
  endpoint : Endpoint
  providerId : UInt16
  id : SequencerId

/-- A call under way in the background, by the number of its task. -/
structure Background where
  task : Nat

namespace Handle

def clientConfig : String := "\x7b\x7d"

def describe (s : Handle) : String :=
  "SequencerHandle \x7b address: " ++ Quoted.quote s.endpoint.address ++
    s!", provider_id: {s.providerId.toNat}, sequencer_id: SequencerId({s.id}) " ++ "\x7d"

/-- Makes a handle for a sequencer. If asked to check, the provider is asked first whether it has it. -/
def bind (h : Hub) (address : String) (providerId : UInt16) (id : SequencerId) (check : Bool) :
    Hub × Outgoing Handle :=
  match h.lookup address with
  | .error e => (h, some (.error (.transport e)))
  | .ok e =>
    if check then
      let (h, r) := h.callAt .boolean e providerId (.check id)
      (h, r.map (·.map fun _ => ⟨e, providerId, id⟩))
    else (h, some (.ok ⟨e, providerId, id⟩))

/-- Greets the sequencer. The only failure there can be is that the greeting does not get there. -/
def sayHello (h : Hub) (s : Handle) : Hub × Outgoing Unit :=
  let (h, r) := h.forward s.endpoint.link s.providerId (.sayHello s.id)
  (h, r.map fun
    | .ok _ => .ok ()
    | .error e => .error (.transport e))

def computeSum (h : Hub) (s : Handle) (x y : Int32) : Hub × Outgoing Int32 :=
  h.callAt .int32 s.endpoint s.providerId (.computeSum s.id x y)

def computeSumLater (h : Hub) (s : Handle) (x y : Int32) : Hub × Background :=
  let (h, n) := h.start (.sending s.endpoint.link s.providerId (.computeSum s.id x y))
  (h, ⟨n⟩)

end Handle

namespace Background

def isCompleted (h : Hub) (b : Background) : Bool := (h.reply? b.task).isSome

def result? (h : Hub) (b : Background) : Outgoing Int32 :=
  (h.reply? b.task).map (settled .int32)

def describe (h : Hub) (b : Background) : String :=
  s!"AsyncRequest \x7b completed: {b.isCompleted h}, .. \x7d"

end Background
end SequencerHub
