import SequencerHub.Decode.Choice
import SequencerHub.Decode.Record

/-! Settings of one provider. -/
namespace SequencerHub

inductive TeardownPolicy
  | detach
  | destroy
  deriving DecidableEq, Repr, Inhabited

namespace TeardownPolicy

def name : TeardownPolicy → String
  | detach => "detach"
  | destroy => "destroy"

def choice : Choice TeardownPolicy := ⟨"TeardownPolicy", [("detach", detach), ("destroy", destroy)]⟩

end TeardownPolicy

structure ProviderOptions where
  providerId : UInt16 := 0
  /-- Shared secret of administrative calls; an empty one admits every caller. -/
  token : String := ""
  teardown : TeardownPolicy := .detach
  deriving DecidableEq, Inhabited

namespace ProviderOptions

def toJson (o : ProviderOptions) : Json :=
  .object [("provider_id", .ofUInt16 o.providerId), ("token", .string o.token),
    ("teardown", .string o.teardown.name)]

structure Draft where
  providerId : Option UInt16 := none
  token : Option String := none
  teardown : Option TeardownPolicy := none

variable {μ : Type} [Mark μ]

def shape (origin : Origin) : RecordShape μ Draft where
  title := "struct ProviderOptions"
  fields := [
    { name := "provider_id", presence := .required, given := (·.providerId.isSome)
      read := fun n d => do
        let v ← n.uint16
        .ok { d with providerId := some v } },
    { name := "token", presence := .defaulted, given := (·.token.isSome)
      read := fun n d => do
        let v ← n.string
        .ok { d with token := some v } },
    { name := "teardown", presence := .defaulted, given := (·.teardown.isSome)
      read := fun n d => do
        let v ← TeardownPolicy.choice.read origin n
        .ok { d with teardown := some v } }]
  closed := true

def build (d : Draft) : Option ProviderOptions := do
  let providerId ← d.providerId
  some ⟨providerId, d.token.getD "", d.teardown.getD .detach⟩

def read (origin : Origin) : Node μ → Decoded μ ProviderOptions := (shape origin).read origin {} build

end ProviderOptions
end SequencerHub
