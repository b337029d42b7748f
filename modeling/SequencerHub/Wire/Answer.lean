import SequencerHub.Wire.Envelope
import SequencerHub.Wire.Request

/-! What a provider answers, and the reply that carries it. -/
namespace SequencerHub

inductive Answer
  | id (i : SequencerId)
  | flag (b : Bool)
  | sum (n : Int32)
  | greeted
  deriving DecidableEq

def Answer.toJson : Answer → Json
  | .id i => .string i.toText
  | .flag b => .bool b
  | .sum n => .ofInt32 n
  | .greeted => .null

/-- The reply to a request. A greeting is answered by nothing, whatever came of it. -/
def Operation.reply (op : Operation) (r : Except RemoteError Answer) : Json :=
  match op with
  | .sayHello => .null
  | _ => (Envelope.ofResult r).toJson Answer.toJson

end SequencerHub
