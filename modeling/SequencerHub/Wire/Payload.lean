import SequencerHub.Wire.Envelope
import SequencerHub.Wire.Request

/-! The types that travel in envelopes. -/
namespace SequencerHub.Payload

def int32 : Payload Int32 := ⟨Node.int32, none, .ofInt32⟩

def boolean : Payload Bool := ⟨Node.boolean, none, .bool⟩

def string : Payload String := ⟨Node.string, none, .string⟩

def id : Payload SequencerId := ⟨Request.readId, none, fun id => .string id.toText⟩

def unit : Payload Unit := ⟨Node.unit .content, none, fun _ => .null⟩

def optional : Payload (Option Int32) :=
  ⟨Node.option Node.int32, some none, fun v => Json.ofOption (v.map .ofInt32)⟩

def any : Payload Json := ⟨fun n => Json.canonical <$> n.toJson, none, fun j => j⟩

end SequencerHub.Payload
