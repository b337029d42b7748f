import SequencerHub.Decode.Error
import SequencerHub.Json.Printer
import SequencerHub.Text.Quoted

/-! The words for a mismatch in JSON. -/
namespace SequencerHub

def JsonNumber.toText (n : JsonNumber) : String := String.ofList (Json.writeNumber n)

def Scalar.describe : Scalar → String
  | .null => "null"
  | .bool b => s!"boolean `{b}`"
  | .number (.whole n) => s!"integer `{n.val}`"
  | .number (.float x) => s!"floating point `{JsonNumber.toText (.float x)}`"
  | .wide n => s!"integer `{n}`"
  | .char c => s!"character `{c}`"
  | .string s => s!"string {Quoted.quote s}"

def Found.describe : Found → String
  | .scalar s => s.describe
  | .list => "sequence"
  | .object => "map"

def Mismatch.message : Mismatch → String
  | .wrongType found expected => s!"invalid type: {found.describe}, expected {expected}"
  | .wrongValue found expected => s!"invalid value: {found.describe}, expected {expected}"
  | .wrongLength n expected => s!"invalid length {n}, expected {expected}"
  | .unknownVariant name known => s!"unknown variant `{name}`, expected {oneOf known}"
  | .unknownField name known => s!"unknown field `{name}`, expected {oneOf known}"
  | .missingField name => s!"missing field `{name}`"
  | .duplicateField name => s!"duplicate field `{name}`"
  | .notAnId reason => reason

def Cause.message : Cause → String
  | .fault f => f.message
  | .mismatch m => m.message

end SequencerHub
