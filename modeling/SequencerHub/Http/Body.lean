import SequencerHub.Json.Document
import SequencerHub.Text.Octets

/-! Typed readers on the body of a request: octets that should be JSON text. -/
namespace SequencerHub.Body

/-- Stands for an octet that belongs to no character. Outside of strings it is as wrong as the octet. -/
def stray : Char := '\x7f'

/-- The characters up to the end of the string that they are inside of, closing quote included. -/
def throughQuote : List Char → Option (List Char)
  | [] => none
  | '"' :: _ => some ['"']
  | '\\' :: c :: r => (throughQuote r).map fun s => '\\' :: c :: s
  | c :: r => (throughQuote r).map (c :: ·)

/-- Faults that stop the reader inside of a string. -/
def isStringFault : Cause → Bool
  | .fault .endInString => true
  | .fault .controlCharacter => true
  | .fault .escapeUnknown => true
  | .fault .surrogateAlone => true
  | .fault .secondSurrogateMissing => true
  | .fault .notUnicode => true
  | _ => false

variable {α : Type}

/-- Reads octets. A string with an octet that belongs to no character is refused at that octet, once it
has been read to its end. -/
def read (typed : Node Spot → Decoded Spot α) (bytes : List UInt8) : Except JsonError α :=
  let cs := Octets.characters 0 bytes
  let sound := (cs.takeWhile Option.isSome).filterMap id
  let text := cs.map (·.getD stray)
  let whole := decodeText JsonText.depthLimit typed text
  match text.drop sound.length with
  | [] => whole
  | bad :: behind =>
    match decodeText JsonText.depthLimit typed sound, throughQuote behind with
    | .error cut, some closing =>
      let insideString := match cut.cause with
        | .fault .endInString => true
        | _ => false
      let stopsInside := match decodeText JsonText.depthLimit typed (sound ++ bad :: closing) with
        | .error e => isStringFault e.cause
        | .ok _ => false
      if insideString && !stopsInside then
        .error ⟨.fault .notUnicode, some (Position.ofOffset text (byteLength sound + 1)), cut.path⟩
      else whole
    | _, _ => whole

end SequencerHub.Body
