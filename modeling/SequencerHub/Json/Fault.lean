/-! What can be wrong with a JSON text. -/
namespace SequencerHub

inductive Fault
  | endInList
  | endInObject
  | endInString
  | endInValue
  | colonExpected
  | commaOrListEndExpected
  | commaOrObjectEndExpected
  | wordExpected
  | valueExpected
  | escapeUnknown
  | numberMalformed
  | numberTooLarge
  | notUnicode
  | controlCharacter
  | keyNotQuoted
  | surrogateAlone
  | commaAtEnd
  | charactersAtEnd
  | secondSurrogateMissing
  | nestedTooDeep
  deriving DecidableEq, Repr

def Fault.message : Fault → String
  | .endInList => "EOF while parsing a list"
  | .endInObject => "EOF while parsing an object"
  | .endInString => "EOF while parsing a string"
  | .endInValue => "EOF while parsing a value"
  | .colonExpected => "expected `:`"
  | .commaOrListEndExpected => "expected `,` or `]`"
  | .commaOrObjectEndExpected => "expected `,` or `\x7d`"
  | .wordExpected => "expected ident"
  | .valueExpected => "expected value"
  | .escapeUnknown => "invalid escape"
  | .numberMalformed => "invalid number"
  | .numberTooLarge => "number out of range"
  | .notUnicode => "invalid unicode code point"
  | .controlCharacter => "control character (\\u0000-\\u001F) found while parsing a string"
  | .keyNotQuoted => "key must be a string"
  | .surrogateAlone => "lone leading surrogate in hex escape"
  | .commaAtEnd => "trailing comma"
  | .charactersAtEnd => "trailing characters"
  | .secondSurrogateMissing => "unexpected end of hex escape"
  | .nestedTooDeep => "recursion limit exceeded"

end SequencerHub
