/-! Tokens of a YAML document, with the places where they start. Indentation shows in them: a block opens with a start
token and closes with an end token. -/
namespace SequencerHub.Yaml

/-- A place: line and column from zero, and characters from the start of the text. -/
structure Mark where
  line : Nat
  column : Nat
  index : Nat
  deriving DecidableEq, Repr, Inhabited

inductive Problem
  | strayCharacter
  | noNode
  | noKey
  | unknownAnchor
  | controlCharacter
  | severalDocuments
  | malformed
  deriving DecidableEq, Repr

structure Fault where
  problem : Problem
  place : Mark
  deriving DecidableEq, Repr

inductive Style
  | plain
  | quoted
  deriving DecidableEq, Repr

inductive Token
  | directive
  | documentStart
  | documentEnd
  | blockSequenceStart
  | blockMappingStart
  | blockEnd
  | flowSequenceStart
  | flowSequenceEnd
  | flowMappingStart
  | flowMappingEnd
  | blockEntry
  | flowEntry
  | key
  | value
  | alias (name : List Char)
  | anchor (name : List Char)
  | tag (name : List Char)
  | scalar (content : List Char) (style : Style)
  | streamEnd
  deriving DecidableEq, Repr

abbrev Placed := Token × Mark

end SequencerHub.Yaml
