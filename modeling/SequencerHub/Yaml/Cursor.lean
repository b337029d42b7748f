import SequencerHub.Yaml.Token

/-! Walking through the characters of a document. -/
namespace SequencerHub.Yaml

structure Cursor where
  rest : List Char
  mark : Mark
  deriving Inhabited

def isBreak (c : Char) : Bool :=
  c == '\n' || c == '\r' || c == '\x85' || c == '\u2028' || c == '\u2029'

def isBlank (c : Char) : Bool := c == ' ' || c == '\t'

namespace Cursor

def ofText (cs : List Char) : Cursor := ⟨cs, ⟨0, 0, 0⟩⟩

def peek? (c : Cursor) : Option Char := c.rest.head?

def peekAt? (c : Cursor) (n : Nat) : Option Char := c.rest[n]?

def column (c : Cursor) : Nat := c.mark.column

def atEnd (c : Cursor) : Bool := c.rest.isEmpty

def startsWith (c : Cursor) (ch : Char) : Bool := c.peek? == some ch

def isBlankAt (c : Cursor) (n : Nat) : Bool := (c.peekAt? n).any isBlank
def isBreakAt (c : Cursor) (n : Nat) : Bool := (c.peekAt? n).any isBreak

/-- A blank, a line break or the end. -/
def isGapAt (c : Cursor) (n : Nat) : Bool :=
  match c.peekAt? n with
  | some ch => isBlank ch || isBreak ch
  | none => true

def skip (c : Cursor) : Cursor :=
  match c.rest with
  | [] => c
  | _ :: r => ⟨r, ⟨c.mark.line, c.mark.column + 1, c.mark.index + 1⟩⟩

def skipMany : Nat → Cursor → Cursor
  | 0, c => c
  | n + 1, c => skipMany n c.skip

def skipLine (c : Cursor) : Cursor :=
  match c.rest with
  | '\r' :: '\n' :: r => ⟨r, ⟨c.mark.line + 1, 0, c.mark.index + 2⟩⟩
  | ch :: r => if isBreak ch then ⟨r, ⟨c.mark.line + 1, 0, c.mark.index + 1⟩⟩ else c
  | [] => c

def breakText (c : Cursor) : List Char :=
  match c.rest with
  | ch :: _ => if ch = '\u2028' ∨ ch = '\u2029' then [ch] else ['\n']
  | [] => []

def skipWhile (p : Char → Bool) : Nat → Cursor → Cursor
  | 0, c => c
  | fuel + 1, c => if c.peek?.any p then skipWhile p fuel c.skip else c

def skipToBreak (c : Cursor) : Cursor := skipWhile (fun ch => !isBreak ch) c.rest.length c

def skipBlanks (c : Cursor) : Cursor := skipWhile isBlank c.rest.length c

/-- `---` or `...` at the start of a line, standing alone. -/
def atDocumentMarker (c : Cursor) : Bool :=
  c.column == 0 && c.isGapAt 3 &&
    (c.rest.take 3 == ['-', '-', '-'] || c.rest.take 3 == ['.', '.', '.'])

def fault (c : Cursor) (p : Problem) : Fault := ⟨p, c.mark⟩

end Cursor
end SequencerHub.Yaml
