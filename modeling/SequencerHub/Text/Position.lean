/-! Places in a text and their lines and columns. Lengths are counted in bytes of the encoded text, because columns
are. -/
namespace SequencerHub

def byteLength : List Char → Nat
  | [] => 0
  | c :: cs => c.utf8Size + byteLength cs

/-- A line and a column; lines count from one, columns from zero. -/
structure Position where
  line : Nat
  column : Nat
  deriving DecidableEq, Repr

namespace Position

/-- Moves over the given number of bytes; a character cut in the middle counts with the bytes
before the cut. -/
def advance (p : Position) : Nat → List Char → Position
  | _, [] => p
  | bytes, c :: cs =>
    if bytes < c.utf8Size then ⟨p.line, p.column + bytes⟩
    else advance (if c = '\n' then ⟨p.line + 1, 0⟩ else ⟨p.line, p.column + c.utf8Size⟩)
      (bytes - c.utf8Size) cs

def ofOffset (text : List Char) (bytes : Nat) : Position := advance ⟨1, 0⟩ bytes text

end Position

/-- A place in a text that is being read: so many bytes past the start of a rest of it. -/
structure Spot where
  rest : List Char
  ahead : Nat
  deriving Inhabited

namespace Spot

def start (rest : List Char) : Spot := ⟨rest, 0⟩

def next (rest : List Char) : Spot := ⟨rest, 1⟩

/-- Bytes between the start of the text and the place; never beyond the end. -/
def offset (text : List Char) (s : Spot) : Nat :=
  min (byteLength text) (byteLength text - byteLength s.rest + s.ahead)

def position (text : List Char) (s : Spot) : Position := Position.ofOffset text (s.offset text)

end Spot
end SequencerHub
