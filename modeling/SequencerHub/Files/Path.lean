/-! Paths as text, with slashes between their components. -/
namespace SequencerHub.Path

def isAbsolute (p : List Char) : Bool := p.head? == some '/'

/-- The path behind a base: an absolute one replaces the base. -/
def joinChars (base p : List Char) : List Char :=
  if isAbsolute p then p
  else if base.isEmpty || base.getLast? == some '/' then base ++ p
  else base ++ '/' :: p

def join (base p : String) : String := String.ofList (joinChars base.toList p.toList)

/-- The parts between slashes, empty ones included. -/
def splitSlashes : List Char → List (List Char)
  | [] => [[]]
  | c :: cs =>
    match splitSlashes cs with
    | [] => [[c]]
    | part :: parts => if c = '/' then [] :: part :: parts else (c :: part) :: parts

/-- The parts that a walk through the file system takes: no empty ones. -/
def steps (p : List Char) : List (List Char) := (splitSlashes p).filter (!·.isEmpty)

/-- The components: as the parts, without those that stay where they are, save for a leading one of a
relative path. -/
def components (p : List Char) : List (List Char) :=
  match steps p with
  | ['.'] :: more =>
    if isAbsolute p then more.filter (· != ['.']) else ['.'] :: more.filter (· != ['.'])
  | parts => parts.filter (· != ['.'])

def ofComponents (absolute : Bool) (parts : List (List Char)) : List Char :=
  (if absolute then ['/'] else []) ++ (parts.intersperse ['/']).flatten

def parent? (p : List Char) : Option (List Char) :=
  match components p with
  | [] => none
  | parts => some (ofComponents (isAbsolute p) parts.dropLast)

end SequencerHub.Path
