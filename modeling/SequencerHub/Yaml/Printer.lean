import SequencerHub.Text.Position
import SequencerHub.Yaml.Cursor
import SequencerHub.Yaml.Scalar

/-! Writing YAML documents. Text is written bare where it reads back as itself, else in single quotes, else with escapes
in double quotes; text of several lines is written as a literal block. -/
namespace SequencerHub.Yaml

inductive Value
  | null
  | number (n : Nat)
  | text (s : String)
  | list (items : List Value)
  | map (members : List (String × Value))

def isPrintable (c : Char) : Bool :=
  c == '\n' || ('\x20' ≤ c && c ≤ '\x7e') || ('\xa0' ≤ c && c.toNat ≤ 0xd7ff) ||
    (0xe000 ≤ c.toNat && c.toNat ≤ 0xfffd && c.toNat ≠ 0xfeff) || 0x10000 ≤ c.toNat

/-- What decides how a text can be written. -/
structure Features where
  multiline : Bool
  /-- Bare, outside brackets. -/
  plain : Bool
  singleQuoted : Bool
  block : Bool
  deriving DecidableEq, Repr

def isGap (c : Option Char) : Bool := c.all fun c => isBlank c || isBreak c

/-- Whether a character would be taken for a sign of the grammar, given its neighbours. -/
def isSign (before : Option Char) (c : Char) (after : Option Char) : Bool :=
  match before with
  | none =>
    "#,[]\x7b\x7d&*!|>\x27\"%@`".toList.contains c || ((c == '?' || c == ':' || c == '-') && isGap after)
  | some b => (c == ':' && isGap after) || (c == '#' && isGap (some b))

def hasSign : Option Char → List Char → Bool
  | _, [] => false
  | before, c :: cs => isSign before c cs.head? || hasSign (some c) cs

/-- Whether a blank and a break stand side by side, in this order or the other. -/
def hasPair (first second : Char → Bool) : List Char → Bool
  | a :: b :: cs => (first a && second b) || hasPair first second (b :: cs)
  | _ => false

def isSpace (c : Char) : Bool := c == ' '

def features (cs : List Char) : Features :=
  if cs.isEmpty then ⟨false, true, true, false⟩
  else
    let marker := cs.take 3 == ['-', '-', '-'] || cs.take 3 == ['.', '.', '.']
    let edge := cs.head?.any (fun c => isSpace c || isBreak c) ||
      cs.getLast?.any (fun c => isSpace c || isBreak c)
    let breakSpace := hasPair isBreak isSpace cs
    let spoiled := hasPair isSpace isBreak cs || cs.any (fun c => !isPrintable c)
    let breaks := cs.any isBreak
    { multiline := breaks
      plain := !(edge || breakSpace || spoiled || breaks || marker || hasSign none cs)
      singleQuoted := !(breakSpace || spoiled)
      block := !(cs.getLast?.any isSpace || spoiled) }

inductive Spelling
  | bare
  | single
  | double
  | literal
  deriving DecidableEq, Repr

/-- The spelling of a text, as a value or as a key in front of its colon. -/
def spelling (asKey : Bool) (cs : List Char) : Spelling :=
  let f := features cs
  let quoted := if f.singleQuoted then Spelling.single else .double
  if cs.contains '\n' then
    if asKey || !f.block then .double else .literal
  else if asKey && f.multiline then .double
  else
    match resolve cs with
    | .string _ =>
      if isPadded cs then quoted
      else if f.plain && !(asKey && cs.isEmpty) then .bare
      else quoted
    | _ => quoted

def hexUpper (width n : Nat) : List Char :=
  let ds := (Nat.toDigits 16 n).map fun c => if 'a' ≤ c then Char.ofNat (c.toNat - 32) else c
  List.replicate (width - ds.length) '0' ++ ds

def escapeLetter? (c : Char) : Option Char :=
  if c = '\x00' then some '0'
  else if c = '\x07' then some 'a'
  else if c = '\x08' then some 'b'
  else if c = '\t' then some 't'
  else if c = '\n' then some 'n'
  else if c = '\x0b' then some 'v'
  else if c = '\x0c' then some 'f'
  else if c = '\r' then some 'r'
  else if c = '\x1b' then some 'e'
  else if c = '"' then some '"'
  else if c = '\\' then some '\\'
  else if c = '\x85' then some 'N'
  else if c = '\xa0' then some '_'
  else if c = '\u2028' then some 'L'
  else if c = '\u2029' then some 'P'
  else none

def escape (c : Char) : List Char :=
  if isPrintable c && !isBreak c && c != '"' && c != '\\' then [c]
  else
    match escapeLetter? c with
    | some letter => ['\\', letter]
    | none =>
      if c.toNat ≤ 0xff then '\\' :: 'x' :: hexUpper 2 c.toNat
      else if c.toNat ≤ 0xffff then '\\' :: 'u' :: hexUpper 4 c.toNat
      else '\\' :: 'U' :: hexUpper 8 c.toNat

def blanks (n : Nat) : List Char := List.replicate n ' '

/-- Text in single quotes. A line feed is written twice; the line behind a break is indented. -/
def single (indent : Nat) : (breaks : Bool) → List Char → List Char
  | _, [] => ['\x27']
  | breaks, c :: cs =>
    if isBreak c then
      (if !breaks && c == '\n' then ['\n'] else []) ++ c :: single indent true cs
    else
      (if breaks then blanks indent else []) ++
        (if c = '\x27' then ['\x27', '\x27'] else [c]) ++ single indent false cs

/-- The signs behind the bar: the indentation if the text itself starts with a gap, and what becomes of the
breaks at the end. -/
def literalSigns (cs : List Char) : List Char :=
  let hint := if cs.head?.any (fun c => isSpace c || isBreak c) then ['2'] else []
  let chomp :=
    match cs.reverse with
    | [] => ['-']
    | c :: before =>
      if !isBreak c then ['-']
      else
        match before with
        | [] => ['+']
        | d :: _ => if isBreak d then ['+'] else []
  hint ++ chomp

def literalLines (indent : Nat) : (breaks : Bool) → List Char → List Char
  | _, [] => []
  | breaks, c :: cs =>
    if isBreak c then c :: literalLines indent true cs
    else (if breaks then blanks indent else []) ++ c :: literalLines indent false cs

/-- A text; lines of its own are indented by `indent`. -/
def writeText (asKey : Bool) (indent : Nat) (cs : List Char) : List Char :=
  match spelling asKey cs with
  | .bare => cs
  | .single => '\x27' :: single indent false cs
  | .double => '"' :: cs.flatMap escape ++ ['"']
  | .literal => '|' :: literalSigns cs ++ '\n' :: literalLines indent true cs

/-- Ends the line unless the text did. -/
def endLine (cs : List Char) : List Char := if cs.getLast?.any isBreak then cs else cs ++ ['\n']

def isShortKey (cs : List Char) : Bool :=
  !(features cs).multiline && byteLength cs ≤ 128

mutual

/-- A value behind the sign that introduces it, with the blank before it and to the end of its last line.
`inner` is the indentation of its lines, `list` that of the entries of a list. -/
def writeValue (inner list : Nat) : Value → List Char
  | .null => " null\n".toList
  | .number n => ' ' :: Nat.toDigits 10 n ++ ['\n']
  | .text s => ' ' :: endLine (writeText false inner s.toList)
  | .list [] => " []\n".toList
  | .list items => '\n' :: writeItems list items
  | .map [] => " \x7b\x7d\n".toList
  | .map members => '\n' :: writeMembers inner members

def writeItems (indent : Nat) : List Value → List Char
  | [] => []
  | v :: more =>
    blanks indent ++ '-' :: writeInline (indent + 2) v ++ writeItems indent more

/-- A value whose first line stands behind a sign of one character and a blank. -/
def writeInline (indent : Nat) : Value → List Char
  | .map [] => " \x7b\x7d\n".toList
  | .map members => ' ' :: (writeMembers indent members).drop indent
  | .list [] => " []\n".toList
  | .list items => ' ' :: (writeItems indent items).drop indent
  | .null => " null\n".toList
  | .number n => ' ' :: Nat.toDigits 10 n ++ ['\n']
  | .text s => ' ' :: endLine (writeText false indent s.toList)

def writeMembers (indent : Nat) : List (String × Value) → List Char
  | [] => []
  | (key, v) :: more =>
    let k := key.toList
    let entry :=
      if isShortKey k then
        blanks indent ++ writeText true indent k ++ ':' :: writeValue (indent + 2) indent v
      else
        blanks indent ++ '?' :: ' ' :: endLine (writeText false (indent + 2) k) ++
          blanks indent ++ ':' :: writeInline (indent + 2) v
    entry ++ writeMembers indent more

end

def render (v : Value) : String :=
  match v with
  | .map [] => "\x7b\x7d\n"
  | .map members => String.ofList (writeMembers 0 members)
  | v => String.ofList ((writeValue 0 0 v).drop 1)

end SequencerHub.Yaml
