import SequencerHub.Config.Layered
import SequencerHub.Yaml.Scalar

/-! Settings from environment variables. The name, behind a prefix, gives the way to the setting, its steps apart by two
underscores; the text of the variable is a word, a number, a list in brackets or an object in braces. -/
namespace SequencerHub.Environment

def namePrefix : String := "MOBJECT__"

namespace Text

def isBlank (c : Char) : Bool := c == ' ' || c == '\t' || c == '\n'
def isSeparator (c : Char) : Bool :=
  c == ',' || c == '\x7b' || c == '\x7d' || c == '[' || c == ']'
def skipBlanks (cs : List Char) : List Char := cs.dropWhile isBlank

/-- White space in the wide sense, which is taken off the ends of a word. -/
def isSpace (c : Char) : Bool :=
  c == ' ' || ('\x09' ≤ c && c ≤ '\x0d') || c == '\x85' || c == '\xa0' || c == '\u1680' ||
    ('\u2000' ≤ c && c ≤ '\u200a') || c == '\u2028' || c == '\u2029' || c == '\u202f' ||
    c == '\u205f' || c == '\u3000'

def trim (cs : List Char) : List Char :=
  ((cs.dropWhile isSpace).reverse.dropWhile isSpace).reverse

def integer? (cs : List Char) : Option Whole := do
  let n ← match cs with
    | '-' :: r => (Yaml.natural? 10 r).map fun n => -(n : Int)
    | '+' :: r => (Yaml.natural? 10 r).map fun n => (n : Int)
    | r => (Yaml.natural? 10 r).map fun n => (n : Int)
  Whole.ofInt? n

def word (cs : List Char) : Scalar :=
  let cs := trim cs
  let float? := if cs.contains '.' then Yaml.float? cs else none
  match float? with
  | some f => .number (.float (.ofFloat f))
  | none =>
    match integer? cs with
    | some n => .number (.whole n)
    | none => .string (String.ofList cs)

def quoted : Nat → List Char → Option (List Char × List Char)
  | 0, _ => none
  | _, [] => none
  | fuel + 1, c :: cs =>
    if c = '"' then some ([], cs)
    else if c = '\\' then
      match cs with
      | [] => none
      | e :: cs =>
        let digits : Option Nat := if e = 'u' then some 4 else if e = 'U' then some 8 else none
        match digits with
        | some n =>
          match Yaml.natural? 16 (cs.take n) with
          | some v =>
            if (cs.take n).length = n ∧ Nat.isValidChar v then
              (quoted fuel (cs.drop n)).map fun (s, r) => (Char.ofNat v :: s, r)
            else none
          | none => none
        | none =>
          let plain : Option Char :=
            if e = 'b' then some '\x08' else if e = 't' then some '\t' else if e = 'n' then some '\n'
            else if e = 'f' then some '\x0c' else if e = 'r' then some '\r'
            else if e = '"' ∨ e = '\\' then some e else none
          match plain with
          | some d => (quoted fuel cs).map fun (s, r) => (d :: s, r)
          | none => none
    else (quoted fuel cs).map fun (s, r) => (c :: s, r)

def isKeyChar (c : Char) : Bool := c.isAlphanum || c == '_' || c == '-'

def key? (cs : List Char) : Option (String × List Char) :=
  let cs := skipBlanks cs
  match cs with
  | '"' :: r => (quoted (r.length + 1) r).map fun (s, r) => (String.ofList s, r)
  | cs =>
    let name := cs.takeWhile isKeyChar
    if name.isEmpty then none else some (String.ofList name, cs.drop name.length)

mutual

def value : Nat → List Char → Option (Setting × List Char)
  | 0, _ => none
  | fuel + 1, cs =>
    let cs := skipBlanks cs
    let scalar (s : Scalar) (r : List Char) : Option (Setting × List Char) :=
      some (.scalar s .environment, skipBlanks r)
    match cs with
    | 't' :: 'r' :: 'u' :: 'e' :: r => scalar (.bool true) r
    | 'f' :: 'a' :: 'l' :: 's' :: 'e' :: r => scalar (.bool false) r
    | '\x7b' :: r =>
      (members fuel [] r).map fun (ms, r) => (.dict ms .environment, skipBlanks r)
    | '[' :: r => (items fuel [] r).map fun (vs, r) => (.list vs .environment, skipBlanks r)
    | '"' :: r =>
      match quoted (r.length + 1) r with
      | some (s, r) => scalar (.string (String.ofList s)) r
      | none => none
    | '\x27' :: r =>
      match r with
      | c :: '\x27' :: r => scalar (.char c) r
      | _ => none
    | cs => scalar (word (cs.takeWhile (!isSeparator ·))) (cs.dropWhile (!isSeparator ·))

/-- Elements up to the closing bracket; a comma may stand behind the last one. -/
def items : Nat → List Setting → List Char → Option (List Setting × List Char)
  | 0, _, _ => none
  | fuel + 1, acc, cs =>
    match cs with
    | ']' :: r => some (acc.reverse, r)
    | cs =>
      match value fuel cs with
      | none => none
      | some (v, ',' :: r) => items fuel (v :: acc) r
      | some (v, ']' :: r) => some ((v :: acc).reverse, r)
      | some _ => none

def members : Nat → List (String × Setting) → List Char →
    Option (List (String × Setting) × List Char)
  | 0, _, _ => none
  | fuel + 1, acc, cs =>
    match cs with
    | '\x7d' :: r => some (acc, r)
    | cs =>
      match key? cs with
      | none => none
      | some (key, r) =>
        match skipBlanks r with
        | '=' :: r =>
          match value fuel r with
          | none => none
          | some (v, ',' :: r) => members fuel (Setting.put key v acc) r
          | some (v, '\x7d' :: r) => some (Setting.put key v acc, r)
          | some _ => none
        | _ => none

end

/-- The setting of a variable's text; a text outside the grammar stands for itself. -/
def read (s : String) : Setting :=
  let cs := s.toList
  match value (2 * cs.length + 2) cs with
  | some (v, []) => v
  | _ => .scalar (.string s) .environment

end Text

def splitSteps : List Char → List (List Char)
  | [] => [[]]
  | '_' :: '_' :: cs => [] :: splitSteps cs
  | c :: cs =>
    match splitSteps cs with
    | [] => [[c]]
    | part :: parts => (c :: part) :: parts

def splitPoints : List Char → List (List Char)
  | [] => [[]]
  | c :: cs =>
    match splitPoints cs with
    | [] => [[c]]
    | part :: parts => if c = '.' then [] :: part :: parts else (c :: part) :: parts

/-- The way that a variable's name gives, in lower case and without blanks around it; nothing of a name that
gives none. -/
def way? (name : String) : Option (List String) :=
  let cs := (Text.trim name.toList).map Char.toLower
  let start := namePrefix.toList.map Char.toLower
  if cs.take start.length = start then
    let steps := (splitSteps (Text.trim (cs.drop start.length))).flatMap splitPoints
    if steps.any List.isEmpty then none else some (steps.map String.ofList)
  else none

def nest (v : Setting) : List String → Setting
  | [] => v
  | key :: more => .dict [(key, nest v more)] .environment

/-- The layer of all variables, one over the other in their order. -/
def layer (env : List (String × String)) : Setting :=
  env.foldl (fun acc (name, text) =>
    match way? name with
    | some way => acc.merge (nest (Text.read text) way)
    | none => acc) (.dict [] .environment)

end SequencerHub.Environment
