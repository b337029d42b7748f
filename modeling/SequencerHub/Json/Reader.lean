import SequencerHub.Json.Skip
import SequencerHub.Tree

/-! Reading JSON text into a tree. A text that breaks off or goes wrong still gives a tree, which holds the fault where
a reader meets it. -/
namespace SequencerHub.JsonText

/-- A tree and the text behind it; nothing follows a tree that cannot be read to its end. -/
abbrev Reading (α : Type) := α × Option (List Char)

def ofScalar (cs : List Char) (value : Scalar) (rest : List Char) : Reading (Node Spot) :=
  (.scalar value (.start cs) (.start rest), some rest)

def breakOff (cs : List Char) (e : FaultAt) : Reading (Node Spot) :=
  (.broken (.start cs) e.1 e.2, none)

def ofWord (cs : List Char) (value : Scalar) (tail : String) (r : List Char) :
    Reading (Node Spot) :=
  match readWord tail.toList r with
  | .ok rest => ofScalar cs value rest
  | .error e => breakOff cs e

def ofNumber (cs : List Char) : Reading (Node Spot) :=
  match NumberText.scan cs with
  | .error e => breakOff cs e
  | .ok (t, rest) =>
    match t.value rest with
    | .ok n => ofScalar cs (.number n) rest
    | .error e => breakOff cs e

mutual

/-- The value that the text starts with, behind blanks. `depth` brackets may still be opened, less
one. -/
def readValue : Nat → Nat → List Char → Reading (Node Spot)
  | 0, _, cs => breakOff cs (.endInValue, .start [])
  | fuel + 1, depth, cs =>
    match skipBlanks cs with
    | [] => breakOff [] (.endInValue, .next [])
    | c :: r =>
      if c = '"' then
        match QuotedText.read (r.length + 1) r with
        | .ok (content, rest) => ofScalar (c :: r) (.string (String.ofList content)) rest
        | .error e => breakOff (c :: r) e
      else if c = '\x7b' then
        if depth ≤ 1 then breakOff (c :: r) (.nestedTooDeep, .next (c :: r))
        else
          let (members, rest) := readMembers fuel (depth - 1) true r
          (.object (.start (c :: r)) members, rest)
      else if c = '[' then
        if depth ≤ 1 then breakOff (c :: r) (.nestedTooDeep, .next (c :: r))
        else
          let (items, rest) := readItems fuel (depth - 1) true r
          (.list (.start (c :: r)) items, rest)
      else if c = '-' ∨ c.isDigit then ofNumber (c :: r)
      else if c = 'n' then ofWord (c :: r) .null "ull" r
      else if c = 't' then ofWord (c :: r) (.bool true) "rue" r
      else if c = 'f' then ofWord (c :: r) (.bool false) "alse" r
      else breakOff (c :: r) (.valueExpected, .next (c :: r))

/-- What follows in a list; `first` before its first element. -/
def readItems : Nat → Nat → Bool → List Char → Reading (Items Spot)
  | 0, _, _, _ => (.broken .endInList (.start []), none)
  | fuel + 1, depth, first, cs =>
    match skipBlanks cs with
    | [] => (.broken .endInList (.next []), none)
    | ']' :: r => (.done (.start r), some r)
    | c :: r =>
      if first then readItem fuel depth (c :: r)
      else if c = ',' then
        match skipBlanks r with
        | [] => (.broken .endInValue (.next []), none)
        | ']' :: r => (.broken .commaAtEnd (.next (']' :: r)), none)
        | r => readItem fuel depth r
      else (.broken .commaOrListEndExpected (.next (c :: r)), none)

def readItem : Nat → Nat → List Char → Reading (Items Spot)
  | 0, _, _ => (.broken .endInList (.start []), none)
  | fuel + 1, depth, cs =>
    match readValue fuel depth cs with
    | (v, none) => (.item v (.broken .endInList (.start [])), none)
    | (v, some r) =>
      let (rest, stop) := readItems fuel depth false r
      (.item v rest, stop)

/-- What follows in an object; `first` before its first member. -/
def readMembers : Nat → Nat → Bool → List Char → Reading (Members Spot)
  | 0, _, _, _ => (.broken .endInObject (.start []), none)
  | fuel + 1, depth, first, cs =>
    match skipBlanks cs with
    | [] => (.broken .endInObject (.next []), none)
    | '\x7d' :: r => (.done (.start r), some r)
    | c :: r =>
      if first then readMember fuel depth (c :: r)
      else if c = ',' then
        match skipBlanks r with
        | [] => (.broken .endInValue (.next []), none)
        | '\x7d' :: r => (.broken .commaAtEnd (.next ('\x7d' :: r)), none)
        | r => readMember fuel depth r
      else (.broken .commaOrObjectEndExpected (.next (c :: r)), none)

def readMember : Nat → Nat → List Char → Reading (Members Spot)
  | 0, _, _ => (.broken .endInObject (.start []), none)
  | fuel + 1, depth, cs =>
    match cs with
    | '"' :: r =>
      match QuotedText.read (r.length + 1) r with
      | .error (f, p) => (.broken f p, none)
      | .ok (key, r) =>
        let keyStop : Spot := .start r
        let after := skipBlanks r
        -- whoever gives up at the key still takes a brace that follows it
        let keyEnd : Spot := match after with
          | '\x7d' :: _ => .next after
          | _ => .start after
        let cut (f : Fault) : Reading (Members Spot) :=
          (.member (String.ofList key) keyStop keyEnd (.broken (.start after) f (.next after))
            (.start after) (.broken f (.next after)), none)
        match after with
        | [] => cut .endInObject
        | ':' :: r =>
          let (v, stop) := readValue fuel depth r
          match stop with
          | some r =>
            let (rest, stop) := readMembers fuel depth false r
            (.member (String.ofList key) keyStop keyEnd v (.start (skipBlanks r)) rest, stop)
          | none =>
            match skip r with
            | .error (f, p) =>
              (.member (String.ofList key) keyStop keyEnd v (.start []) (.broken f p), none)
            | .ok r =>
              let (rest, stop) := readMembers fuel depth false r
              (.member (String.ofList key) keyStop keyEnd v (.start (skipBlanks r)) rest, stop)
        | _ => cut .colonExpected
    | _ =>
      let (found, _) := readValue fuel depth cs
      (.keyless found .keyNotQuoted (.next cs), none)

end

def depthLimit : Nat := 128

/-- A whole text as a tree. The fuel is three times the length, because an element takes up to three
steps before a character is gone. -/
def tree (depth : Nat) (cs : List Char) : Reading (Node Spot) :=
  readValue (3 * cs.length + 3) depth cs

end SequencerHub.JsonText
