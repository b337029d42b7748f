import SequencerHub.Json.QuotedText

/-! Passing over a JSON value that nobody asks for. Its brackets and commas are held to the grammar, but its numbers
need not fit, its escapes need not be characters, and its depth has no limit. -/
namespace SequencerHub.JsonText

def isBlank (c : Char) : Bool := c == ' ' || c == '\n' || c == '\t' || c == '\r'

def skipBlanks (cs : List Char) : List Char := cs.dropWhile isBlank

/-- The rest of a word whose first letter told which word it has to be. -/
def readWord : List Char → List Char → Except FaultAt (List Char)
  | [], cs => .ok cs
  | _ :: _, [] => .error (.endInValue, .start [])
  | w :: ws, c :: cs => if c = w then readWord ws cs else .error (.wordExpected, .next (c :: cs))

/-- A number that ends too early counts as malformed here. -/
def skipNumber (cs : List Char) : Except FaultAt (List Char) :=
  match NumberText.scan cs with
  | .ok (_, r) => .ok r
  | .error (.endInValue, place) => .error (.numberMalformed, place)
  | .error e => .error e

mutual

def skipValue : Nat → List Char → Except FaultAt (List Char)
  | 0, _ => .error (.endInValue, .start [])
  | fuel + 1, cs =>
    match skipBlanks cs with
    | [] => .error (.endInValue, .next [])
    | c :: r =>
      if c = 'n' then readWord "ull".toList r
      else if c = 't' then readWord "rue".toList r
      else if c = 'f' then readWord "alse".toList r
      else if c = '-' ∨ c.isDigit then skipNumber (c :: r)
      else if c = '"' then QuotedText.skip (r.length + 1) r
      else if c = '[' then
        match skipBlanks r with
        | [] => .error (.endInList, .next [])
        | ']' :: r => .ok r
        | r => skipItems fuel r
      else if c = '\x7b' then
        match skipBlanks r with
        | [] => .error (.endInObject, .next [])
        | '\x7d' :: r => .ok r
        | r => skipMembers fuel r
      else .error (.valueExpected, .next (c :: r))

def skipItems : Nat → List Char → Except FaultAt (List Char)
  | 0, _ => .error (.endInList, .start [])
  | fuel + 1, cs =>
    match skipValue fuel cs with
    | .error e => .error e
    | .ok r =>
      match skipBlanks r with
      | [] => .error (.endInList, .next [])
      | ',' :: r => skipItems fuel r
      | ']' :: r => .ok r
      | r => .error (.commaOrListEndExpected, .next r)

def skipMembers : Nat → List Char → Except FaultAt (List Char)
  | 0, _ => .error (.endInObject, .start [])
  | fuel + 1, cs =>
    match skipBlanks cs with
    | [] => .error (.endInObject, .next [])
    | '"' :: r =>
      match QuotedText.skip (r.length + 1) r with
      | .error e => .error e
      | .ok r =>
        match skipBlanks r with
        | [] => .error (.endInObject, .next [])
        | ':' :: r =>
          match skipValue fuel r with
          | .error e => .error e
          | .ok r =>
            match skipBlanks r with
            | [] => .error (.endInObject, .next [])
            | ',' :: r => skipMembers fuel r
            | '\x7d' :: r => .ok r
            | r => .error (.commaOrObjectEndExpected, .next r)
        | r => .error (.colonExpected, .next r)
    | r => .error (.keyNotQuoted, .next r)

end

/-- Enough for any text: every step but one in two takes a character. -/
def fuelFor (cs : List Char) : Nat := 2 * cs.length + 2

def skip (cs : List Char) : Except FaultAt (List Char) := skipValue (fuelFor cs) cs

end SequencerHub.JsonText
