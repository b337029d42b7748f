/-! Media types, as a request names the kind of its body. -/
namespace SequencerHub.MediaType

def isTokenChar (c : Char) : Bool :=
  c.isAlphanum || "!#$%&\x27*+-.^_\x60|~".toList.contains c

def isQuotedChar (c : Char) : Bool := '\x20' ≤ c && c != '\x7f' && c < '\x80'

/-- Whether a text is a list of parameters, each a name, an equals sign and a value. -/
def areParameters : Nat → List Char → Bool
  | 0, _ => false
  | _, [] => true
  | fuel + 1, ' ' :: cs => areParameters fuel cs
  | fuel + 1, cs =>
    match cs.span isTokenChar with
    | ([], _) => false
    | (_, '=' :: '"' :: r) =>
      match r.span fun c => c != '"' && isQuotedChar c with
      | (_ :: _, '"' :: r) =>
        match r.dropWhile (· == ' ') with
        | [] => true
        | ';' :: r => areParameters fuel r
        | _ => false
      | _ => false
    | (_, '=' :: r) =>
      match r.span isTokenChar with
      | (_, []) => true
      | (_ :: _, ';' :: r) => areParameters fuel r
      | _ => false
    | _ => false

/-- The type and the subtype, in lower case; nothing of a text that is no media type. -/
def parse? (text : String) : Option (List Char × List Char) :=
  match text.toList.span isTokenChar with
  | ([], _) => none
  | (type, '/' :: r) =>
    let (subtype, r) := r.span isTokenChar
    let lower := fun (cs : List Char) => cs.map Char.toLower
    match subtype, r with
    | [], _ => none
    | _, [] => some (lower type, lower subtype)
    | _, ';' :: r => if areParameters (r.length + 1) r then some (lower type, lower subtype) else none
    | _, _ => none
  | _ => none

/-- The parts of a subtype: in front of its last plus sign, and behind it. A plus sign in front of
everything is part of the name. -/
def splitSuffix (subtype : List Char) : List Char × Option (List Char) :=
  let (behind, front) := subtype.reverse.span (· != '+')
  match front with
  | '+' :: f :: more => ((f :: more).reverse, some behind.reverse)
  | _ => (subtype, none)

/-- JSON itself, or a format built on JSON. -/
def isJson (text : String) : Bool :=
  match parse? text with
  | some (type, subtype) =>
    let (name, suffix) := splitSuffix subtype
    String.ofList type = "application" &&
      (String.ofList name = "json" || suffix.map String.ofList = some "json")
  | none => false

end SequencerHub.MediaType
