import SequencerHub.Log.Filter

/-! Filters written as text: directives with commas between them. A directive is a level, a target, or a target with its
level behind an equals sign. -/
namespace SequencerHub.Directive

def environmentName : String := "RUST_LOG"

def digitThreshold? : Nat → Option Threshold
  | 0 => some none
  | 1 => some (some .error)
  | 2 => some (some .warn)
  | 3 => some (some .info)
  | 4 => some (some .debug)
  | 5 => some (some .trace)
  | _ => none

/-- A level by its name in any letter case or by its rank; an empty text is the gravest level. -/
def threshold? (word : List Char) : Option Threshold :=
  match (Yaml.natural? 10 (if word.head? = some '+' then word.tail else word)).bind digitThreshold? with
  | some t => some t
  | none =>
    let lower := String.ofList (word.map Char.toLower)
    if lower = "off" then some none
    else if word.isEmpty then some (some .error)
    else (Level.ofName? lower).map some

def mayStart (c : Char) : Bool := c.isAlphanum || c == '-' || c == ':' || c == '_' || '\x80' ≤ c

def one? (text : List Char) : Option (Option String × Threshold) :=
  let text := Environment.Text.trim text
  match text with
  | [] => none
  | c :: _ =>
    if !mayStart c then none
    else
      match text.span (· != '=') with
      | (word, []) =>
        match threshold? word with
        | some t => some (none, t)
        | none => some (some (String.ofList word), some .trace)
      | (target, _ :: level) => (threshold? level).map fun t => (some (String.ofList target), t)

def splitCommas : List Char → List (List Char)
  | [] => [[]]
  | c :: cs =>
    match splitCommas cs with
    | [] => [[c]]
    | part :: parts => if c = ',' then [] :: part :: parts else (c :: part) :: parts

/-- Adds a directive; it takes the place of an earlier one for the same target. -/
def add (f : LogFilter) : Option String × Threshold → LogFilter
  | (none, t) => { f with fallback := t }
  | (some target, t) => { f with rules := (f.rules.filter (·.1 ≠ target)) ++ [(target, t)] }

/-- The filter of a text; nothing if a directive is none. Without directives errors alone pass. -/
def filter? (text : String) : Option LogFilter :=
  let parts := (splitCommas text.toList).filter (!·.isEmpty)
  match parts.mapM one? with
  | none => none
  | some [] => some ⟨some .error, []⟩
  | some directives => some (directives.foldl add ⟨none, []⟩)

end SequencerHub.Directive
