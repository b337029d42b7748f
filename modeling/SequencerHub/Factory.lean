import SequencerHub.Backend.Basic
import SequencerHub.Text.Quoted

/-! The table of backend types. -/
namespace SequencerHub

/-- Constructors by type name, in the order of the names. -/
structure Factory where
  types : List (String × Constructors) := []

inductive FactoryError
  | unknownType (name : String)
  | construction (name : String) (e : ErrorChain)

def FactoryError.message : FactoryError → String
  | unknownType name => s!"Unknown sequencer type {name}"
  | construction name e => s!"Failed to construct sequencer of type {name}: {e.message}"

namespace Factory

/-- Puts a type at its place; it takes the place of an earlier one of the same name. -/
def insert (name : String) (c : Constructors) : List (String × Constructors) → List (String × Constructors)
  | [] => [(name, c)]
  | (n, d) :: more =>
    if name < n then (name, c) :: (n, d) :: more
    else if name = n then (name, c) :: more
    else (n, d) :: insert name c more

def register (f : Factory) (name : String) (c : Constructors) : Factory := ⟨insert name c f.types⟩

def find? (f : Factory) (name : String) : Option Constructors :=
  (f.types.find? (·.1 = name)).map (·.2)

def contains (f : Factory) (name : String) : Bool := (f.find? name).isSome

def names (f : Factory) : List String := f.types.map (·.1)

def registration (f : Factory) (name : String) : LogEvent :=
  if f.contains name then .typeReplaced name else .typeRegistered name

def construct (f : Factory) (how : Construction) (name : String) (nth : Nat) (args : BackendArgs) :
    Except FactoryError (Prompt Backend) :=
  match f.find? name with
  | some c => .ok (c.pick how nth args)
  | none => .error (.unknownType name)

def describe (f : Factory) : String :=
  "BackendFactory \x7b types: " ++ Quoted.quoteAll f.names ++ " \x7d"

end Factory
end SequencerHub
