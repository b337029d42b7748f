import SequencerHub.Json.Basic
import SequencerHub.Json.Fault

/-! Trees of values as they stand in a source: JSON text, a JSON value, a document of settings, or layered settings.
Every node carries marks that tell where it stands; a source that was read from text may break off, and then the tree
holds the fault at the place where a reader meets it. Typed readers go through a tree in the order of its text, so the
first thing that is wrong is the one reported. -/
namespace SequencerHub

inductive Scalar
  | null
  | bool (b : Bool)
  | number (n : JsonNumber)
  /-- An integer beyond 64 bits. -/
  | wide (n : Int)
  | char (c : Char)
  | string (s : String)
  deriving DecidableEq, Inhabited

mutual

/-- A value with marks of type `μ`. -/
inductive Node (μ : Type)
  | scalar (value : Scalar) (start stop : μ)
  /-- Unquoted text, with the value it stands for where no text is expected. -/
  | plain (text : String) (value : Scalar) (start stop : μ)
  | list (start : μ) (items : Items μ)
  | object (start : μ) (members : Members μ)
  | broken (start : μ) (fault : Fault) (place : μ)

inductive Items (μ : Type)
  | item (value : Node μ) (rest : Items μ)
  | done (stop : μ)
  | broken (fault : Fault) (place : μ)

inductive Members (μ : Type)
  /-- The key stops at `keyStop`; a reader of the object that gives up at the key stands at
  `keyEnd`; the rest starts at `next`. The rest is what a reader finds who passes over the value
  unread. -/
  | member (key : String) (keyStop keyEnd : μ) (value : Node μ) (next : μ) (rest : Members μ)
  | keyless (found : Node μ) (fault : Fault) (place : μ)
  | done (stop : μ)
  | broken (fault : Fault) (place : μ)

end

variable {μ : Type}

def Node.start : Node μ → μ
  | .scalar _ s _ => s
  | .plain _ _ s _ => s
  | .list s _ => s
  | .object s _ => s
  | .broken s _ _ => s

mutual

def Node.ofJson : Json → Node Unit
  | .null => .scalar .null () ()
  | .bool b => .scalar (.bool b) () ()
  | .number n => .scalar (.number n) () ()
  | .string s => .scalar (.string s) () ()
  | .array items => .list () (Items.ofJson items)
  | .object members => .object () (Members.ofJson members)

def Items.ofJson : List Json → Items Unit
  | [] => .done ()
  | v :: more => .item (Node.ofJson v) (Items.ofJson more)

def Members.ofJson : List (String × Json) → Members Unit
  | [] => .done ()
  | (k, v) :: more => .member k () () (Node.ofJson v) () (Members.ofJson more)

end

end SequencerHub
