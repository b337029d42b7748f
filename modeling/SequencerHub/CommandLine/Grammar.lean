/-! The shape of a command line: options, values and subcommands, and the ways in which a command line can be wrong. -/
namespace SequencerHub.CommandLine

inductive ValueKind
  | text
  | path
  | word
  | identifier
  deriving DecidableEq

inductive OptionKind
  /-- May be given once, without a value. -/
  | flag
  /-- May be given again and again, without a value. -/
  | count
  /-- Is given once, with a value. -/
  | value (kind : ValueKind)
  | help
  | version
  deriving DecidableEq

structure OptionSpec where
  long : String
  short : Option Char := none
  kind : OptionKind
  required : Bool := false
  deriving DecidableEq

/-- A command with its options, at most one value of its own, and its subcommands. -/
inductive CommandSpec
  | mk (name : String) (options : List OptionSpec) (operand : Option (String × ValueKind))
      (subcommands : List CommandSpec) (needsSubcommand : Bool)

namespace CommandSpec

def name : CommandSpec → String
  | mk n _ _ _ _ => n

def options : CommandSpec → List OptionSpec
  | mk _ o _ _ _ => o

def operand : CommandSpec → Option (String × ValueKind)
  | mk _ _ o _ _ => o

def subcommands : CommandSpec → List CommandSpec
  | mk _ _ _ s _ => s

def needsSubcommand : CommandSpec → Bool
  | mk _ _ _ _ n => n

def subcommand? (c : CommandSpec) (name : String) : Option CommandSpec :=
  c.subcommands.find? (·.name = name)

def helpWord : String := "help"

/-- Whether a word is in the place of a subcommand; a command that has any also has one for help. -/
def isSubcommandWord (c : CommandSpec) (word : String) : Bool :=
  (c.subcommand? word).isSome || (!c.subcommands.isEmpty && word = helpWord)

end CommandSpec

inductive UsageError
  | argumentConflict
  | invalidSubcommand
  | invalidValue
  | missingRequired
  | missingSubcommand
  | nothingGiven
  | showHelp
  | showVersion
  | tooManyValues
  | unknownArgument
  | valueValidation
  deriving DecidableEq

namespace UsageError

/-- A text that was asked for is no failure. -/
def exitCode : UsageError → Nat
  | showHelp | showVersion => 0
  | _ => 2

end UsageError

inductive Matches
  | mk (values : List (String × String)) (counts : List (String × Nat))
      (sub : Option (String × Matches))

namespace Matches

def value? (m : Matches) (key : String) : Option String :=
  match m with
  | mk values _ _ => (values.find? (·.1 = key)).map (·.2)

def count (m : Matches) (key : String) : Nat :=
  match m with
  | mk _ counts _ => ((counts.find? (·.1 = key)).map (·.2)).getD 0

def sub? : Matches → Option (String × Matches)
  | mk _ _ s => s

end Matches
end SequencerHub.CommandLine
