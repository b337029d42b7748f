/-! Severity of log events. -/
namespace SequencerHub

inductive Level
  | error
  | warn
  | info
  | debug
  | trace
  deriving DecidableEq, Repr, Inhabited

namespace Level

def all : List Level := [error, warn, info, debug, trace]

/-- How talkative a level is. -/
def rank : Level → Nat
  | error => 1
  | warn => 2
  | info => 3
  | debug => 4
  | trace => 5

def name : Level → String
  | error => "ERROR"
  | warn => "WARN"
  | info => "INFO"
  | debug => "DEBUG"
  | trace => "TRACE"

def lowerName : Level → String
  | error => "error"
  | warn => "warn"
  | info => "info"
  | debug => "debug"
  | trace => "trace"

def ofName? (word : String) : Option Level := all.find? (·.lowerName = word.map Char.toLower)

/-- The level that a word in the settings asks for: nothing for `off` and `none`, and for an unknown
word the level of information. -/
def ofSetting (word : String) : Option Level :=
  match ofName? word with
  | some l => some l
  | none => if word.map Char.toLower ∈ ["off", "none"] then none else some info

end Level
end SequencerHub
