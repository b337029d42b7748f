import SequencerHub.Config.Environment
import SequencerHub.Config.Settings
import SequencerHub.Log.Level

/-! Filters of log events by target and level. A rule holds for all targets that begin with its text; of several such
rules the longest counts. -/
namespace SequencerHub

/-- The most talkative level that is let through; none lets nothing through. -/
abbrev Threshold := Option Level

def Threshold.admits (t : Threshold) (l : Level) : Bool :=
  match t with
  | some m => l.rank ≤ m.rank
  | none => false

structure LogFilter where
  fallback : Threshold
  rules : List (String × Threshold) := []

namespace LogFilter

def holdsFor (rule target : String) : Bool := rule.toList.isPrefixOf target.toList

/-- The longest rule for a target; the first of several of one length. -/
def longest (target : String) : List (String × Threshold) → Option (String × Threshold)
  | [] => none
  | r :: more =>
    if holdsFor r.1 target then
      match longest target more with
      | some s => if r.1.length < s.1.length then some s else some r
      | none => some r
    else longest target more

def threshold (f : LogFilter) (target : String) : Threshold :=
  match longest target f.rules with
  | some r => r.2
  | none => f.fallback

def admits (f : LogFilter) (target : String) (l : Level) : Bool := (f.threshold target).admits l

end LogFilter

/-- What takes log events: the console, or files, of which one may be for all targets. -/
inductive Sink
  | console
  | files (hasDefault : Bool)
  deriving DecidableEq

namespace LogSection

/-- A file is named by more than white space. -/
def hasFile (s : LogSection) : Bool := !(Environment.Text.trim s.file.toList).isEmpty

def threshold (sink : Sink) (s : LogSection) : Threshold :=
  match sink with
  | .console => Level.ofSetting s.consoleLevel
  | .files _ => Level.ofSetting s.fileLevel

end LogSection

namespace LogSections

def defaultName : String := "default"

/-- What a sink takes when there is no default section. -/
def unset : Sink → Threshold
  | .console => some .info
  | .files true => some .info
  | .files false => none

/-- The rule of a named section. A section without a file gives none for files, and one whose level is
off gives none at all. -/
def rule? (sink : Sink) (name : String) (s : LogSection) : Option (String × Threshold) :=
  match sink, s.hasFile with
  | .files _, false => none
  | _, _ => (s.threshold sink).map fun l => (name, some l)

def rules (sink : Sink) : LogSections → List (String × Threshold)
  | [] => []
  | (name, s) :: more =>
    if name = defaultName then rules sink more
    else
      match rule? sink name s with
      | some r => r :: rules sink more
      | none => rules sink more

def toFilter (sections : LogSections) (sink : Sink) : LogFilter where
  fallback :=
    match sections.find? defaultName with
    | some s => s.threshold sink
    | none => unset sink
  rules := rules sink sections

end LogSections
end SequencerHub
