import SequencerHub.Json.Printer
import SequencerHub.Log.Directive
import SequencerHub.Log.Event
import SequencerHub.Log.Router

/-! Where the events of a process go: to the console when nothing is said about logging, else to files. -/
namespace SequencerHub

structure LogRecord where
  level : Level
  target : String
  message : String
  fields : List (String × Json) := []

def LogEvent.record (e : LogEvent) : LogRecord := ⟨e.level, e.target, e.message, e.fields⟩

namespace LogRecord

def fieldText : Json → String
  | .string s => s
  | j => j.render

def consoleLine (r : LogRecord) : String :=
  let fields := r.fields.map fun (name, v) => s!" {name}={fieldText v}"
  s!"{r.level.name} {r.target}: {r.message}" ++ String.join fields

def fileLine (time : String) (r : LogRecord) : String :=
  (Json.object [("timestamp", .string time), ("level", .string r.level.name),
    ("fields", .object (("message", .string r.message) :: r.fields)),
    ("target", .string r.target)]).render ++ "\n"

end LogRecord

inductive Logging
  | console
  | files (filter : LogFilter) (router : LogRouter)

namespace Logging

def start (sections : LogSections) (base : String) (files : FileTree) :
    FileTree × Except RotationError Logging :=
  if sections.isEmpty then (files, .ok .console)
  else
    match LogRouter.ofSections base sections files with
    | (files, .error e) => (files, .error e)
    | (files, .ok r) => (files, .ok (.files (sections.toFilter (.files r.fallback.isSome)) r))

structure Output where
  lines : List String := []
  logging : Logging
  files : FileTree
  written : Nat := 0

/-- Writes an event that passes the filter of the environment, if there is one, and that of the sink. -/
def Output.log (o : Output) (environment : Option LogFilter) (time : String) (r : LogRecord) : Output :=
  let passes := match environment with
    | some f => f.admits r.target r.level
    | none => true
  if !passes then o
  else
    match o.logging with
    | .console => { o with lines := o.lines ++ [r.consoleLine] }
    | .files filter router =>
      if filter.admits r.target r.level then
        let (_, router, files) := router.write time o.written r.target (r.fileLine time) o.files
        { o with logging := .files filter router, files, written := o.written + 1 }
      else o

end Logging
end SequencerHub
