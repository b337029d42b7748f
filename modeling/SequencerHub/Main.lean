import SequencerHub.Http.Head
import SequencerHub.Log.Calendar
import SequencerHub.Server.Program
import SequencerHub.Server.Serving
import Std.Time.DateTime.Timestamp

/-! The program. Arguments, variables and files go in; texts, files and an exit code come out. A server that has begun
to serve reads requests from standard input, one after the other, and writes the responses to standard output. -/
namespace SequencerHub.Main

def environment : IO (List (String × String)) := do
  let text ← IO.FS.readFile "/proc/self/environ"
  return (text.splitOn "\x00").filterMap fun entry =>
    match entry.toList.span (· != '=') with
    | (_, []) => none
    | (name, _ :: value) => some (String.ofList name, String.ofList value)

def entryAt? (path : String) : IO (Option FileEntry) := do
  try
    return some (.file (← IO.FS.readFile path))
  catch _ =>
    try
      let _ ← IO.FS.realPath (path ++ "/.")
      return some .directory
    catch _ => return none

def pathOf (names : List (List Char)) : String :=
  "/" ++ "/".intercalate (names.map String.ofList)

def survey (files : FileTree) (path : String) : IO FileTree := do
  let names := Path.steps path.toList
  let absolute := Path.isAbsolute path.toList
  (List.range names.length).foldlM (fun files n => do
    let names := names.take (n + 1)
    let place := if absolute then pathOf names else "/".intercalate (names.map String.ofList)
    match ← entryAt? place with
    | some e => return files.put names e
    | none => return files) files

def store (before after : FileTree) : IO Unit :=
  after.entries.forM fun (names, e) => do
    if before.entry? names ≠ some e then
      match e with
      | .directory => IO.FS.createDirAll (pathOf names)
      | .file text => IO.FS.writeFile (pathOf names) text

/-- Identifiers from random octets, marked as such. -/
def identifiers (seed : ByteArray) (n : Nat) : SequencerId :=
  let value := seed.toList.foldl (fun v b => 256 * v + b.toNat) 0 + n
  let low := value % (1 <<< 62)
  let high := (value >>> 62) % (1 <<< 60)
  .ofNat (((high >>> 12) <<< 80) + (4 <<< 76) + ((high % (1 <<< 12)) <<< 64) + (2 <<< 62) + low)

structure State where
  serving : Server.Serving
  output : Logging.Output
  filter : Option LogFilter
  logged : Nat := 0

def logEvents (s : State) : IO State := do
  let now := (← Std.Time.Timestamp.now).val
  let time := Calendar.text now.second.val.toNat now.nano.val.toNat
  let output := (s.serving.hub.ledger.log.drop s.logged).foldl (fun o e => o.log s.filter time e.record)
    s.output
  store s.output.files output.files
  output.lines.forM fun line => IO.eprintln s!"{time} {line}"
  return { s with output := { output with lines := [] }, logged := s.serving.hub.ledger.log.length }

partial def readHead (input : IO.FS.Stream) (lines : List String) : IO (List String) := do
  let line ← input.getLine
  let text := line.trimAsciiEnd.toString
  if text.isEmpty then return lines.reverse else readHead input (text :: lines)

partial def readBody (input : IO.FS.Stream) (size : Nat) (body : ByteArray) : IO ByteArray := do
  if size ≤ body.size then return body
  let more ← input.read (USize.ofNat (size - body.size))
  if more.isEmpty then return body else readBody input size (body ++ more)

def writeResponse (output : IO.FS.Stream) (r : HttpResponse) : IO Unit := do
  output.putStr (Http.headOf r)
  output.write ⟨r.body.toArray⟩
  output.flush

partial def serve (input output : IO.FS.Stream) (s : State) : IO State := do
  match Http.requestOfHead? (← readHead input []) with
  | none => return { s with serving := s.serving.step .signal }
  | some head =>
    let body ← readBody input (Http.bodySize head) ByteArray.empty
    let serving := s.serving.step (.request { head with body := body.toList })
    serving.responses.forM fun (_, r) => writeResponse output r
    let s ← logEvents { s with serving := { serving with responses := [] } }
    if s.serving.isDone then return s else serve input output s

def finish (e : Server.Exit) : IO UInt32 := do
  IO.print e.output
  unless e.failure.isEmpty do IO.eprintln (Server.Exit.report e.failure)
  return UInt32.ofNat e.code

/-- Runs the program on what is known of the files, and again for the files that it comes to touch. -/
def settle (words : List String) (env : List (String × String)) (l : Ledger) :
    IO (FileTree × FileTree × Server.Outcome) := do
  let config := (Server.Invocation.read words).toOption.bind (·.config)
  let before ← config.toList.foldlM survey {}
  let (touched, _) := Server.run words env before [] l
  let before ← touched.entries.foldlM (fun files x => survey files (pathOf x.1)) before
  let (after, outcome) := Server.run words env before [] l
  return (before, after, outcome)

end SequencerHub.Main

open SequencerHub in
def main (args : List String) : IO UInt32 := do
  let env ← Main.environment
  let ledger : Ledger := { supply := Main.identifiers (← IO.getRandomBytes 16) }
  let (before, after, outcome) ← Main.settle ("mobject-server" :: args) env ledger
  Main.store before after
  match outcome with
  | .exited e => Main.finish e
  | .serving host settings ledger =>
    let filter := (Settings.valueOf? env Directive.environmentName).bind Directive.filter?
    let (files, logging) := Logging.start (settings.logging.getD []) settings.server.homeDir after
    match logging with
    | .error _ => Main.finish .panicked
    | .ok logging =>
      let hub := Hub.listen { hosts := [host], ledger } 0 (Server.bindAddress settings)
      let s ← Main.logEvents { serving := { hub, host := 0 }, output := { logging, files }, filter }
      let s ← Main.serve (← IO.getStdin) (← IO.getStdout) s
      let _ ← Main.logEvents { s with serving := { s.serving with hub := s.serving.finish.1 } }
      return 0
