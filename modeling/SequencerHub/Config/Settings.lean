import SequencerHub.Provider.Options

/-! The settings of a server: where it listens, what it logs and which providers it hosts. -/
namespace SequencerHub

structure ServerSettings where
  homeDir : String := ""
  host : String := "127.0.0.1"
  port : UInt16 := 8087
  deriving DecidableEq, Inhabited

def ServerSettings.address (s : ServerSettings) : String := s!"http://{s.host}:{s.port.toNat}"

structure LogSection where
  consoleLevel : String
  /-- Path of the log file; blank for none. -/
  file : String
  fileLevel : String
  maxAgeDays : Option UInt32
  maxBackups : Option UInt64
  maxSizeMb : Option UInt64
  deriving DecidableEq, Inhabited

/-- Sections by the subsystem they are for; the one named `default` is for all others. -/
abbrev LogSections := List (String × LogSection)

namespace LogSections

def find? (sections : LogSections) (name : String) : Option LogSection :=
  (List.find? (·.1 = name) sections).map (·.2)

/-- Sections in the order of their names; of several under one name the last counts. -/
def insert (name : String) (s : LogSection) : LogSections → LogSections
  | [] => [(name, s)]
  | (n, t) :: more =>
    if name < n then (name, s) :: (n, t) :: more
    else if name = n then (name, s) :: more
    else (n, t) :: insert name s more

def ofList (sections : List (String × LogSection)) : LogSections :=
  sections.foldl (fun sorted (n, s) => insert n s sorted) []

end LogSections

structure Settings where
  server : ServerSettings
  logging : Option LogSections
  providers : List ProviderOptions
  deriving DecidableEq, Inhabited

/-- The section that stands in when logging is asked for and nothing is said about it. -/
def LogSections.fallback : LogSections :=
  [("default", ⟨"info", "logs/mobject.log", "debug", some 7, some 3, some 100⟩)]

/-- The settings without a file and without overrides. -/
def Settings.fallback : Settings := ⟨{}, some LogSections.fallback, [{}]⟩

variable {μ : Type} [Mark μ]

namespace ServerSettings

structure Draft where
  homeDir : Option String := none
  host : Option String := none
  port : Option UInt16 := none

def shape : RecordShape μ Draft where
  title := "struct ServerConfig"
  fields := [
    { name := "home_dir", presence := .required, given := (·.homeDir.isSome)
      read := fun n d => do
        let v ← n.string
        .ok { d with homeDir := some v } },
    { name := "host", presence := .required, given := (·.host.isSome)
      read := fun n d => do
        let v ← n.string
        .ok { d with host := some v } },
    { name := "port", presence := .required, given := (·.port.isSome)
      read := fun n d => do
        let v ← n.uint16
        .ok { d with port := some v } }]
  closed := true

def build (d : Draft) : Option ServerSettings := do
  some ⟨← d.homeDir, ← d.host, ← d.port⟩

def read (origin : Origin) : Node μ → Decoded μ ServerSettings := shape.read origin {} build

def toJson (s : ServerSettings) : Json :=
  .object [("home_dir", .string s.homeDir), ("host", .string s.host), ("port", .ofUInt16 s.port)]

end ServerSettings

namespace LogSection

structure Draft where
  consoleLevel : Option String := none
  file : Option String := none
  fileLevel : Option String := none
  maxAgeDays : Option (Option UInt32) := none
  maxBackups : Option (Option UInt64) := none
  maxSizeMb : Option (Option UInt64) := none

def shape : RecordShape μ Draft where
  title := "struct Section"
  fields := [
    { name := "console_level", presence := .required, given := (·.consoleLevel.isSome)
      read := fun n d => do
        let v ← n.string
        .ok { d with consoleLevel := some v } },
    { name := "file", presence := .required, given := (·.file.isSome)
      read := fun n d => do
        let v ← n.string
        .ok { d with file := some v } },
    { name := "file_level", presence := .defaulted, given := (·.fileLevel.isSome)
      read := fun n d => do
        let v ← n.string
        .ok { d with fileLevel := some v } },
    { name := "max_age_days", presence := .optional, given := (·.maxAgeDays.isSome)
      read := fun n d => do
        let v ← n.option Node.uint32
        .ok { d with maxAgeDays := some v } },
    { name := "max_backups", presence := .defaulted, given := (·.maxBackups.isSome)
      read := fun n d => do
        let v ← n.option (Node.uint64 "usize")
        .ok { d with maxBackups := some v } },
    { name := "max_size_mb", presence := .defaulted, given := (·.maxSizeMb.isSome)
      read := fun n d => do
        let v ← n.option (Node.uint64 "u64")
        .ok { d with maxSizeMb := some v } }]
  closed := false

def build (d : Draft) : Option LogSection := do
  some ⟨← d.consoleLevel, ← d.file, d.fileLevel.getD "", d.maxAgeDays.getD none,
    d.maxBackups.getD none, d.maxSizeMb.getD none⟩

def read (origin : Origin) : Node μ → Decoded μ LogSection := shape.read origin {} build

def toJson (s : LogSection) : Json :=
  .object [("console_level", .string s.consoleLevel), ("file", .string s.file),
    ("file_level", .string s.fileLevel),
    ("max_age_days", .ofOption (s.maxAgeDays.map fun n => .number (.whole (.ofUInt32 n)))),
    ("max_backups", .ofOption (s.maxBackups.map fun n => .number (.whole (.ofUInt64 n)))),
    ("max_size_mb", .ofOption (s.maxSizeMb.map fun n => .number (.whole (.ofUInt64 n))))]

end LogSection

namespace LogSections

def read (origin : Origin) (n : Node μ) : Decoded μ LogSections :=
  ofList <$> n.mapOf (LogSection.read origin)

def toJson (sections : LogSections) : Json :=
  .object (sections.map fun (name, s) => (name, s.toJson))

end LogSections

namespace Settings

structure Draft where
  server : Option ServerSettings := none
  logging : Option (Option LogSections) := none
  providers : Option (List ProviderOptions) := none

def shape (origin : Origin) : RecordShape μ Draft where
  title := "struct AppConfig"
  fields := [
    { name := "server", presence := .required, given := (·.server.isSome)
      read := fun n d => do
        let v ← ServerSettings.read origin n
        .ok { d with server := some v } },
    { name := "logging", presence := .optional, given := (·.logging.isSome)
      read := fun n d => do
        let v ← n.option (LogSections.read origin)
        .ok { d with logging := some v } },
    { name := "providers", presence := .defaulted, given := (·.providers.isSome)
      read := fun n d => do
        let v ← n.listOf (ProviderOptions.read origin)
        .ok { d with providers := some v } }]
  closed := true

/-- Without a list of providers there is one with default options. -/
def build (d : Draft) : Option Settings := do
  some ⟨← d.server, d.logging.getD none, d.providers.getD [{}]⟩

def read (origin : Origin) : Node μ → Decoded μ Settings := (shape origin).read origin {} build

def toJson (s : Settings) : Json :=
  .object [("server", s.server.toJson), ("logging", .ofOption (s.logging.map LogSections.toJson)),
    ("providers", .array (s.providers.map ProviderOptions.toJson))]

/-- The id of the first provider whose id occurred earlier in the list. -/
def firstRepeated? : List UInt16 → List UInt16 → Option UInt16
  | _, [] => none
  | seen, id :: more => if seen.contains id then some id else firstRepeated? (id :: seen) more

structure DuplicateId where
  id : UInt16

def DuplicateId.message (d : DuplicateId) : String :=
  s!"duplicate provider_id {d.id.toNat} in providers"

def validate (s : Settings) : Except DuplicateId Unit :=
  match firstRepeated? [] (s.providers.map (·.providerId)) with
  | some id => .error ⟨id⟩
  | none => .ok ()

end Settings

structure Overrides where
  port : Option UInt16 := none
  verbosity : Nat := 0

/-- Overrides the port, and raises the console level of the default section. Logging that was left
out is filled in first. -/
def Settings.override (s : Settings) (o : Overrides) : Settings :=
  let server := match o.port with
    | some port => { s.server with port }
    | none => s.server
  let level (sec : LogSection) : LogSection :=
    match o.verbosity with
    | 0 => sec
    | 1 => { sec with consoleLevel := "debug" }
    | _ => { sec with consoleLevel := "trace" }
  let logging := (s.logging.getD .fallback).map fun (name, sec) =>
    (name, if name = "default" then level sec else sec)
  { s with server, logging := some logging }

end SequencerHub
