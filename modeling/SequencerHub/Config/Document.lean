import SequencerHub.Config.Settings
import SequencerHub.Yaml.Printer

/-! Settings as a YAML document. -/
namespace SequencerHub

open Yaml (Value)

def ServerSettings.toYaml (s : ServerSettings) : Value :=
  .map [("home_dir", .text s.homeDir), ("host", .text s.host), ("port", .number s.port.toNat)]

def LogSection.toYaml (s : LogSection) : Value :=
  let count (n : Option Nat) : Value := match n with
    | some n => .number n
    | none => .null
  .map [("console_level", .text s.consoleLevel), ("file", .text s.file),
    ("file_level", .text s.fileLevel), ("max_age_days", count (s.maxAgeDays.map UInt32.toNat)),
    ("max_backups", count (s.maxBackups.map UInt64.toNat)),
    ("max_size_mb", count (s.maxSizeMb.map UInt64.toNat))]

def ProviderOptions.toYaml (o : ProviderOptions) : Value :=
  .map [("provider_id", .number o.providerId.toNat), ("token", .text o.token),
    ("teardown", .text o.teardown.name)]

namespace Settings

def toYaml (s : Settings) : Value :=
  let logging := match s.logging with
    | some sections => .map (sections.map fun (name, sec) => (name, sec.toYaml))
    | none => .null
  .map [("server", s.server.toYaml), ("logging", logging),
    ("providers", .list (s.providers.map ProviderOptions.toYaml))]

def render (s : Settings) : String := Yaml.render s.toYaml

end Settings
end SequencerHub
