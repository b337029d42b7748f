import SequencerHub.Backend.Dummy
import SequencerHub.CommandLine.Parser
import SequencerHub.Config.Settings

/-! The commands of the server's program. -/
namespace SequencerHub.Server

open CommandLine (CommandSpec Matches OptionSpec UsageError)

inductive AdminAction
  | construct (how : Construction) (sequencerType config : String)
  | close (id : SequencerId)
  | destroy (id : SequencerId)
  | shutdown

structure AdminCommand where
  address : String
  providerId : UInt16
  token : String
  action : AdminAction

inductive Command
  | run
  | check
  | admin (a : AdminCommand)

structure Invocation where
  config : Option String
  port : Option UInt16
  printConfig : Bool
  verbosity : Nat
  command : Option Command

namespace Command

def helpOption : OptionSpec := ⟨"help", some 'h', .help, false⟩

def plain (name : String) : CommandSpec := .mk name [helpOption] none [] false

def constructSpec (name : String) : CommandSpec :=
  .mk name [⟨"type", none, .value .text, false⟩, ⟨"config", none, .value .text, false⟩, helpOption]
    none [] false

def idSpec (name : String) : CommandSpec := .mk name [helpOption] (some ("id", .identifier)) [] false

def adminSpec : CommandSpec :=
  .mk "admin"
    [⟨"address", none, .value .text, true⟩, ⟨"provider-id", none, .value .word, false⟩,
      ⟨"token", none, .value .text, false⟩, helpOption]
    none
    [constructSpec "create", constructSpec "open", idSpec "close", idSpec "destroy", plain "shutdown"]
    true

def spec : CommandSpec :=
  .mk "mobject-server"
    [⟨"config", some 'c', .value .path, false⟩, ⟨"port", some 'p', .value .word, false⟩,
      ⟨"print-config", none, .flag, false⟩, ⟨"verbose", some 'v', .count, false⟩, helpOption,
      ⟨"version", some 'V', .version, false⟩]
    none [plain "run", plain "check", adminSpec] false

def versionText : String := "mobject-server 0.1.0\n"

def id? (m : Matches) : Option SequencerId :=
  (m.value? "id").bind fun t => (SequencerId.ofText t).toOption

def action? : String × Matches → Option AdminAction
  | ("create", m) =>
    some (.construct .create ((m.value? "type").getD Dummy.typeName) ((m.value? "config").getD "\x7b\x7d"))
  | ("open", m) =>
    some (.construct .attach ((m.value? "type").getD Dummy.typeName) ((m.value? "config").getD "\x7b\x7d"))
  | ("close", m) => (id? m).map .close
  | ("destroy", m) => (id? m).map .destroy
  | ("shutdown", _) => some .shutdown
  | _ => none

def command? : String × Matches → Option Command
  | ("run", _) => some .run
  | ("check", _) => some .check
  | ("admin", m) => do
    let action ← m.sub?.bind action?
    some (.admin ⟨(m.value? "address").getD "",
      ((m.value? "provider-id").bind CommandLine.word?).getD 0, (m.value? "token").getD "", action⟩)
  | _ => none

end Command

namespace Invocation

def read (words : List String) : Except UsageError Invocation :=
  match CommandLine.read Command.spec words with
  | .error e => .error e
  | .ok m =>
    .ok ⟨m.value? "config", (m.value? "port").bind CommandLine.word?, 0 < m.count "print-config",
      m.count "verbose", m.sub?.bind Command.command?⟩

def overrides (i : Invocation) : Overrides := ⟨i.port, i.verbosity⟩

end Invocation
end SequencerHub.Server
