import SequencerHub.Client.Admin
import SequencerHub.Config.Document
import SequencerHub.Config.Load
import SequencerHub.Log.Setup
import SequencerHub.Server.Assembly
import SequencerHub.Server.Command

/-! What the server's program does: it loads its settings, sets logging up, and then prints, checks, serves or
administers another server. -/
namespace SequencerHub.Server

structure Exit where
  code : Nat
  output : String := ""
  failure : List String := []

inductive Outcome
  | exited (e : Exit)
  | serving (h : Host) (s : Settings) (l : Ledger)

namespace Exit

def success (output : String) : Exit := ⟨0, output, []⟩
def failed (messages : List String) : Exit := ⟨1, "", messages⟩

def panicked : Exit := ⟨101, "", []⟩

def usage (e : CommandLine.UsageError) : Exit :=
  ⟨e.exitCode, if e = .showVersion then Command.versionText else "", []⟩

def indent (margin text : String) : String := ("\n" ++ margin).intercalate (text.splitOn "\n")

def numbered (n : Nat) : List String → List String
  | [] => []
  | cause :: more =>
    ("    " ++ toString n ++ ": " ++ indent "       " cause) :: numbered (n + 1) more

def report (messages : List String) : String :=
  match messages with
  | [] => ""
  | [m] => "Error: " ++ m
  | [m, cause] => "Error: " ++ m ++ "\n\nCaused by:\n    " ++ indent "    " cause
  | m :: causes => "Error: " ++ m ++ "\n\nCaused by:\n" ++ "\n".intercalate (numbered 0 causes)

end Exit

def connectionCauses : List String :=
  ["client error (Connect)", "tcp connect error", "Network is unreachable (os error 101)"]

def callChain (e : CallError) : List String :=
  match e with
  | .transport (.unreachable base url) =>
    e.message :: (TransportError.unreachable base url).reason?.toList ++ connectionCauses
  | .transport (.invalidUrl base f) =>
    [e.message, (TransportError.invalidUrl base f).reason?.getD "", f.message]
  | .transport (.undecodable base) => e.message :: (TransportError.undecodable base).reason?.toList
  | .malformed reason => [e.message, reason]
  | _ => [e.message]

def exitOf {α : Type} (print : α → String) : Outgoing α → Exit
  | some (.ok a) => .success (print a)
  | some (.error e) => .failed (callChain e)
  | none => .panicked

def runAdmin (h : Hub) (a : AdminCommand) : Hub × Exit :=
  match a.action with
  | .construct how sequencerType config =>
    let (h, r) := Admin.construct h how a.address a.providerId sequencerType config a.token
    (h, exitOf (fun id => id.toText ++ "\n") r)
  | .close id =>
    let (h, r) := Admin.close h a.address a.providerId id a.token
    (h, exitOf (fun _ => "") r)
  | .destroy id =>
    let (h, r) := Admin.destroy h a.address a.providerId id a.token
    (h, exitOf (fun b => if b then "true\n" else "false\n") r)
  | .shutdown =>
    let (h, r) := Admin.shutdown h a.address
    (h, exitOf (fun _ => "") (some r))

def bindAddress (s : Settings) : String := s!"{s.server.host}:{s.server.port.toNat}"

/-- Assembles the host and begins to serve, unless somebody listens there already. -/
def beginServing (taken : List String) (s : Settings) (l : Ledger) : Outcome :=
  match host s l with
  | .error e => .exited (.failed (failureChain e))
  | .ok (h, l) =>
    let address := bindAddress s
    if address ∈ taken then
      .exited (.failed [s!"Failed to bind {address}", "Address already in use (os error 98)"])
    else .serving h s l

def check (s : Settings) (l : Ledger) : Exit :=
  match host s l with
  | .error e => .failed (failureChain e)
  | .ok _ => .success ("Configuration is valid\n" ++ s.render ++ "\n")

/-- Runs the program on files and variables; `taken` are the addresses where others listen. -/
def run (words : List String) (env : List (String × String)) (files : FileTree)
    (taken : List String) (l : Ledger) : FileTree × Outcome :=
  match Invocation.read words with
  | .error e => (files, .exited (.usage e))
  | .ok i =>
    match i.command with
    | some (.admin a) => (files, .exited (runAdmin { ledger := l } a).2)
    | command =>
      match Settings.load i.config env files with
      | (files, .error e) => (files, .exited (.failed e.chain))
      | (files, .ok s) =>
        let s := s.override i.overrides
        match Logging.start (s.logging.getD []) s.server.homeDir files with
        | (files, .error _) => (files, .exited .panicked)
        | (files, .ok _) =>
          if i.printConfig then (files, .exited (.success (s.render ++ "\n")))
          else
            match command with
            | some .check => (files, .exited (check s l))
            | _ => (files, beginServing taken s l)

end SequencerHub.Server
