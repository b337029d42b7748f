import SequencerHub.CommandLine.Grammar
import SequencerHub.SequencerId.Parser

/-! Reading a command line. The value of an option is checked when the next option, value or the end of the command is
reached, so that a fault in what follows a subcommand's name is found before one in the value in front of it. -/
namespace SequencerHub.CommandLine

def integer? (s : String) : Option Int :=
  let magnitude (cs : List Char) : Option Nat :=
    if cs.isEmpty || !cs.all Char.isDigit then none
    else some (cs.foldl (fun n c => 10 * n + (c.toNat - '0'.toNat)) 0)
  let n := match s.toList with
    | '+' :: r => (magnitude r).map fun n => (n : Int)
    | '-' :: r => (magnitude r).map fun n => -(n : Int)
    | r => (magnitude r).map fun n => (n : Int)
  n.filter fun n => -0x8000000000000000 ≤ n && n < 0x8000000000000000

def word? (s : String) : Option UInt16 :=
  (integer? s).bind fun n => if 0 ≤ n ∧ n < 0x10000 then some (UInt16.ofNat n.toNat) else none

def ValueKind.fault? (k : ValueKind) (v : String) : Option UsageError :=
  match k with
  | .text => none
  | .path => if v = "" then some .invalidValue else none
  | .word => if (word? v).isSome then none else some .valueValidation
  | .identifier => if (SequencerId.ofText v).isOk then none else some .valueValidation

structure Pending where
  key : String
  kind : ValueKind
  value : Option String

structure Progress where
  values : List (String × String) := []
  counts : List (String × Nat) := []
  pending : Option Pending := none
  /-- Behind two hyphens everything is a value. -/
  trailing : Bool := false
  operandTaken : Bool := false

namespace Progress

def awaits (p : Progress) : Bool :=
  match p.pending with
  | some ⟨_, _, none⟩ => true
  | _ => false

def settle (p : Progress) : Except UsageError Progress :=
  match p.pending with
  | none => .ok p
  | some ⟨_, _, none⟩ => .error .invalidValue
  | some ⟨key, kind, some v⟩ =>
    if p.values.any (·.1 = key) then .error .argumentConflict
    else
      match kind.fault? v with
      | some e => .error e
      | none => .ok { p with values := p.values ++ [(key, v)], pending := none }

def take (p : Progress) (o : OptionSpec) (attached : Option String) : Except UsageError Progress :=
  match o.kind, attached with
  | .value kind, some v => do
    let p ← p.settle
    settle { p with pending := some ⟨o.long, kind, some v⟩ }
  | .value kind, none => do
    let p ← p.settle
    .ok { p with pending := some ⟨o.long, kind, none⟩ }
  | _, some _ => .error .tooManyValues
  | .flag, none => do
    let p ← p.settle
    if p.counts.any (·.1 = o.long) then .error .argumentConflict
    else .ok { p with counts := p.counts ++ [(o.long, 1)] }
  | .count, none => do
    let p ← p.settle
    let n := ((p.counts.find? (·.1 = o.long)).map (·.2)).getD 0
    .ok { p with counts := p.counts.filter (·.1 ≠ o.long) ++ [(o.long, min 255 (n + 1))] }
  | .help, none => do
    let _ ← p.settle
    .error .showHelp
  | .version, none => do
    let _ ← p.settle
    .error .showVersion

/-- Takes short options that stand together; behind one that has a value everything is the value. -/
def takeShort (c : CommandSpec) (p : Progress) : List Char → Except UsageError Progress
  | [] => .ok p
  | letter :: more =>
    match c.options.find? (·.short = some letter) with
    | none => .error .unknownArgument
    | some o =>
      match o.kind with
      | .value _ =>
        match more with
        | [] => p.take o none
        | '=' :: v => p.take o (some (String.ofList v))
        | v => p.take o (some (String.ofList v))
      | _ => do
        let p ← p.take o none
        takeShort c p more

def takeLong (c : CommandSpec) (p : Progress) (text : List Char) : Except UsageError Progress :=
  let (name, value) := text.span (· != '=')
  match c.options.find? (·.long = String.ofList name) with
  | none => .error .unknownArgument
  | some o =>
    match value with
    | [] => p.take o none
    | _ :: v => p.take o (some (String.ofList v))

def takeOperand (c : CommandSpec) (p : Progress) (arg : String) : Except UsageError Progress :=
  match c.operand, p.operandTaken with
  | some (key, kind), false => do
    let p ← p.settle
    .ok { p with pending := some ⟨key, kind, some arg⟩, operandTaken := true }
  | operand, _ =>
    if p.trailing && c.isSubcommandWord arg then .error .unknownArgument
    else if !c.subcommands.isEmpty && operand.isNone then .error .invalidSubcommand
    else .error .unknownArgument

def takeArgument (c : CommandSpec) (p : Progress) (arg : String) : Except UsageError Progress :=
  if p.trailing then p.takeOperand c arg
  else
    match arg.toList with
    | ['-', '-'] => .ok { p with trailing := true }
    | '-' :: '-' :: name => p.takeLong c name
    | '-' :: letter :: more => p.takeShort c (letter :: more)
    | _ =>
      match p.pending with
      | some ⟨key, kind, none⟩ => .ok { p with pending := some ⟨key, kind, some arg⟩ }
      | _ => p.takeOperand c arg

def finish (c : CommandSpec) (p : Progress) (sub : Option (String × Matches)) :
    Except UsageError Matches := do
  let p ← p.settle
  let missing := c.options.any fun o => o.required && !p.values.any (·.1 = o.long)
  let operandMissing := match c.operand with
    | some (key, _) => !p.values.any (·.1 = key)
    | none => false
  if sub.isNone && c.needsSubcommand then
    if p.values.isEmpty && p.counts.isEmpty then .error .nothingGiven else .error .missingSubcommand
  else if missing || operandMissing then .error .missingRequired
  else .ok (.mk p.values p.counts sub)

end Progress

def helpWith : CommandSpec → List String → UsageError
  | _, [] => .showHelp
  | c, name :: more =>
    match c.subcommand? name with
    | some sub => helpWith sub more
    | none => if c.isSubcommandWord name && more.isEmpty then .showHelp else .invalidSubcommand

def readArguments (c : CommandSpec) (p : Progress) : List String → Except UsageError Matches
  | [] => p.finish c none
  | arg :: more =>
    if !p.trailing && !p.awaits && c.isSubcommandWord arg then
      match c.subcommand? arg with
      | none => .error (helpWith c more)
      | some sub =>
        match readArguments sub {} more with
        | .error e => .error e
        | .ok m => p.finish c (some (arg, m))
    else
      match p.takeArgument c arg with
      | .error e => .error e
      | .ok p => readArguments c p more

def read (c : CommandSpec) (words : List String) : Except UsageError Matches :=
  readArguments c {} words.tail

end SequencerHub.CommandLine
