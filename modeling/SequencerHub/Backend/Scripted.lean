import SequencerHub.Backend.Basic
import SequencerHub.Json.Printer

/-! A backend for trials: its configuration says what every call does. -/
namespace SequencerHub.Scripted

/-- What a text, `true` or anything else makes a panic carry. -/
def panicOf : Json → Panic
  | .string s => .text s
  | .bool true => .text "static panic"
  | _ => .opaqueValue

def messageOf : Json → String
  | .string s => s
  | j => j.render

/-- The error of a message or of a list of messages, outermost first. -/
def chainOf : Json → ErrorChain
  | .array [] => ⟨"", []⟩
  | .array (outer :: causes) => ⟨messageOf outer, causes.map messageOf⟩
  | j => ⟨messageOf j, []⟩

/-- Ends as the settings `panic` and `fail` of a call say, else with the given outcome. -/
def ending {α : Type} (settings : Json) (otherwise : Outcome α) : Outcome α :=
  match settings.get? "panic", settings.get? "fail" with
  | some p, _ => .panicked (panicOf p)
  | none, some f => .failed (chainOf f)
  | none, none => otherwise

def settings (config : Json) (call : String) : Json := (config.get? call).getD (.object [])

def label (config : Json) : String := ((config.get? "label").bind Json.string?).getD "seq"

def gate (s : Json) : List Act :=
  match (s.get? "gate").bind Json.string? with
  | some g => [.await g]
  | none => []

def note (entry : List Json) : Effect := .note (.array entry)

def sum (config : Json) (x y : Int32) : Outcome Int32 :=
  match (config.get? "sum").bind Json.string? with
  | some "wrapping" => .ok (x + y)
  | some "saturating" =>
    let s := x.toInt + y.toInt
    .ok (Int32.ofInt (max (-0x80000000) (min 0x7fffffff s)))
  | _ =>
    match checkedSum x y with
    | some s => .ok s
    | none => .failed ⟨s!"overflow adding {x.toInt} and {y.toInt}", []⟩

def backend (config : Json) : Backend where
  sayHello := fun _ =>
    let s := settings config "hello"
    ⟨[note [.string "hello", .string (label config)]], (s.get? "panic").map panicOf⟩
  computeSum := fun _ x y =>
    let s := settings config "sum"
    ⟨gate s ++ [.effect (note [.string "sum", .string (label config), .ofInt32 x, .ofInt32 y])],
      ending s (sum config x y)⟩
  destroy := fun _ =>
    let s := settings config "destroy"
    let waiting := match gate s with
      | [] => []
      | g => g ++ [.effect (note [.string "destroyed", .string (label config)])]
    ⟨.effect (note [.string "destroy", .string (label config)]) :: waiting,
      ending s (.ok (((config.get? "destroy").bind Json.bool?).getD true))⟩

def verb : Construction → String
  | .create => "create"
  | .attach => "open"

/-- Notes its arguments; the configuration can make it panic or fail. -/
def constructor (tag : String) (how : Construction) : Constructor := fun _ args =>
  let entry := note [.string (verb how), .string tag, .ofUInt16 args.providerId, args.config]
  ⟨[entry],
    match args.config.get? ("panic_" ++ verb how), args.config.get? ("fail_" ++ verb how) with
    | some p, _ => .panicked (panicOf p)
    | none, some f => .failed (chainOf f)
    | none, none => .ok (backend args.config)⟩

def constructors (tag : String) : Constructors := ⟨constructor tag .create, constructor tag .attach⟩

end SequencerHub.Scripted
