import SequencerHub.Config.Environment
import SequencerHub.Config.HomeDir
import SequencerHub.Config.Settings
import SequencerHub.Decode.Message
import SequencerHub.Yaml.Reader

/-! Loading the settings: built-in defaults, under a YAML file, under the environment. The home directory is made on the
way. -/
namespace SequencerHub

instance : Mark Layer := ⟨id⟩
instance : Mark Yaml.Mark := ⟨id⟩

inductive LoadError
  | document (path : String) (f : Yaml.Fault)
  | root (path : String) (found : Found) (place : Yaml.Mark)
  | extraction (path : String) (e : DecodeError Layer)
  | home (fromDefaults : Bool) (e : HomeDirError)
  | duplicate (d : Settings.DuplicateId)

namespace Setting

mutual

/-- The layer of a document. Text in quotes is text, other text what it stands for. -/
def ofNode : Node Yaml.Mark → Option Setting
  | .scalar v _ _ => some (.scalar v .file)
  | .plain _ v _ _ => some (.scalar v .file)
  | .list _ items => (ofNodeItems items).map (.list · .file)
  | .object _ members => (ofNodeMembers [] members).map (.dict · .file)
  | .broken _ _ _ => none

def ofNodeItems : Items Yaml.Mark → Option (List Setting)
  | .item v rest =>
    match ofNode v, ofNodeItems rest with
    | some s, some more => some (s :: more)
    | _, _ => none
  | .done _ => some []
  | .broken _ _ => none

def ofNodeMembers (sorted : List (String × Setting)) :
    Members Yaml.Mark → Option (List (String × Setting))
  | .member key _ _ v _ rest =>
    match ofNode v with
    | some s => ofNodeMembers (put key s sorted) rest
    | none => none
  | .done _ => some sorted
  | .keyless _ _ _ => none
  | .broken _ _ => none

end

end Setting

namespace Settings

/-- Settings of the lowest layer: no logging. -/
def base : Settings := ⟨{}, none, [{}]⟩

/-- The layer of a file's text; a file that says nothing has no members. -/
def fileLayer (path text : String) : Except LoadError Setting :=
  match Yaml.read .resolved text.toList with
  | .error f => .error (.document path f)
  | .ok document =>
    match document.root with
    | none => .ok (.dict [] .file)
    | some root =>
      match root with
      | .object _ _ =>
        match Setting.ofNode root with
        | some s =>
          if document.more then .error (.document path ⟨.severalDocuments, ⟨0, 0, 0⟩⟩) else .ok s
        | none => .error (.document path ⟨.malformed, ⟨1, 0, 0⟩⟩)
      | .broken _ _ _ => .error (.document path ⟨.malformed, ⟨1, 0, 0⟩⟩)
      | n => .error (.root path n.found.1 n.start)

/-- The settings of all layers together; a missing file sets nothing. -/
def extract (path : String) (text : Option String) (env : List (String × String)) :
    Except LoadError Settings := do
  let defaults := Setting.ofJson .defaults base.toJson
  let file ← match text with
    | some text => fileLayer path text
    | none => .ok (.dict [] .file)
  let merged := (defaults.merge file).merge (Environment.layer env)
  match read .layers merged.toNode with
  | .ok s => .ok s
  | .error e => .error (.extraction path e)

/-- White space at the ends does not make a home directory. -/
def homeGiven? (s : Settings) : Option String :=
  if (Environment.Text.trim s.server.homeDir.toList).isEmpty then none else some s.server.homeDir

/-- Makes the home directory and puts its full path into the settings. -/
def settleHome (home : Option String) (s : Settings) (files : FileTree) :
    FileTree × Except HomeDirError Settings :=
  match HomeDir.resolve home s.homeGiven? ".mobject" true files with
  | (files, .ok path) => (files, .ok { s with server := { s.server with homeDir := path } })
  | (files, .error e) => (files, .error e)

def valueOf? (env : List (String × String)) (name : String) : Option String :=
  (env.find? (·.1 = name)).map (·.2)

/-- Loads from a file and the environment. The directory is made before the providers are checked. -/
def loadFile (path : String) (env : List (String × String)) (files : FileTree) :
    FileTree × Except LoadError Settings :=
  match extract path (files.read? path).toOption env with
  | .error e => (files, .error e)
  | .ok s =>
    match settleHome (valueOf? env HomeDir.homeVariable) s files with
    | (files, .error e) => (files, .error (.home false e))
    | (files, .ok s) =>
      match s.validate with
      | .ok () => (files, .ok s)
      | .error d => (files, .error (.duplicate d))

/-- Loads from the file, if one is given; without one the built-in settings count as they are. -/
def load (path : Option String) (env : List (String × String)) (files : FileTree) :
    FileTree × Except LoadError Settings :=
  match path with
  | some path => loadFile path env files
  | none =>
    match settleHome (valueOf? env HomeDir.homeVariable) fallback files with
    | (files, .ok s) => (files, .ok s)
    | (files, .error e) => (files, .error (.home true e))

end Settings

/-! The words for what went wrong, outermost first. -/

def Scalar.describeSetting : Scalar → String
  | .null => "unit"
  | .bool b => s!"bool {b}"
  | .number (.whole n) => if n.val < 0 then s!"signed int `{n.val}`" else s!"unsigned int `{n.val}`"
  | .number (.float x) =>
    let text := if x.isFinite then String.ofList (plainNumberLayout.write x)
      else if x.toFloat.isNaN then "NaN" else if x.isNegative then "-inf" else "inf"
    s!"float `{text}`"
  | .wide n => if n < 0 then s!"integer `{n}` as i128" else s!"integer `{n}` as u128"
  | .char c => s!"string {Quoted.quote c.toString}"
  | .string s => s!"string {Quoted.quote s}"

def Found.describeSetting : Found → String
  | .scalar s => s.describeSetting
  | .list => "sequence"
  | .object => "map"

def Mismatch.settingMessage : Mismatch → String
  | .wrongType found expected => s!"invalid type: found {found.describeSetting}, expected {expected}"
  | .wrongValue found expected => s!"invalid value {found.describeSetting}, expected {expected}"
  | .wrongLength n expected => s!"invalid length {n}, expected {expected}"
  | .unknownVariant name known => s!"unknown variant: found `{name}`, expected `{oneOf known}`"
  | .unknownField name known => s!"unknown field: found `{name}`, expected `{oneOf known}`"
  | .missingField name => s!"missing field `{name}`"
  | .duplicateField name => s!"duplicate field `{name}`"
  | .notAnId reason => reason

def Scalar.describeRoot : Scalar → String
  | .null => "unit value"
  | .number (.float x) => s!"floating point `{JsonNumber.toText (.float x)}`"
  | s => s.describe

def Found.describeRoot : Found → String
  | .scalar s => s.describeRoot
  | f => f.describe

namespace LoadError

def fileText (path : String) : String := s!" in {path} YAML file"

/-- Places past the start of a document are not told. -/
def elsewhere : String := "YAML syntax error"

def problemText : Yaml.Problem → String
  | .strayCharacter => "found character that cannot start any token, while scanning for the next token"
  | .noNode => "did not find expected node content, while parsing a block node"
  | .noKey => "did not find expected key, while parsing a block mapping"
  | .unknownAnchor => "unknown anchor"
  | .controlCharacter => "control characters are not allowed"
  | .severalDocuments => "deserializing from YAML containing more than one document is not supported"
  | .malformed => elsewhere

def segmentText : Segment → String
  | .key name => name
  | .item i => toString i
  | .unknown => "?"

/-- The key as its layer spells it: in the environment in capitals, in a file below the profile's name. -/
def keyText (layer : Layer) (path : List Segment) : String :=
  let keys := path.map segmentText
  match layer with
  | .environment => (".".intercalate keys).map Char.toUpper
  | _ => ".".intercalate ("default" :: keys)

def layerText (path : String) : Layer → String
  | .environment => s!" in `{Environment.namePrefix}` environment variable(s)"
  | .file => fileText path
  | .defaults => ""

def extractionText (path : String) (e : DecodeError Layer) : String :=
  let text := match e.cause with
    | .mismatch m => m.settingMessage
    | .fault f => f.message
  match e.place with
  | none => text
  | some layer =>
    let key := if e.path.isEmpty then "" else s!" for key \"{keyText layer e.path}\""
    s!"{text}{key}{layerText path layer}"

def chain : LoadError → List String
  | document path f =>
    ["Failed to extract config from figment",
      if f.place.line = 0 ∧ f.place.column = 0 then problemText f.problem ++ fileText path
      else elsewhere]
  | root path found place =>
    ["Failed to extract config from figment",
      if place.line = 0 ∧ place.column = 0 then
        s!"invalid type: {found.describeRoot}, expected a map{fileText path}"
      else elsewhere]
  | extraction path e => ["Failed to extract config from figment", extractionText path e]
  | home fromDefaults e =>
    let outer := if fromDefaults then "Failed to resolve server.home_dir (defaults)"
      else "Failed to resolve server.home_dir"
    let inner := match e with
      | .io io => [io.message]
      | _ => []
    outer :: "home_dir normalization failed" :: e.message :: inner
  | duplicate d => [d.message]

end LoadError
end SequencerHub
