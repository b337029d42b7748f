import SequencerHub.Files.Tree

/-! The directory where the server keeps its logs and its backends' state. -/
namespace SequencerHub

inductive HomeDirError
  | unset (name : String)
  | notAbsolute (path : String)
  | io (e : FileError)
  deriving DecidableEq

def HomeDirError.message : HomeDirError → String
  | .unset v => s!"{v} environment variable is not set"
  | .notAbsolute p => s!"home_dir must be an absolute path (after ~ expansion): {p}"
  | .io e => s!"IO error: {e.message}"

namespace HomeDir

def homeVariable : String := "HOME"

/-- What stands behind a leading tilde and its slash, in either direction. -/
def behindTilde? : List Char → Option (List Char)
  | '~' :: '/' :: rest => some rest
  | '~' :: '\\' :: rest => some rest
  | _ => none

def expandTilde (home : Option String) (raw : String) : Except HomeDirError String :=
  let user : Except HomeDirError String :=
    match home with
    | some h => .ok h
    | none => .error (.unset homeVariable)
  if raw = "~" then user
  else
    match behindTilde? raw.toList with
    | some rest => (Path.join · (String.ofList rest)) <$> user
    | none => .ok raw

/-- The path of the directory: the configured one, which has to be absolute, or the given one below the
user's directory. -/
def locate (home : Option String) (configured : Option String) (subdirectory : String) :
    Except HomeDirError String :=
  match configured with
  | some raw =>
    match expandTilde home raw with
    | .error e => .error e
    | .ok path => if Path.isAbsolute path.toList then .ok path else .error (.notAbsolute path)
  | none =>
    match home with
    | some h => .ok (Path.join h subdirectory)
    | none => .error (.unset homeVariable)

def resolve (home : Option String) (configured : Option String) (subdirectory : String)
    (create : Bool) (files : FileTree) : FileTree × Except HomeDirError String :=
  match locate home configured subdirectory with
  | .error e => (files, .error e)
  | .ok path =>
    if create then
      match files.createAll path with
      | (files, .ok ()) => (files, .ok path)
      | (files, .error e) => (files, .error (.io e))
    else (files, .ok path)

end HomeDir
end SequencerHub
