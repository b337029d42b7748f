import SequencerHub.Files.Path
import SequencerHub.Text.Position

/-! A tree of directories and text files, and the operations on it that a program sees: making directories, reading and
writing files. -/
namespace SequencerHub

inductive FileEntry
  | directory
  | file (text : String)
  deriving DecidableEq

/-- What stands below the root, by the names on the way to it. The root itself is a directory. -/
structure FileTree where
  entries : List (List (List Char) × FileEntry) := []

inductive FileError
  | notFound
  | exists
  | notDirectory
  | isDirectory
  | nameTooLong
  | nulCharacter
  deriving DecidableEq, Repr

def FileError.message : FileError → String
  | .notFound => "No such file or directory (os error 2)"
  | .exists => "File exists (os error 17)"
  | .notDirectory => "Not a directory (os error 20)"
  | .isDirectory => "Is a directory (os error 21)"
  | .nameTooLong => "File name too long (os error 36)"
  | .nulCharacter => "file name contained an unexpected NUL byte"

namespace FileTree

def entry? (t : FileTree) (names : List (List Char)) : Option FileEntry :=
  if names.isEmpty then some .directory else (t.entries.find? (·.1 = names)).map (·.2)

def put (t : FileTree) (names : List (List Char)) (e : FileEntry) : FileTree :=
  ⟨(t.entries.filter fun x => x.1 ≠ names) ++ [(names, e)]⟩

/-- A name of more than 255 bytes is refused. -/
def isTooLong (name : List Char) : Bool := 255 < byteLength name

/-- A path is refused whatever there is if a character in it would end it, or if it has more than 4095 bytes. -/
def checkPath (path : List Char) : Except FileError Unit :=
  if '\x00' ∈ path then .error .nulCharacter
  else if 4095 < byteLength path then .error .nameTooLong
  else .ok ()

/-- Follows names from a directory down, or up where the name is two dots. -/
def walk (t : FileTree) : List (List Char) → List (List Char) → Except FileError (List (List Char))
  | here, [] => .ok here
  | here, name :: more =>
    match t.entry? here with
    | none => .error .notFound
    | some (.file _) => .error .notDirectory
    | some .directory =>
      if name = ['.'] then walk t here more
      else if name = ['.', '.'] then walk t here.dropLast more
      else if isTooLong name then .error .nameTooLong
      else walk t (here ++ [name]) more

def stat (t : FileTree) (path : List Char) : Except FileError (List (List Char) × FileEntry) := do
  checkPath path
  let names ← t.walk [] (Path.steps path)
  match t.entry? names with
  | none => .error .notFound
  | some (.file x) =>
    if path.getLast? = some '/' then .error .notDirectory else .ok (names, .file x)
  | some .directory => .ok (names, .directory)

def isDirectory (t : FileTree) (path : List Char) : Bool :=
  match t.stat path with
  | .ok (_, .directory) => true
  | _ => false

/-- Makes one directory, whose parent has to be there. -/
def makeDirectory (t : FileTree) (path : List Char) : Except FileError FileTree := do
  checkPath path
  let steps := Path.steps path
  match steps.getLast? with
  | none => .error (if path.isEmpty then .notFound else .exists)
  | some last =>
    let above ← t.walk [] steps.dropLast
    match t.entry? above with
    | none => .error .notFound
    | some (.file _) => .error .notDirectory
    | some .directory =>
      if last = ['.'] ∨ last = ['.', '.'] then .error .exists
      else if isTooLong last then .error .nameTooLong
      else
        match t.entry? (above ++ [last]) with
        | some _ => .error .exists
        | none => .ok (t.put (above ++ [last]) .directory)

/-- Makes a directory with all that is missing above it. What was made before a refusal stays. -/
def makeDirectories : Nat → FileTree → List Char → FileTree × Except FileError Unit
  | 0, t, _ => (t, .error .notFound)
  | fuel + 1, t, path =>
    if path.isEmpty then (t, .ok ())
    else
      match t.makeDirectory path with
      | .ok t => (t, .ok ())
      | .error .notFound =>
        match Path.parent? path with
        | none => (t, .error .notFound)
        | some above =>
          match makeDirectories fuel t above with
          | (t, .error e) => (t, .error e)
          | (t, .ok ()) =>
            match t.makeDirectory path with
            | .ok t => (t, .ok ())
            | .error e => (t, if t.isDirectory path then .ok () else .error e)
      | .error e => (t, if t.isDirectory path then .ok () else .error e)

def createAll (t : FileTree) (path : String) : FileTree × Except FileError Unit :=
  makeDirectories (path.length + 1) t path.toList

def read? (t : FileTree) (path : String) : Except FileError String := do
  match ← t.stat path.toList with
  | (_, .file text) => .ok text
  | (_, .directory) => .error .isDirectory

def fileNames (t : FileTree) (path : String) : Except FileError (List (List Char)) := do
  checkPath path.toList
  let names ← t.walk [] (Path.steps path.toList)
  match t.entry? names.dropLast, t.entry? names with
  | some .directory, some .directory => .error .isDirectory
  | some .directory, _ => if path.toList.getLast? = some '/' then .error .isDirectory else .ok names
  | some (.file _), _ => .error .notDirectory
  | none, _ => .error .notFound

def write (t : FileTree) (path : String) (text : String) : Except FileError FileTree := do
  let names ← t.fileNames path
  .ok (t.put names (.file text))

def remove (t : FileTree) (path : String) : FileTree :=
  match t.stat path.toList with
  | .ok (names, .file _) => ⟨t.entries.filter fun x => x.1 ≠ names⟩
  | _ => t

end FileTree
end SequencerHub
