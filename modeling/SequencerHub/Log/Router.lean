import SequencerHub.Log.Filter
import SequencerHub.Log.Rotation

/-! Log files by target. A file belongs to a section; the section's name is a module path, and the file takes the events
of that module and of all modules inside it. -/
namespace SequencerHub

/-- A target belongs to a module if it is the module or lies inside it. -/
def belongsTo (target path : String) : Bool :=
  target = path || (path.toList ++ [':', ':']).isPrefixOf target.toList

/-- The path of a log file; a relative one starts at the base directory. -/
def logPath (file base : String) : String := Path.join base file

structure LogRouter where
  /-- For targets that belong to no section with a file of its own. -/
  fallback : Option RotatingFile := none
  named : List (String × RotatingFile) := []

namespace LogRouter

/-- The first file whose section the target belongs to, by its section's name, or else the fallback. -/
def route? (r : LogRouter) (target : String) : Option (Option String × RotatingFile) :=
  match r.named.find? fun x => belongsTo target x.1 with
  | some (name, f) => some (some name, f)
  | none => r.fallback.map fun f => (none, f)

def isEmpty (r : LogRouter) : Bool := r.fallback.isNone && r.named.isEmpty

def addSection (base name : String) (s : LogSection) (r : LogRouter) (files : FileTree) :
    FileTree × Except RotationError LogRouter :=
  if !s.hasFile then (files, .ok r)
  else
    match RotatingFile.openFor s (logPath s.file base) files with
    | (files, .ok f) =>
      (files, .ok (if name = LogSections.defaultName then { r with fallback := some f }
        else { r with named := r.named ++ [(name, f)] }))
    | (files, .error (.io _)) => (files, .ok r)
    | (files, .error .noLimit) => (files, .error .noLimit)

/-- Opens the files of the sections, in the given order. A section whose file cannot be opened is left
out. -/
def openAll (base : String) : LogSections → LogRouter → FileTree →
    FileTree × Except RotationError LogRouter
  | [], r, files => (files, .ok r)
  | (name, s) :: more, r, files =>
    match addSection base name s r files with
    | (files, .ok r) => openAll base more r files
    | (files, .error e) => (files, .error e)

def ofSections (base : String) (sections : LogSections) (files : FileTree) :
    FileTree × Except RotationError LogRouter := openAll base sections {} files

def replace (name : Option String) (f : RotatingFile) (r : LogRouter) : LogRouter :=
  match name with
  | none => { r with fallback := some f }
  | some name => { r with named := r.named.map fun x => if x.1 = name then (name, f) else x }

/-- Writes a record to the file of its target; the answer says whether there is one. -/
def write (time : String) (nth : Nat) (target text : String) (r : LogRouter) (files : FileTree) :
    Bool × LogRouter × FileTree :=
  match r.route? target with
  | none => (false, r, files)
  | some (name, f) =>
    let (f, files) := f.write time nth text files
    (true, r.replace name f, files)

end LogRouter
end SequencerHub
