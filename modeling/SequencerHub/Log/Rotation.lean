import SequencerHub.Config.Settings
import SequencerHub.Files.Tree

/-! Log files that are put aside when they have grown past a threshold. -/
namespace SequencerHub

inductive Retention
  | newest (count : Nat)
  | days (count : Nat)
  deriving DecidableEq

structure RotatingFile where
  path : String
  /-- A file with more bytes is put aside before the next record. -/
  limit : Nat
  retention : Retention
  size : Nat
  /-- Paths of the files put aside, newest first. -/
  aside : List String := []
  deriving DecidableEq

namespace LogSection

def defaultMegabytes : UInt64 := 100

/-- Bytes of a megabyte, as often as the section says, in a word of 64 bits. -/
def byteLimit (s : LogSection) : UInt64 := (s.maxSizeMb.getD defaultMegabytes) * 1024 * 1024

/-- A count of files comes before an age; without either a day counts. -/
def retention (s : LogSection) : Retention :=
  match s.maxBackups with
  | some n => .newest n.toNat
  | none => .days ((s.maxAgeDays.getD 1).toNat)

end LogSection

inductive RotationError
  | io (e : FileError)
  | noLimit
  deriving DecidableEq

def RotationError.message : RotationError → String
  | io e => e.message
  | noLimit => "assertion failed: bytes > 0"

namespace RotatingFile

def openFor (s : LogSection) (path : String) (files : FileTree) :
    FileTree × Except RotationError RotatingFile :=
  let above := match Path.parent? path.toList with
    | some p => String.ofList p
    | none => ""
  match files.createAll above with
  | (files, .error e) => (files, .error (.io e))
  | (files, .ok ()) =>
    if s.byteLimit = 0 then (files, .error .noLimit)
    else
      let text := match files.read? path with
        | .ok text => text
        | .error _ => ""
      let files := match files.write path text with
        | .ok files => files
        | .error _ => files
      (files, .ok ⟨path, s.byteLimit.toNat, s.retention, text.utf8ByteSize, []⟩)

/-- Writes at the end of the file. What cannot be written is lost. -/
def append (path text : String) (files : FileTree) : FileTree :=
  match files.read? path with
  | .ok before => (files.write path (before ++ text)).toOption.getD files
  | .error _ => files

/-- The path for a file put aside at a time; a number tells apart those of one time. -/
def asidePath (path time : String) (nth : Nat) : String :=
  if nth = 0 then s!"{path}.{time}" else s!"{path}.{time}.{nth}"

/-- Puts the file aside, starts a new one and deletes the old ones that are not kept. -/
def rotate (time : String) (nth : Nat) (f : RotatingFile) (files : FileTree) :
    RotatingFile × FileTree :=
  let old := asidePath f.path time nth
  let files := match files.read? f.path with
    | .ok text =>
      match files.write old text with
      | .ok files => (files.write f.path "").toOption.getD files
      | .error _ => files
    | .error _ => files
  let aside := old :: f.aside
  let kept := match f.retention with
    | .newest count => aside.take count
    | .days _ => aside
  let files := (aside.drop kept.length).foldl (fun t p => t.remove p) files
  ({ f with size := 0, aside := kept }, files)

/-- Writes a record, behind a rotation if the file has passed its threshold. -/
def write (time : String) (nth : Nat) (text : String) (f : RotatingFile) (files : FileTree) :
    RotatingFile × FileTree :=
  let (f, files) := if f.limit < f.size then rotate time nth f files else (f, files)
  ({ f with size := f.size + text.utf8ByteSize }, append f.path text files)

end RotatingFile
end SequencerHub
