import Gridmark.PathName
import Gridmark.Text.Utf8
/-!
# Directory — files by path

A directory holds files under paths that start in it.  A path is walked piece by piece: it must lead through directories,
and to a file if one is to be read.  Nothing is known of what lies outside, but that there are directories above.
-/
namespace Gridmark

inductive FileError where
  | missing
  | isDirectory
  | notDirectory
  | denied
  | notText
deriving DecidableEq, Inhabited

namespace FileError

def message : FileError → Text
  | missing => "No such file or directory (os error 2)".toList
  | isDirectory => "Is a directory (os error 21)".toList
  | notDirectory => "Not a directory (os error 20)".toList
  | denied => "Permission denied (os error 13)".toList
  | notText => "stream did not contain valid UTF-8".toList

end FileError

/-- The files of a directory by the parts of their paths. -/
structure Directory where
  files : List (List Text × Bytes)

namespace Directory

def empty : Directory := ⟨[]⟩

def add (d : Directory) (path : Text) (bs : Bytes) : Directory := ⟨(PathName.parts path, bs) :: d.files⟩

def find? (d : Directory) (place : List Text) : Option Bytes := (d.files.find? fun f => f.1 = place).map (·.2)

def hasBelow (d : Directory) (place : List Text) : Bool := d.files.any fun f => place.isPrefixOf f.1

/-- Reads the file that the pieces of a path lead to from a place. -/
def walk (d : Directory) (place : List Text) : List Text → Except FileError Bytes
  | [] => .error .isDirectory
  | p :: ps =>
    if PathName.isHere p then d.walk place ps
    else if PathName.isUp p then
      if place = [] then
        if ps.all fun q => PathName.isHere q || PathName.isUp q then .error .isDirectory else .error .missing
      else d.walk place.dropLast ps
    else
      let place := place ++ [p]
      match d.find? place with
      | some bs => if ps = [] then .ok bs else .error .notDirectory
      | none => if d.hasBelow place then d.walk place ps else .error .missing

def read (d : Directory) (path : Text) : Except FileError Bytes :=
  match path with
  | [] => .error .missing
  | '/' :: _ => if PathName.parts path = [] then .error .isDirectory else .error .missing
  | path => d.walk [] (PathName.pieces path)

end Directory
end Gridmark
