import Gridmark.Text.Basic
/-!
# PathName — names of files

The parts of a path stand between slashes; empty parts and parts of one point say nothing.  The last part names the file,
and what follows its last point is the extension.  A point at the start of a name makes no extension.
-/
namespace Gridmark
namespace PathName

def pieces : Text → List Text
  | [] => [[]]
  | '/' :: t => [] :: pieces t
  | c :: t =>
    match pieces t with
    | [] => [[c]]
    | p :: ps => (c :: p) :: ps

/-- Whether a piece leads nowhere else. -/
def isHere (piece : Text) : Bool := piece = [] || piece = ['.']

def isUp (piece : Text) : Bool := piece = ['.', '.']

def parts (path : Text) : List Text := (pieces path).filter fun p => !isHere p

/-- The name of the file, unless the path leads upwards or nowhere. -/
def fileName? (path : Text) : Option Text := (parts path).getLast?.filter fun p => !isUp p

/-- The text before and after its last point. -/
def splitLastPoint? (name : Text) : Option (Text × Text) :=
  (Text.splitFirst? '.' name.reverse).map fun p => (p.2.reverse, p.1.reverse)

def extension? (path : Text) : Option Text := do
  let (stem, extension) ← splitLastPoint? (← fileName? path)
  if stem = [] then none else some extension

def addExtension (extension path : Text) : Text :=
  match fileName? path with
  | some _ => Text.joinWith ['/'] ((pieces path).reverse.dropWhile isHere).reverse ++ '.' :: extension
  | none => path

end PathName
end Gridmark
