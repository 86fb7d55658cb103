import Gridmark.Format
import Gridmark.PathName
/-!
# Registry — formats by name

A registry holds one format for each name, in the order of the names: the one that was registered last.  It finds formats
by name or by the extension of a path, and converts between any two that it holds.
-/
namespace Gridmark

structure Registry where
  formats : List Format
  ordered : Keyed.Ordered Format.name formats

namespace Registry

def empty : Registry := ⟨[], List.Pairwise.nil⟩

/-- Adds a format, in the place of one with its name. -/
def register (r : Registry) (f : Format) : Registry := ⟨_, Keyed.ordered_put f r.ordered⟩

/-- The four formats, the markup with the given options. -/
def standard (o : ReadOptions) (trailingNewline : Bool) : Registry :=
  [Format.markup o trailingNewline, .json, .yaml, .outline].foldl register empty

def find? (r : Registry) (name : Text) : Option Format := Keyed.find? Format.name name r.formats

def get (r : Registry) (name : Text) : Except FormatError Format :=
  match r.find? name with
  | some f => .ok f
  | none => .error (.unknown name)

def has (r : Registry) (name : Text) : Bool := (r.find? name).isSome

def names (r : Registry) : List Text := r.formats.map Format.name

/-- The name of the first format with the extension of a path, which may be in any case. -/
def detect? (r : Registry) (path : Text) : Option Text := do
  let extension := Text.lowercase (← PathName.extension? path)
  let f ← r.formats.find? fun f => f.extensions.contains extension
  some f.name

def read (r : Registry) (name source : Text) : Except FormatError Document := do
  let f ← r.get name
  if f.reads then f.read source else .error (.notReadable name)

def write (r : Registry) (name : Text) (d : Document) : Except FormatError Text := do
  let f ← r.get name
  if f.writes then f.write d else .error (.notWritable name)

def convert (r : Registry) (source input output : Text) : Except FormatError Text := do
  r.write output (← r.read input source)

end Registry
end Gridmark
