import Gridmark.SlotMatrix
/-!
# Assembly — a document from lines

Trimmed lines that are not blank are taken one by one.  Lines that belong together make a run: prose lines, grid rows of
one column count, groupable elements of one kind.  A run becomes a block when a line comes that does not belong to it.
Any other element is a block of its own.
-/
namespace Gridmark

/-- The kinds whose neighbouring elements make one group. -/
structure ReadOptions where
  groupable : List Text
deriving DecidableEq

namespace ReadOptions

def ofKinds (kinds : List Text) : ReadOptions := ⟨kinds.map Text.lowercase⟩

instance : Inhabited ReadOptions := ⟨⟨["accordion".toList]⟩⟩

def isGroupable (o : ReadOptions) (kind : Text) : Bool := o.groupable.contains kind

end ReadOptions

inductive SourceLine where
  | gridRow (columns : Nat) (cells : Text)
  /-- An element of a groupable kind. -/
  | item (e : Element)
  | lone (e : Element)
  | prose (line : Text)
deriving DecidableEq, Inhabited

namespace SourceLine

def read (o : ReadOptions) (line : Text) : SourceLine :=
  match GridRow.read? line with
  | some (columns, cells) => .gridRow columns cells
  | none =>
    match ElementLine.read? line with
    | some e => if o.isGroupable e.kind then .item e else .lone e
    | none => .prose line

def ofSource (source : Text) : List Text := ((Text.lines source).map Text.trim).filter (· ≠ [])

end SourceLine

/-- Lines that belong together. -/
inductive Run where
  | prose (lines : List Text)
  | grid (columns : Nat) (rows : List Text)
  | group (kind : Text) (items : List GroupItem)
  | lone (e : Element)
deriving DecidableEq, Inhabited

namespace Run

def start : SourceLine → Run
  | .gridRow columns cells => .grid columns [cells]
  | .item e => .group e.kind [e.toItem]
  | .lone e => .lone e
  | .prose line => .prose [line]

def extend? : Run → SourceLine → Option Run
  | .prose lines, .prose line => some (.prose (lines ++ [line]))
  | .grid columns rows, .gridRow n cells => if columns = n then some (.grid columns (rows ++ [cells])) else none
  | .group kind items, .item e => if kind = e.kind then some (.group kind (items ++ [e.toItem])) else none
  | _, _ => none

def toLayout : Run → Layout
  | .prose lines => .single (.prose (Text.joinWith ['\n'] lines))
  | .grid columns rows => .ofRows columns rows
  | .group kind items => .single (.group kind items)
  | .lone e => .single e

end Run

structure Assembly where
  blocks : List Layout
  run : Option Run
deriving DecidableEq, Inhabited

namespace Assembly

def empty : Assembly := ⟨[], none⟩

def flush (a : Assembly) : Assembly := ⟨a.blocks ++ (a.run.map Run.toLayout).toList, none⟩

def add (a : Assembly) (l : SourceLine) : Assembly :=
  match a.run.bind (·.extend? l) with
  | some r => { a with run := some r }
  | none => { a.flush with run := some (Run.start l) }

def addSource (o : ReadOptions) (a : Assembly) (source : Text) : Assembly :=
  (SourceLine.ofSource source).foldl (fun a line => a.add (SourceLine.read o line)) a

def toDocument (a : Assembly) : Document := ⟨a.flush.blocks⟩

end Assembly

namespace Document

def read (o : ReadOptions) (source : Text) : Document := (Assembly.empty.addSource o source).toDocument

end Document
end Gridmark
