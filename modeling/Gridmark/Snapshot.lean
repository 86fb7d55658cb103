import Gridmark.GridPen
import Gridmark.Assembly
/-!
# Snapshot — a document as text

A freestanding element is written as its own line or lines, any other layout as grid rows.  Two neighbouring prose blocks
would read back as one, so of such a pair one goes out as a row of one column.  Prose that no cell can hold stays bare,
and its neighbour gives way.

Which prose goes into a row is a list of flags, one for each block (`wrapFlags`), and the writer takes any such list
(`linesWith`).  `SnapshotWriter` writes nodes of all sorts one after the other.
-/
namespace Gridmark
namespace Snapshot

/-- Whether prose reads back as itself from the only cell of a row. -/
def fitsInCell (body : Text) : Bool :=
  !body.contains '\n' && splitTop .comma body == [body] &&
    RowCell.read body == ⟨.content (Element.prose body), none⟩

def startsBare : List Layout → Bool
  | [] => false
  | l :: _ =>
    match l.prose? with
    | some body => !fitsInCell body
    | none => false

/-- Which blocks are prose that goes into a row, `afterBare` telling whether bare prose stands before them. -/
def wrapFlags (afterBare : Bool) : List Layout → List Bool
  | [] => []
  | l :: ls =>
    match l.prose? with
    | some body =>
      let wrap := (afterBare || startsBare ls) && fitsInCell body
      wrap :: wrapFlags (!wrap) ls
    | none => false :: wrapFlags false ls

theorem length_wrapFlags : ∀ (bs : List Layout) (afterBare : Bool), (wrapFlags afterBare bs).length = bs.length
  | [], _ => rfl
  | b :: bs, afterBare => by
    rw [wrapFlags]
    split <;> rw [List.length_cons, length_wrapFlags bs, List.length_cons]

/-- The lines of a block.  A freestanding element comes as one text, which may hold line feeds. -/
def blockLines (wrap : Bool) (l : Layout) : List Text :=
  match l.single? with
  | some e => if wrap then (GridPen.write l).lines else [ElementLine.write e]
  | none => (GridPen.write l).lines

/-- The lines of blocks, each with its flag; a missing flag is false. -/
def linesWith : List Bool → List Layout → List Text
  | _, [] => []
  | flags, l :: ls => blockLines (flags.headD false) l ++ linesWith flags.tail ls

/-- Lines as one text, with a line feed at the end if asked for and the text is not empty. -/
def finish (trailingNewline : Bool) (ls : List Text) : Text :=
  let text := Text.joinWith ['\n'] ls
  if trailingNewline && text ≠ [] then text ++ ['\n'] else text

end Snapshot

namespace Document

def write (trailingNewline : Bool) (d : Document) : Text :=
  Snapshot.finish trailingNewline (Snapshot.linesWith (Snapshot.wrapFlags false d.blocks) d.blocks)

end Document

namespace Layout

def write (l : Layout) : Text := Text.joinWith ['\n'] (Snapshot.blockLines false l)

end Layout

/-- A writer between two nodes: the lines written, the grid that is open, and the flags and the number of the next block
of the document it was given last. -/
structure SnapshotWriter where
  lines : List Text
  grid : Option GridPen
  flags : List Bool
  block : Nat

namespace SnapshotWriter

def empty : SnapshotWriter := ⟨[], none, [], 0⟩

def openDocument (w : SnapshotWriter) (d : Document) : SnapshotWriter :=
  { w with flags := Snapshot.wrapFlags false d.blocks, block := 0 }

/-- Enters a layout: writes a freestanding element that no flag puts into a row, and opens a grid for anything else. -/
def openLayout (w : SnapshotWriter) (l : Layout) : SnapshotWriter :=
  let wrap := w.flags.getD w.block false
  let w := { w with block := w.block + 1 }
  match l.single? with
  | some e =>
    if wrap then { w with grid := some (GridPen.ofLayout l) } else { w with lines := w.lines ++ [ElementLine.write e] }
  | none => { w with grid := some (GridPen.ofLayout l) }

def putCell (w : SnapshotWriter) (c : Cell) : SnapshotWriter :=
  { w with grid := w.grid.map fun p => p.putCell c (GridPen.cellText c.kind) }

def closeLayout (w : SnapshotWriter) : SnapshotWriter :=
  match w.grid with
  | some p => { w with lines := w.lines ++ p.lines, grid := none }
  | none => w

def putLayout (w : SnapshotWriter) (l : Layout) : SnapshotWriter :=
  (l.cells.foldl putCell (w.openLayout l)).closeLayout

def putDocument (w : SnapshotWriter) (d : Document) : SnapshotWriter := d.blocks.foldl putLayout (w.openDocument d)

def toText (w : SnapshotWriter) (trailingNewline : Bool) : Text := Snapshot.finish trailingNewline w.lines

end SnapshotWriter
end Gridmark
