import Gridmark.Element
/-!
# Document — blocks of cells

A document is a list of layouts, a layout a list of cells under a column count.  Cells are listed row by row after
vertical merges: a cell of several rows stands once, at its top row.  A freestanding element is a layout of one column
with one cell of one row, so every block is walked alike.  Spans are counts (see `Count`); a document from outside may
hold a span of zero.
-/
namespace Gridmark

inductive CellKind where
  | empty
  /-- The cell above, carried on. -/
  | continuation
  | content (element : Element)
deriving DecidableEq, Inhabited

structure Cell where
  kind : CellKind
  columnSpan : Nat
  rowSpan : Nat
deriving DecidableEq, Inhabited

structure Layout where
  columnCount : Nat
  cells : List Cell
deriving DecidableEq, Inhabited

structure Document where
  blocks : List Layout
deriving DecidableEq, Inhabited

namespace CellKind

def element? : CellKind → Option Element
  | .content e => some e
  | _ => none

def isContent : CellKind → Bool
  | .content _ => true
  | _ => false

def isContinuation : CellKind → Bool
  | .continuation => true
  | _ => false

def name : CellKind → Text
  | .empty => "empty".toList
  | .continuation => "continuation".toList
  | .content _ => "content".toList

end CellKind

namespace Cell

/-- A cell of one row. -/
def ofKind (kind : CellKind) (columnSpan : Nat) : Cell := ⟨kind, columnSpan, 1⟩

def element? (c : Cell) : Option Element := c.kind.element?

end Cell

namespace Layout

def single (e : Element) : Layout := ⟨1, [Cell.ofKind (.content e) 1]⟩

/-- The element of a layout that is one freestanding element; the cell's column span does not matter. -/
def single? (l : Layout) : Option Element :=
  match l.cells with
  | [cell] => if l.columnCount = 1 ∧ cell.rowSpan = 1 then cell.element? else none
  | _ => none

def prose? (l : Layout) : Option Text := l.single?.bind Element.prose?

def elements (l : Layout) : List Element := l.cells.filterMap Cell.element?

end Layout

namespace Document

def empty : Document := ⟨[]⟩

def push (d : Document) (l : Layout) : Document := ⟨d.blocks ++ [l]⟩

def elements (d : Document) : List Element := d.blocks.flatMap Layout.elements

inductive Visit where
  | document (size : Nat)
  | leaveDocument
  | layout (columnCount : Nat)
  | leaveLayout
  | cell (columnSpan rowSpan : Nat)
  | leaveCell
  | element (e : Element)

def visitsOfCell (c : Cell) : List Visit :=
  .cell c.columnSpan c.rowSpan :: (c.element?.toList.map Visit.element ++ [.leaveCell])

def visitsOfLayout (l : Layout) : List Visit :=
  .layout l.columnCount :: (l.cells.flatMap visitsOfCell ++ [.leaveLayout])

/-- The walk over a document, depth first, every node entered before its children and left after them. -/
def visits (d : Document) : List Visit :=
  .document d.blocks.length :: (d.blocks.flatMap visitsOfLayout ++ [.leaveDocument])

end Document
end Gridmark
