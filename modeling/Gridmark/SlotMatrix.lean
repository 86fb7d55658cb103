import Gridmark.RowCell
/-!
# SlotMatrix — grid rows as a matrix of slots

Rows stack from the top.  In a row every cell takes its columns from the left, is cut at the last column and dropped
behind it.  A slot is the column range of one cell in one row and names the cell by its number, so that several rows can
name one cell.

A continuation looks at the slot above its first column.  If that slot names a content cell of the same column span, that
cell grows by a row and the continuation's slots come to name it; otherwise the continuation is discarded.  None reaches
the finished layout.
-/
namespace Gridmark

/-- The columns from `start` up to `stop` of one row, and the number of the cell there. -/
structure Slot where
  start : Nat
  stop : Nat
  owner : Nat
deriving DecidableEq, Inhabited

namespace Slot

def covers (s : Slot) (column : Nat) : Bool := s.start ≤ column && column < s.stop

/-- The slot, with `target` for its owner if the owner was `old`. -/
def reassign (old target : Nat) (s : Slot) : Slot := if s.owner = old then { s with owner := target } else s

end Slot

/-- A placed continuation: its row, its first column and its number. -/
structure PendingMerge where
  row : Nat
  column : Nat
  owner : Nat
deriving DecidableEq, Inhabited

structure SlotMatrix where
  columnCount : Nat
  /-- Every cell placed so far, by number. -/
  cells : List Cell
  rows : List (List Slot)
  /-- The continuations whose fate is open, top row first. -/
  pending : List PendingMerge
deriving DecidableEq, Inhabited

namespace SlotMatrix

def empty (columnCount : Nat) : SlotMatrix := ⟨columnCount, [], [], []⟩

/-- The slots and the cut cells of a row, from the given column and cell number on. -/
def placeFrom (columnCount : Nat) : Nat → Nat → List Cell → List (Slot × Cell)
  | _, _, [] => []
  | cursor, owner, c :: cs =>
    let next := Count.add cursor c.columnSpan
    if columnCount ≤ cursor then placeFrom columnCount next owner cs
    else
      let stop := min next columnCount
      (⟨cursor, stop, owner⟩, { c with columnSpan := stop - cursor }) :: placeFrom columnCount next (owner + 1) cs

def pendingOf (row : Nat) (placed : List (Slot × Cell)) : List PendingMerge :=
  placed.filterMap fun p => if p.2.kind.isContinuation then some ⟨row, p.1.start, p.1.owner⟩ else none

def placeRow (m : SlotMatrix) (cells : List Cell) : SlotMatrix :=
  let placed := placeFrom m.columnCount 0 m.cells.length cells
  { m with
    cells := m.cells ++ placed.map (·.2)
    rows := m.rows ++ [placed.map (·.1)]
    pending := m.pending ++ pendingOf m.rows.length placed }

def ownerAt? (m : SlotMatrix) (row column : Nat) : Option Nat :=
  (m.rows[row]?.bind fun slots => slots.find? fun s => s.covers column).map Slot.owner

/-- The number of the cell right above a continuation. -/
def ownerAbove? (m : SlotMatrix) (p : PendingMerge) : Option Nat :=
  match p.row with
  | 0 => none
  | row + 1 => m.ownerAt? row p.column

/-- Whether one cell can take over the slots of another. -/
def canAbsorb (m : SlotMatrix) (target owner : Nat) : Bool :=
  match m.cells[target]?, m.cells[owner]? with
  | some t, some c => t.kind.isContent && t.columnSpan == c.columnSpan
  | _, _ => false

/-- The matrix with a continuation made a further row of a cell. -/
def absorb (m : SlotMatrix) (target : Nat) (p : PendingMerge) : SlotMatrix :=
  { m with
    cells := m.cells.modify target fun c => { c with rowSpan := c.rowSpan + 1 }
    rows := m.rows.modify p.row fun slots => slots.map (Slot.reassign p.owner target) }

def mergeOne (m : SlotMatrix) (p : PendingMerge) : SlotMatrix :=
  match m.ownerAbove? p with
  | some target => if m.canAbsorb target p.owner then m.absorb target p else m
  | none => m

/-- The matrix with the fate of every continuation settled, top row first. -/
def merge (m : SlotMatrix) : SlotMatrix := { m.pending.foldl mergeOne m with pending := [] }

/-- The numbers of the cells in reading order, each at its first slot. -/
def owners (m : SlotMatrix) : List Nat := (m.rows.flatten.map Slot.owner).eraseDups

/-- The placed cells in reading order, continuations left out. -/
def toLayout (m : SlotMatrix) : Layout :=
  ⟨m.columnCount, (m.owners.filterMap fun i => m.cells[i]?).filter fun c => !c.kind.isContinuation⟩

def placeText (m : SlotMatrix) (row : Text) : SlotMatrix :=
  m.placeRow (RowCell.resolve (RowCell.readRow row) m.columnCount)

end SlotMatrix

namespace Layout

/-- The layout of a run of grid rows, given by their insides. -/
def ofRows (columnCount : Nat) (rows : List Text) : Layout :=
  (rows.foldl SlotMatrix.placeText (SlotMatrix.empty columnCount)).merge.toLayout

end Layout
end Gridmark
