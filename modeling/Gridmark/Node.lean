import Gridmark.Snapshot
/-!
# Node — whatever a visitor may be given

A document, a layout, a cell and an element can each be visited on its own.  A visit goes depth first: a node that holds
others is entered before them and left after them (`Node.calls`).  What a visitor does is how it answers each call; the
writer of snapshots answers four of the seven and passes over the rest.
-/
namespace Gridmark

inductive Node where
  | document (d : Document)
  | layout (l : Layout)
  | cell (c : Cell)
  | element (e : Element)
deriving DecidableEq, Inhabited

inductive Call where
  | document (d : Document)
  | leaveDocument (d : Document)
  | layout (l : Layout)
  | leaveLayout (l : Layout)
  | cell (c : Cell)
  | leaveCell (c : Cell)
  | element (e : Element)
deriving DecidableEq, Inhabited

namespace Node

def callsOfCell (c : Cell) : List Call := .cell c :: (c.element?.toList.map Call.element ++ [.leaveCell c])

def callsOfLayout (l : Layout) : List Call := .layout l :: (l.cells.flatMap callsOfCell ++ [.leaveLayout l])

def callsOfDocument (d : Document) : List Call := .document d :: (d.blocks.flatMap callsOfLayout ++ [.leaveDocument d])

def calls : Node → List Call
  | .document d => callsOfDocument d
  | .layout l => callsOfLayout l
  | .cell c => callsOfCell c
  | .element e => [.element e]

end Node

namespace SnapshotWriter

def answer (w : SnapshotWriter) : Call → SnapshotWriter
  | .document d => w.openDocument d
  | .layout l => w.openLayout l
  | .cell c => w.putCell c
  | .leaveLayout _ => w.closeLayout
  | .leaveDocument _ | .leaveCell _ | .element _ => w

def accept (w : SnapshotWriter) (n : Node) : SnapshotWriter := n.calls.foldl answer w

end SnapshotWriter
end Gridmark
