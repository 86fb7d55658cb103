import Mathlib.Data.List.GetD
import Gridmark.Node
/-!
# Collecting — one writer, many nodes

A writer of snapshots may be given any number of nodes.  Between two of them no grid is open, and the number of the next
block is past the flags of the document it was given last, so none of these flags can apply again (`Idle`).  From such a
state a layout adds its own lines and a document those of its blocks under its own flags (`putLayout_eq`,
`putDocument_eq`), and a cell or an element adds nothing.  So the lines of several nodes are the lines of each
(`lines_foldl_accept`).
-/
namespace Gridmark

open Text (joinWith)
open Snapshot (blockLines linesWith wrapFlags)

/-! ## Visits -/

namespace Call

/-- A call with what a trace shows of its node. -/
def toVisit : Call → Document.Visit
  | .document d => .document d.blocks.length
  | .leaveDocument _ => .leaveDocument
  | .layout l => .layout l.columnCount
  | .leaveLayout _ => .leaveLayout
  | .cell c => .cell c.columnSpan c.rowSpan
  | .leaveCell _ => .leaveCell
  | .element e => .element e

end Call

namespace Node

theorem map_callsOfCell (c : Cell) : (callsOfCell c).map Call.toVisit = Document.visitsOfCell c := by
  simp [callsOfCell, Document.visitsOfCell, Call.toVisit]

theorem map_callsOfLayout (l : Layout) : (callsOfLayout l).map Call.toVisit = Document.visitsOfLayout l := by
  simp [callsOfLayout, Document.visitsOfLayout, List.map_flatMap, map_callsOfCell, Call.toVisit]

/-- **The calls of a visit to a document are its walk.** -/
theorem map_calls_document (d : Document) : (calls (.document d)).map Call.toVisit = d.visits := by
  simp [calls, callsOfDocument, Document.visits, List.map_flatMap, map_callsOfLayout, Call.toVisit]

end Node

namespace SnapshotWriter

variable {w : SnapshotWriter}

/-- An element in a cell goes unanswered: the cell's text has it already. -/
theorem foldl_callsOfCell (w : SnapshotWriter) (c : Cell) : (Node.callsOfCell c).foldl answer w = w.putCell c := by
  rw [Node.callsOfCell, List.foldl_cons, List.foldl_append]
  cases c.element? <;> rfl

theorem foldl_callsOfLayout (w : SnapshotWriter) (l : Layout) : (Node.callsOfLayout l).foldl answer w = w.putLayout l := by
  rw [Node.callsOfLayout, List.foldl_cons, List.foldl_append, List.foldl_flatMap]
  simp only [foldl_callsOfCell]
  rfl

theorem foldl_callsOfDocument (w : SnapshotWriter) (d : Document) :
    (Node.callsOfDocument d).foldl answer w = w.putDocument d := by
  rw [Node.callsOfDocument, List.foldl_cons, List.foldl_append, List.foldl_flatMap]
  simp only [foldl_callsOfLayout]
  rfl

theorem accept_document (w : SnapshotWriter) (d : Document) : w.accept (.document d) = w.putDocument d :=
  foldl_callsOfDocument w d

theorem accept_layout (w : SnapshotWriter) (l : Layout) : w.accept (.layout l) = w.putLayout l := foldl_callsOfLayout w l

/-! ## Layouts and documents -/

/-- Without a grid that is open, cells go nowhere. -/
theorem foldl_putCell_of_none (h : w.grid = none) : ∀ cs : List Cell, cs.foldl putCell w = w
  | [] => rfl
  | c :: cs => by
    have hc : w.putCell c = w := by
      obtain ⟨lines, grid, flags, block⟩ := w
      obtain rfl : grid = none := h
      rfl
    rw [List.foldl_cons, hc, foldl_putCell_of_none h cs]

/-- A cell on its own has no grid to go to. -/
theorem accept_cell (h : w.grid = none) (c : Cell) : w.accept (.cell c) = w :=
  (foldl_callsOfCell w c).trans (foldl_putCell_of_none h [c])

theorem foldl_putCell_of_some : ∀ (cs : List Cell) {w : SnapshotWriter} {p : GridPen}, w.grid = some p →
    cs.foldl putCell w = { w with grid := some (cs.foldl (fun p c => p.putCell c (GridPen.cellText c.kind)) p) }
  | [], w, p, h => by
    rw [List.foldl_nil, List.foldl_nil, ← h]
  | c :: cs, w, p, h => by
    have hc : (w.putCell c).grid = some (p.putCell c (GridPen.cellText c.kind)) := by
      rw [putCell, h]
      rfl
    rw [List.foldl_cons, foldl_putCell_of_some cs hc]
    rfl

/-- **A layout adds its own lines**, under the flag that stands at its number, and counts as one block. -/
theorem putLayout_eq (h : w.grid = none) (l : Layout) :
    w.putLayout l = { w with lines := w.lines ++ blockLines (w.flags.getD w.block false) l, block := w.block + 1 } := by
  have hgrid : ∀ v : SnapshotWriter, v.grid = some (GridPen.ofLayout l) →
      (l.cells.foldl putCell v).closeLayout = { v with lines := v.lines ++ (GridPen.write l).lines, grid := none } := by
    intro v hv
    rw [foldl_putCell_of_some l.cells hv]
    rfl
  have hbare : ∀ v : SnapshotWriter, v.grid = none → (l.cells.foldl putCell v).closeLayout = v := by
    intro v hv
    rw [foldl_putCell_of_none hv, closeLayout, hv]
  obtain ⟨lines, grid, flags, block⟩ := w
  obtain rfl : grid = none := h
  rw [putLayout, openLayout, blockLines]
  dsimp only
  split
  · split
    · exact hgrid _ rfl
    · exact hbare _ rfl
  · exact hgrid _ rfl

/-- The blocks of a document, the flags being read from the number of the next block on. -/
theorem foldl_putLayout : ∀ (ls : List Layout) {w : SnapshotWriter}, w.grid = none →
    ls.foldl putLayout w =
      { w with lines := w.lines ++ linesWith (w.flags.drop w.block) ls, block := w.block + ls.length }
  | [], w, _ => by simp [linesWith]
  | l :: ls, w, h => by
    have hflag : (w.flags.drop w.block).headD false = w.flags.getD w.block false := by
      rw [List.headD_eq_head?_getD, List.head?_drop, List.getD_eq_getElem?_getD]
    rw [List.foldl_cons, putLayout_eq h, foldl_putLayout ls (by exact h), linesWith, hflag, List.tail_drop]
    simp [List.append_assoc, Nat.add_assoc, Nat.add_comm 1]

/-- **A document adds the lines of its blocks under its own flags**, whatever flags there were before. -/
theorem putDocument_eq (h : w.grid = none) (d : Document) :
    w.putDocument d = ⟨w.lines ++ linesWith (wrapFlags false d.blocks) d.blocks, none, wrapFlags false d.blocks,
      d.blocks.length⟩ := by
  have hopen : (w.openDocument d).grid = none := h
  rw [putDocument, foldl_putLayout d.blocks hopen]
  simp [openDocument, h]

/-! ## Any nodes -/

/-- A writer between two nodes. -/
structure Idle (w : SnapshotWriter) : Prop where
  grid : w.grid = none
  flags : w.flags.length ≤ w.block

theorem idle_empty : Idle empty := ⟨rfl, Nat.le_refl 0⟩

/-- No flag stands at the number of the next block. -/
theorem Idle.flag (h : w.Idle) : w.flags.getD w.block false = false := List.getD_eq_default _ _ h.flags

/-- **No node leaves anything open.** -/
theorem Idle.accept (h : w.Idle) (n : Node) : (w.accept n).Idle := by
  cases n with
  | document d =>
    rw [accept_document, putDocument_eq h.grid]
    exact ⟨rfl, Nat.le_of_eq (Snapshot.length_wrapFlags d.blocks false)⟩
  | layout l =>
    rw [accept_layout, putLayout_eq h.grid]
    exact ⟨h.grid, Nat.le_succ_of_le h.flags⟩
  | cell c =>
    rw [accept_cell h.grid]
    exact h
  | element e => exact h

end SnapshotWriter

namespace Node

/-- What a document or a layout adds to what a writer has collected; cells and elements add nothing. -/
def lines : Node → List Text
  | .document d => (SnapshotWriter.empty.accept (.document d)).lines
  | .layout l => (SnapshotWriter.empty.accept (.layout l)).lines
  | .cell _ | .element _ => []

end Node

namespace SnapshotWriter

variable {w : SnapshotWriter}

/-- **A node adds the lines that it has on its own.** -/
theorem Idle.lines_accept (h : w.Idle) (n : Node) : (w.accept n).lines = w.lines ++ n.lines := by
  cases n with
  | document d =>
    rw [Node.lines, accept_document, accept_document, putDocument_eq h.grid, putDocument_eq idle_empty.grid]
    rfl
  | layout l =>
    rw [Node.lines, accept_layout, accept_layout, putLayout_eq h.grid, putLayout_eq idle_empty.grid, h.flag, idle_empty.flag]
    rfl
  | cell c => rw [Node.lines, accept_cell h.grid, List.append_nil]
  | element e => exact (List.append_nil _).symm

theorem Idle.lines_foldl_accept : ∀ (ns : List Node) {w : SnapshotWriter}, w.Idle →
    (ns.foldl SnapshotWriter.accept w).lines = w.lines ++ ns.flatMap Node.lines
  | [], w, _ => by simp
  | n :: ns, w, h => by
    rw [List.foldl_cons, (h.accept n).lines_foldl_accept ns, h.lines_accept, List.flatMap_cons, List.append_assoc]

/-- A document on its own is written as its text. -/
theorem finish_lines_document (d : Document) (trailing : Bool) :
    Snapshot.finish trailing (Node.document d).lines = d.write trailing := by
  rw [Node.lines, accept_document, putDocument_eq rfl]
  rfl

/-- A layout on its own is written as its text. -/
theorem joinWith_lines_layout (l : Layout) : joinWith ['\n'] (Node.layout l).lines = l.write := by
  rw [Node.lines, accept_layout, putLayout_eq rfl]
  rfl

/-- **A writer keeps nothing from one node to the next**: whatever nodes it was given, in any order, its lines are those
that a fresh writer collects of each document and each layout, and its text is these lines with a line feed behind them if
that is asked for and there is any text.  A document's lines are those of its text, and so are a layout's. -/
theorem lines_toText_foldl_accept (ns : List Node) (trailing : Bool) :
    (ns.foldl accept empty).lines = ns.flatMap Node.lines ∧
      (ns.foldl accept empty).toText trailing = joinWith ['\n'] (ns.flatMap Node.lines) ++
        (if trailing = true ∧ joinWith ['\n'] (ns.flatMap Node.lines) ≠ [] then ['\n'] else []) ∧
      (∀ d : Document, Snapshot.finish trailing (Node.document d).lines = d.write trailing) ∧
      ∀ l : Layout, joinWith ['\n'] (Node.layout l).lines = l.write := by
  have hlines : (ns.foldl accept empty).lines = ns.flatMap Node.lines := idle_empty.lines_foldl_accept ns
  refine ⟨hlines, ?_, fun d => finish_lines_document d trailing, joinWith_lines_layout⟩
  rw [toText, Snapshot.finish, hlines]
  by_cases htext : trailing = true ∧ joinWith ['\n'] (ns.flatMap Node.lines) ≠ []
  · rw [if_pos htext, if_pos (by simpa using htext)]
  · rw [if_neg htext, if_neg (by simpa using htext), List.append_nil]

end SnapshotWriter
end Gridmark
