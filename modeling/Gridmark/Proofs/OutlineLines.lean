import Gridmark.Outline
import Gridmark.Proofs.Collecting
import Gridmark.Proofs.GridText
/-!
# OutlineLines — one line for each node

The nodes of an outline are told from the document: itself, its blocks, their cells, and under a cell the items of the
group that its element holds (`Document.outlineNodes`).  The outline can be written on a visit: every call writes the lines
of its node, and a counter says how deep the visitor stands (`OutlineWriter`).  Leaving a node that was never entered would
be a failure.  None occurs, the counter is back where it was after every node, and what is written are the lines of the
nodes (`foldlM_callsOfDocument`).  No label holds a line feed, whatever the texts it comes from, so cutting the outline at
its line feeds gives back a line for each node.
-/
namespace Gridmark

open Text (segments)

inductive OutlineNode where
  | document (d : Document)
  | layout (l : Layout)
  | cell (c : Cell)
  | item (i : GroupItem)
deriving DecidableEq, Inhabited

/-- The first line of a text.  Of more than thirty characters it shows twenty-nine and an ellipsis. -/
def Text.heading (t : Text) : Text :=
  let line := (Text.lines t).headD []
  if line.length ≤ 30 then line else line.take 29 ++ ['…']

namespace CellKind

def icon : CellKind → Char
  | .empty => '□'
  | .continuation => '↧'
  | .content e =>
    match e.payload with
    | .markdown _ => '¶'
    | .group _ => '☰'
    | .plain | .action _ | .input _ => '▢'

def heading : CellKind → Text
  | .empty => "space".toList
  | .continuation => "continue".toList
  | .content e => e.label.heading

/-- The items of the group that a cell holds. -/
def groupItems : CellKind → List GroupItem
  | .empty | .continuation => []
  | .content e =>
    match e.payload with
    | .group items => items
    | .plain | .action _ | .input _ | .markdown _ => []

theorem groupItems_content (e : Element) : groupItems (.content e) = e.items := by
  rw [groupItems, Element.items]
  cases e.payload <;> rfl

end CellKind

namespace OutlineNode

def depth : OutlineNode → Nat
  | .document _ => 0
  | .layout _ => 1
  | .cell _ => 2
  | .item _ => 3

def icon : OutlineNode → Char
  | .document _ => '⧉'
  | .layout _ => '▦'
  | .cell c => c.kind.icon
  | .item _ => '•'

def label : OutlineNode → Text
  | .document d => "Document (".toList ++ Text.ofNat d.blocks.length ++ " blocks)".toList
  | .layout l => "Layout ".toList ++ Text.ofNat l.columnCount ++ " cols, ".toList ++ Text.ofNat l.cells.length ++
    " cells".toList
  | .cell c => c.kind.heading
  | .item i => i.trigger.heading

/-- What stands behind the label: the spans of a cell. -/
def note : OutlineNode → Text
  | .cell c => ' ' :: '[' :: Text.ofNat c.columnSpan ++ 'x' :: Text.ofNat c.rowSpan ++ [']']
  | .document _ | .layout _ | .item _ => []

def line (n : OutlineNode) : Text := List.replicate (2 * n.depth) ' ' ++ n.icon :: ' ' :: (n.label ++ n.note)

end OutlineNode

def Cell.outlineNodes (c : Cell) : List OutlineNode := .cell c :: c.kind.groupItems.map .item

def Layout.outlineNodes (l : Layout) : List OutlineNode := .layout l :: l.cells.flatMap Cell.outlineNodes

def Document.outlineNodes (d : Document) : List OutlineNode := .document d :: d.blocks.flatMap Layout.outlineNodes

/-! ## The visitor -/

/-- A visitor that writes an outline, with what it has written and how deep it stands. -/
structure OutlineWriter where
  output : Text
  depth : Nat
deriving DecidableEq, Inhabited

namespace OutlineWriter

def empty : OutlineWriter := ⟨[], 0⟩

def line (w : OutlineWriter) (icon : Char) (label : Text) : OutlineWriter :=
  { w with output := w.output ++ (List.replicate (2 * w.depth) ' ' ++ icon :: ' ' :: label ++ ['\n']) }

def enter (w : OutlineWriter) : OutlineWriter := { w with depth := w.depth + 1 }

def leave? (w : OutlineWriter) : Option OutlineWriter :=
  if 0 < w.depth then some { w with depth := w.depth - 1 } else none

def put (w : OutlineWriter) (n : OutlineNode) : OutlineWriter := w.line n.icon (n.label ++ n.note)

/-- What the visitor does at a call, if it can.  Only a cell with content can have items. -/
def answer? (w : OutlineWriter) : Call → Option OutlineWriter
  | .document d => some (w.put (.document d)).enter
  | .layout l => some (w.put (.layout l)).enter
  | .cell c =>
    match c.kind with
    | .content e => (e.items.foldl (fun w i => w.put (.item i)) (w.put (.cell c)).enter).leave?
    | .empty | .continuation => some (w.put (.cell c))
  | .leaveDocument _ | .leaveLayout _ => w.leave?
  | .leaveCell _ | .element _ => some w

variable {w : OutlineWriter}

def textOf (ns : List OutlineNode) : Text := ns.flatMap fun n => n.line ++ ['\n']

theorem put_eq {n : OutlineNode} (h : w.depth = n.depth) : w.put n = ⟨w.output ++ (n.line ++ ['\n']), w.depth⟩ := by
  simp [put, line, OutlineNode.line, h]

theorem foldl_put_item : ∀ (is : List GroupItem) {w : OutlineWriter}, w.depth = 3 →
    is.foldl (fun w i => w.put (.item i)) w = ⟨w.output ++ textOf (is.map .item), w.depth⟩
  | [], w, _ => by simp [textOf]
  | i :: is, w, h => by
    rw [List.foldl_cons, put_eq h, foldl_put_item is (by exact h), List.map_cons]
    simp [textOf]

theorem answer?_cell (h : w.depth = 2) (c : Cell) :
    w.answer? (.cell c) = some ⟨w.output ++ textOf c.outlineNodes, 2⟩ := by
  have hput : w.put (.cell c) = ⟨w.output ++ ((OutlineNode.cell c).line ++ ['\n']), 2⟩ := by
    rw [put_eq h, h]
  unfold answer?
  dsimp only
  cases hk : c.kind with
  | empty => simp [hput, Cell.outlineNodes, CellKind.groupItems, hk, textOf]
  | continuation => simp [hput, Cell.outlineNodes, CellKind.groupItems, hk, textOf]
  | content e =>
    dsimp only
    rw [hput, foldl_put_item e.items rfl]
    simp [leave?, enter, Cell.outlineNodes, CellKind.groupItems_content, hk, textOf]

theorem foldlM_callsOfCell (h : w.depth = 2) (c : Cell) :
    (Node.callsOfCell c).foldlM answer? w = some ⟨w.output ++ textOf c.outlineNodes, 2⟩ := by
  have hrest : ∀ (w : OutlineWriter) (e? : Option Element),
      (e?.toList.map Call.element ++ [Call.leaveCell c]).foldlM answer? w = some w := by
    intro w e?
    cases e? <;> rfl
  rw [Node.callsOfCell, List.foldlM_cons, answer?_cell h]
  exact hrest _ _

theorem textOf_append (ms ns : List OutlineNode) : textOf (ms ++ ns) = textOf ms ++ textOf ns := List.flatMap_append

/-- A visitor that stands at one depth before and after each part stands there after all of them. -/
theorem foldlM_flatMap_calls {α : Type} {calls : α → List Call} {nodes : α → List OutlineNode} {depth : Nat}
    (hcalls : ∀ (a : α) {w : OutlineWriter}, w.depth = depth →
      (calls a).foldlM answer? w = some ⟨w.output ++ textOf (nodes a), depth⟩) :
    ∀ (as : List α) {w : OutlineWriter}, w.depth = depth →
      (as.flatMap calls).foldlM answer? w = some ⟨w.output ++ textOf (as.flatMap nodes), depth⟩
  | [], ⟨output, _⟩, rfl => by simp [textOf]
  | a :: as, w, h => by
    have ih := foldlM_flatMap_calls hcalls as (w := ⟨w.output ++ textOf (nodes a), depth⟩) rfl
    rw [List.flatMap_cons, List.foldlM_append, hcalls a h, List.flatMap_cons, textOf_append, ← List.append_assoc]
    exact ih

theorem foldlM_callsOfLayout (h : w.depth = 1) (l : Layout) :
    (Node.callsOfLayout l).foldlM answer? w = some ⟨w.output ++ textOf l.outlineNodes, 1⟩ := by
  have hopen : w.answer? (.layout l) = some ⟨w.output ++ ((OutlineNode.layout l).line ++ ['\n']), 2⟩ := by
    rw [answer?, put_eq h, h]
    rfl
  have hcells := foldlM_flatMap_calls (fun c _ h => foldlM_callsOfCell h c) l.cells
    (w := ⟨w.output ++ ((OutlineNode.layout l).line ++ ['\n']), 2⟩) rfl
  rw [Node.callsOfLayout, List.foldlM_cons, hopen, Option.bind_eq_bind, Option.bind_some, List.foldlM_append, hcells]
  simp [answer?, leave?, Layout.outlineNodes, textOf]

/-- **A visit to a document writes its nodes**, each at its depth, and ends where it began. -/
theorem foldlM_callsOfDocument (d : Document) :
    (Node.calls (.document d)).foldlM answer? empty = some ⟨textOf d.outlineNodes, 0⟩ := by
  have hopen : empty.answer? (.document d) = some ⟨(OutlineNode.document d).line ++ ['\n'], 1⟩ := by
    rw [answer?, put_eq rfl]
    rfl
  have hblocks := foldlM_flatMap_calls (fun l _ h => foldlM_callsOfLayout h l) d.blocks
    (w := ⟨(OutlineNode.document d).line ++ ['\n'], 1⟩) rfl
  rw [Node.calls, Node.callsOfDocument, List.foldlM_cons, hopen, Option.bind_eq_bind, Option.bind_some,
    List.foldlM_append, hblocks]
  simp [answer?, leave?, Document.outlineNodes, textOf]

end OutlineWriter

/-! ## The same text -/

def OutlineNode.toLine (n : OutlineNode) : OutlineLine := ⟨n.depth, n.icon, n.label ++ n.note⟩

theorem OutlineNode.toLine_eq {n : OutlineNode} (h : n.note = []) : n.toLine = ⟨n.depth, n.icon, n.label⟩ := by
  rw [toLine, h, List.append_nil]

theorem OutlineNode.lineText_toLine (n : OutlineNode) : Outline.lineText n.toLine = n.line ++ ['\n'] := by
  simp only [Outline.lineText, toLine, line, List.append_assoc, List.cons_append]

namespace Outline

theorem shorten_eq (t : Text) : shorten t = t.heading := by
  unfold shorten Element.firstLine Text.heading maxLabel
  dsimp only
  by_cases h : ((Text.lines t).headD []).length ≤ 30
  · rw [if_pos h, if_neg (Nat.not_lt.2 h)]
  · rw [if_neg h, if_pos (Nat.lt_of_not_le h)]

theorem ofItem_eq (i : GroupItem) : ofItem i = (OutlineNode.item i).toLine := by
  rw [OutlineNode.toLine_eq rfl, ofItem, shorten_eq]
  rfl

theorem elementIcon_eq (e : Element) : elementIcon e = (CellKind.content e).icon := by
  rw [elementIcon, CellKind.icon]
  cases e.payload <;> rfl

theorem toLine_cell (c : Cell) : (OutlineNode.cell c).toLine = ⟨2, c.kind.icon, c.kind.heading ++ ' ' :: size c⟩ := by
  have hnote : (OutlineNode.cell c).note = ' ' :: size c := by simp only [OutlineNode.note, size, List.cons_append]
  rw [OutlineNode.toLine, hnote]
  rfl

theorem ofCell_eq (c : Cell) : ofCell c = c.outlineNodes.map OutlineNode.toLine := by
  have hspace : "space ".toList = "space".toList ++ [' '] := by decide
  have hcontinue : "continue ".toList = "continue".toList ++ [' '] := by decide
  rw [Cell.outlineNodes, List.map_cons, toLine_cell, ofCell]
  cases c.kind with
  | empty =>
    dsimp only
    rw [hspace, List.append_assoc]
    rfl
  | continuation =>
    dsimp only
    rw [hcontinue, List.append_assoc]
    rfl
  | content e =>
    have hitems : e.items.map ofItem = (e.items.map OutlineNode.item).map OutlineNode.toLine := by
      rw [List.map_map]
      exact List.map_congr_left fun i _ => ofItem_eq i
    dsimp only
    rw [hitems, elementIcon_eq, shorten_eq, CellKind.groupItems_content]
    rfl

theorem ofLayout_eq (l : Layout) : ofLayout l = l.outlineNodes.map OutlineNode.toLine := by
  have hcells : l.cells.flatMap ofCell = (l.cells.flatMap Cell.outlineNodes).map OutlineNode.toLine := by
    rw [List.map_flatMap]
    exact List.flatMap_congr fun c _ => ofCell_eq c
  rw [ofLayout, hcells, Layout.outlineNodes, List.map_cons, OutlineNode.toLine_eq rfl]
  rfl

/-- **The lines of an outline are those of its nodes.** -/
theorem ofDocument_eq (d : Document) : ofDocument d = d.outlineNodes.map OutlineNode.toLine := by
  have hblocks : d.blocks.flatMap ofLayout = (d.blocks.flatMap Layout.outlineNodes).map OutlineNode.toLine := by
    rw [List.map_flatMap]
    exact List.flatMap_congr fun l _ => ofLayout_eq l
  rw [ofDocument, hblocks, Document.outlineNodes, List.map_cons, OutlineNode.toLine_eq rfl]
  rfl

end Outline

namespace Document

theorem outline_eq (d : Document) : d.outline = OutlineWriter.textOf d.outlineNodes := by
  rw [outline, Outline.ofDocument_eq, List.flatMap_map, OutlineWriter.textOf]
  exact List.flatMap_congr fun n _ => n.lineText_toLine

end Document

/-! ## No line feed, and no long label -/

theorem Text.not_mem_heading (t : Text) : '\n' ∉ t.heading := by
  have hline : '\n' ∉ t.lines.headD [] := by
    cases h : t.lines with
    | nil => exact List.not_mem_nil
    | cons l ls => exact not_mem_of_mem_lines (h ▸ List.mem_cons_self)
  unfold heading
  dsimp only
  split
  · exact hline
  · rw [List.mem_append, not_or]
    exact ⟨fun h => hline (List.mem_of_mem_take h), by decide⟩

theorem Text.length_heading_le (t : Text) : t.heading.length ≤ 30 := by
  unfold heading
  dsimp only
  split
  · assumption
  · rw [List.length_append, List.length_take]
    exact Nat.add_le_add_right (Nat.min_le_left 29 _) 1

namespace CellKind

theorem newline_ne_icon (k : CellKind) : '\n' ≠ k.icon := by
  cases k with
  | empty => decide
  | continuation => decide
  | content e =>
    rw [icon]
    split <;> decide

theorem not_mem_heading (k : CellKind) : '\n' ∉ k.heading := by
  cases k with
  | empty => decide
  | continuation => decide
  | content e => exact e.label.not_mem_heading

theorem length_heading_le (k : CellKind) : k.heading.length ≤ 30 := by
  cases k with
  | empty => decide
  | continuation => decide
  | content e => exact e.label.length_heading_le

end CellKind

namespace OutlineNode

theorem not_mem_ofNat (k : Nat) : '\n' ∉ Text.ofNat k := fun h => absurd (Count.isDigit_of_mem_ofNat h) (by decide)

theorem not_mem_label (n : OutlineNode) : '\n' ∉ n.label := by
  cases n with
  | document d =>
    show '\n' ∉ "Document (".toList ++ Text.ofNat d.blocks.length ++ " blocks)".toList
    simp only [List.mem_append, not_or]
    exact ⟨⟨by decide, not_mem_ofNat _⟩, by decide⟩
  | layout l =>
    show '\n' ∉ "Layout ".toList ++ Text.ofNat l.columnCount ++ " cols, ".toList ++ Text.ofNat l.cells.length ++
      " cells".toList
    simp only [List.mem_append, not_or]
    exact ⟨⟨⟨⟨by decide, not_mem_ofNat _⟩, by decide⟩, not_mem_ofNat _⟩, by decide⟩
  | cell c => exact c.kind.not_mem_heading
  | item i => exact i.trigger.not_mem_heading

theorem not_mem_line (n : OutlineNode) : '\n' ∉ n.line := by
  have hicon : '\n' ≠ n.icon := by
    cases n with
    | document d => exact (by decide : '\n' ≠ '⧉')
    | layout l => exact (by decide : '\n' ≠ '▦')
    | cell c => exact c.kind.newline_ne_icon
    | item i => exact (by decide : '\n' ≠ '•')
  have hnote : '\n' ∉ n.note := by
    cases n with
    | cell c => simp [note, not_mem_ofNat]
    | _ => exact List.not_mem_nil
  simp only [line, List.mem_append, List.mem_cons, not_or]
  exact ⟨fun h => absurd (List.eq_of_mem_replicate h) (by decide), hicon, by decide, n.not_mem_label, hnote⟩

end OutlineNode

theorem Text.segments_lines : ∀ {ls : List Text}, (∀ l ∈ ls, '\n' ∉ l) →
    segments (ls.flatMap fun l => l ++ ['\n']) = ls ++ [[]]
  | [], _ => rfl
  | l :: ls, h => by
    obtain ⟨hl, hls⟩ := List.forall_mem_cons.1 h
    rw [List.flatMap_cons, List.append_assoc, List.singleton_append, segments_append, segments_of_not_mem hl,
      segments_lines hls]
    rfl

/-! ## Counting -/

namespace Document

theorem length_flatMap_cells (cs : List Cell) :
    (cs.flatMap Cell.outlineNodes).length = cs.length + (cs.flatMap fun c => c.kind.groupItems).length := by
  induction cs with
  | nil => rfl
  | cons c cs ih =>
    rw [List.flatMap_cons, List.length_append, ih]
    simp [Cell.outlineNodes]
    omega

theorem length_flatMap_blocks (ls : List Layout) : (ls.flatMap Layout.outlineNodes).length =
    ls.length + (ls.flatMap Layout.cells).length + ((ls.flatMap Layout.cells).flatMap fun c => c.kind.groupItems).length := by
  induction ls with
  | nil => rfl
  | cons l ls ih =>
    rw [List.flatMap_cons, List.length_append, ih, Layout.outlineNodes, List.length_cons, length_flatMap_cells]
    simp
    omega

/-- **An outline has one line for each node**: cut at its line feeds it is the lines of the document, its blocks, their cells
and the items of the groups in them, depth first and each behind two blanks for each level above it.  The visitor that
writes it goes the walk of the document, leaves no node but one it has entered and ends where it began.  No label of a cell
or an item is longer than thirty characters. -/
theorem segments_outline (d : Document) :
    (Node.calls (.document d)).map Call.toVisit = d.visits ∧
      (Node.calls (.document d)).foldlM OutlineWriter.answer? .empty = some ⟨d.outline, 0⟩ ∧
      Text.segments d.outline = d.outlineNodes.map OutlineNode.line ++ [[]] ∧
      d.outlineNodes.length = 1 + d.blocks.length + (d.blocks.flatMap Layout.cells).length +
        ((d.blocks.flatMap Layout.cells).flatMap fun c => c.kind.groupItems).length ∧
      ∀ n ∈ d.outlineNodes, 2 ≤ n.depth → n.label.length ≤ 30 := by
  refine ⟨Node.map_calls_document d, ?_, ?_, ?_, fun n _ hdepth => ?_⟩
  · rw [outline_eq, OutlineWriter.foldlM_callsOfDocument]
  · have hlines := Text.segments_lines (List.forall_mem_map.2 fun n (_ : n ∈ d.outlineNodes) => n.not_mem_line)
    rw [List.flatMap_map] at hlines
    rw [outline_eq]
    exact hlines
  · rw [outlineNodes, List.length_cons, length_flatMap_blocks]
    omega
  · cases n with
    | document d => simp [OutlineNode.depth] at hdepth
    | layout l => simp [OutlineNode.depth] at hdepth
    | cell c => exact c.kind.length_heading_le
    | item i => exact i.trigger.length_heading_le

end Document
end Gridmark
