import Gridmark.RowCell
/-!
# GridPen — a layout as grid rows

The pen writes cells from the left and starts a new row when the next cell would not fit.  A cell of several rows owes a
`continue` of its span to each row under its first, at the cell's own column.  When a row closes, the merges it still owes
are written in column order, and the columns left of one that have nothing to write are filled: with a `continue` that
cannot merge, because its span differs from that of the cell above, or with `space` when no span differs.

Rows come out as lists of cells; their text is made from these (`rowText`).
-/
namespace Gridmark

structure PenCell where
  start : Nat
  span : Nat
  text : Text
  /-- A `continue` under this cell would merge into it. -/
  absorbs : Bool
deriving DecidableEq, Inhabited

/-- A cell whose further rows are still owed. -/
structure OpenMerge where
  column : Nat
  span : Nat
  rowsLeft : Nat
  /-- The row being written has its `continue` already. -/
  written : Bool
deriving DecidableEq, Inhabited

structure GridPen where
  columns : Nat
  cursor : Nat
  row : List PenCell
  /-- The row closed last. -/
  above : List PenCell
  merges : List OpenMerge
  started : List OpenMerge
  rows : List (List PenCell)
deriving DecidableEq, Inhabited

namespace OpenMerge

/-- Puts a merge before the first one that does not start left of it. -/
def insertByColumn (m : OpenMerge) : List OpenMerge → List OpenMerge
  | [] => [m]
  | n :: ns => if m.column ≤ n.column then m :: n :: ns else n :: insertByColumn m ns

def sortByColumn (ms : List OpenMerge) : List OpenMerge := ms.foldr insertByColumn []

/-- The first merge owed at a column, and the merges with that one written. -/
def takeDue? (column : Nat) : List OpenMerge → Option (OpenMerge × List OpenMerge)
  | [] => none
  | m :: ms =>
    if m.written = false ∧ m.column = column then some (m, { m with written := true } :: ms)
    else (takeDue? column ms).map fun p => (p.1, m :: p.2)

def owed (ms : List OpenMerge) : Nat := ms.countP fun m => !m.written

/-- The merge with one row fewer to go, if any is left. -/
def nextRow? (m : OpenMerge) : Option OpenMerge :=
  if 1 < m.rowsLeft then some { m with rowsLeft := m.rowsLeft - 1, written := false } else none

/-- The number of rows left to merges, and one for each. -/
def weight : List OpenMerge → Nat
  | [] => 0
  | m :: ms => m.rowsLeft + 1 + weight ms

theorem weight_append : ∀ ms ns : List OpenMerge, weight (ms ++ ns) = weight ms + weight ns
  | [], ns => by simp [weight]
  | m :: ms, ns => by
    rw [List.cons_append, weight, weight, weight_append ms ns]
    omega

theorem owed_takeDue {column : Nat} : ∀ {ms : List OpenMerge} {p : OpenMerge × List OpenMerge},
    takeDue? column ms = some p → owed p.2 + 1 = owed ms
  | m :: ms, p, h => by
    unfold takeDue? at h
    split at h
    · next hm => cases h; simp [owed, hm.1]
    · obtain ⟨q, hq, rfl⟩ := Option.map_eq_some_iff.1 h
      have := owed_takeDue hq
      simp only [owed, List.countP_cons] at this ⊢
      omega

theorem weight_takeDue {column : Nat} : ∀ {ms : List OpenMerge} {p : OpenMerge × List OpenMerge},
    takeDue? column ms = some p → weight p.2 = weight ms
  | m :: ms, p, h => by
    unfold takeDue? at h
    split at h
    · cases h; simp [weight]
    · obtain ⟨q, hq, rfl⟩ := Option.map_eq_some_iff.1 h
      have := weight_takeDue hq
      simp only [weight] at this ⊢
      omega

theorem length_takeDue {column : Nat} : ∀ {ms : List OpenMerge} {p : OpenMerge × List OpenMerge},
    takeDue? column ms = some p → p.2.length = ms.length
  | m :: ms, p, h => by
    unfold takeDue? at h
    split at h
    · cases h; rfl
    · obtain ⟨q, hq, rfl⟩ := Option.map_eq_some_iff.1 h
      simp [length_takeDue hq]

theorem weight_insertByColumn (m : OpenMerge) : ∀ ms, weight (insertByColumn m ms) = m.rowsLeft + 1 + weight ms
  | [] => by simp [insertByColumn, weight]
  | n :: ns => by
    unfold insertByColumn
    split
    · simp [weight]
    · rw [weight, weight, weight_insertByColumn m ns]
      omega

theorem weight_sortByColumn : ∀ ms, weight (sortByColumn ms) = weight ms
  | [] => rfl
  | m :: ms => by
    have := weight_sortByColumn ms
    simp only [sortByColumn, List.foldr_cons] at this ⊢
    rw [weight_insertByColumn, this]
    simp [weight]

theorem length_insertByColumn (m : OpenMerge) : ∀ ms, (insertByColumn m ms).length = ms.length + 1
  | [] => rfl
  | n :: ns => by
    unfold insertByColumn
    split
    · rfl
    · simp [length_insertByColumn m ns]

theorem length_sortByColumn : ∀ ms, (sortByColumn ms).length = ms.length
  | [] => rfl
  | m :: ms => by
    have := length_sortByColumn ms
    simp only [sortByColumn, List.foldr_cons] at this ⊢
    rw [length_insertByColumn, this]
    rfl

theorem weight_nextRow : ∀ ms, weight (ms.filterMap nextRow?) + ms.length ≤ weight ms
  | [] => by simp [weight]
  | m :: ms => by
    have := weight_nextRow ms
    rw [List.length_cons, weight]
    by_cases h : 1 < m.rowsLeft
    · have hm : nextRow? m = some { m with rowsLeft := m.rowsLeft - 1, written := false } := if_pos h
      rw [List.filterMap_cons_some hm]
      show m.rowsLeft - 1 + 1 + weight _ + _ ≤ _
      omega
    · have hm : nextRow? m = none := if_neg h
      rw [List.filterMap_cons_none hm]
      omega

end OpenMerge

namespace GridPen

open OpenMerge

def ofColumns (columns : Nat) : GridPen := ⟨columns, 0, [], [], [], [], []⟩

def put (p : GridPen) (span : Nat) (text : Text) (absorbs : Bool) : GridPen :=
  { p with row := p.row ++ [⟨p.cursor, span, text, absorbs⟩], cursor := Count.add p.cursor span }

def putDue (p : GridPen) : GridPen :=
  match _h : takeDue? p.cursor p.merges with
  | some (m, merges) => putDue ({ p with merges := merges }.put m.span RowCell.continueWord true)
  | none => p
termination_by owed p.merges
decreasing_by
  have : owed merges + 1 = owed p.merges := owed_takeDue _h
  simp only [put]
  omega

/-- The span of the cell of the row above that covers a column, if a `continue` could merge into it. -/
def spanAbove? (above : List PenCell) (column : Nat) : Option Nat :=
  match above.find? fun c => c.start ≤ column && column - c.start < c.span with
  | some c => if c.absorbs then some c.span else none
  | none => none

/-- The cells, as spans and texts, that fill a gap and read back as nothing, or as an empty cell where that cannot be. -/
def filler (above : List PenCell) (cursor gap : Nat) : List (Nat × Text) :=
  if gap = 0 then []
  else if spanAbove? above cursor = some gap then
    if gap = 1 then [(1, RowCell.spaceWord)]
    else (gap - 1, RowCell.continueWord) :: filler above (cursor + (gap - 1)) 1
  else [(gap, RowCell.continueWord)]
termination_by gap

def padTo (p : GridPen) (column : Nat) : GridPen :=
  (filler p.above p.cursor (column - p.cursor)).foldl (fun p f => p.put f.1 f.2 false) p

/-- Writes the `continue` that a merge owes to the row, at its column or, if the row is past it, at the cursor. -/
def settle (p : GridPen) (m : OpenMerge) : GridPen :=
  if m.written then p else (p.padTo m.column).put m.span RowCell.continueWord true

/-- Ends the row.  A row without cells is none. -/
def closeRow (p : GridPen) : GridPen :=
  let merges := sortByColumn p.merges
  let row := (merges.foldl settle p).row
  { p with
    cursor := 0
    row := []
    above := row
    merges := merges.filterMap nextRow? ++ p.started
    started := []
    rows := if row.isEmpty then p.rows else p.rows ++ [row] }

/-- The number of rows that merges still have to go, which closing a row lowers. -/
def pendingWeight (p : GridPen) : Nat := weight p.merges + weight p.started + p.started.length

theorem pendingWeight_putDue (p : GridPen) : p.putDue.pendingWeight = p.pendingWeight := by
  induction h : owed p.merges using Nat.strongRecOn generalizing p with
  | ind n ih =>
    unfold putDue
    split
    · next m merges hm =>
      have ho : owed merges + 1 = owed p.merges := owed_takeDue hm
      have hw : weight merges = weight p.merges := weight_takeDue hm
      rw [ih _ (by simp only [put]; omega) _ rfl]
      simp only [pendingWeight, put, hw]
    · rfl

theorem length_merges_putDue (p : GridPen) : p.putDue.merges.length = p.merges.length := by
  induction h : owed p.merges using Nat.strongRecOn generalizing p with
  | ind n ih =>
    unfold putDue
    split
    · next m merges hm =>
      have ho : owed merges + 1 = owed p.merges := owed_takeDue hm
      rw [ih _ (by simp only [put]; omega) _ rfl]
      exact length_takeDue hm
    · rfl

theorem putDue_of_merges_nil {p : GridPen} (h : p.merges = []) : p.putDue = p := by
  unfold putDue
  split
  · next hm => rw [h] at hm; cases hm
  · rfl

theorem pendingWeight_closeRow (p : GridPen) :
    p.closeRow.pendingWeight + p.merges.length + p.started.length ≤ p.pendingWeight := by
  have h := weight_nextRow (sortByColumn p.merges)
  rw [weight_sortByColumn, length_sortByColumn] at h
  simp only [pendingWeight, closeRow, weight_append, weight, List.length_nil]
  omega

/-- Writes what is owed at the cursor and closes rows until a cell of the given span fits or the row is empty. -/
def makeRoom (p : GridPen) (span : Nat) : GridPen :=
  if 0 < p.putDue.cursor ∧ p.columns < Count.add p.putDue.cursor span then p.putDue.closeRow.makeRoom span
  else p.putDue
termination_by 2 * p.pendingWeight + (if p.cursor = 0 then 0 else 1)
decreasing_by
  rename_i h
  have hc : p.putDue.closeRow.cursor = 0 := rfl
  have h1 := pendingWeight_closeRow p.putDue
  have h2 := pendingWeight_putDue p
  rw [hc]
  by_cases hm : p.merges = []
  · have hp := putDue_of_merges_nil hm
    rw [hp] at h h1 ⊢
    have : p.cursor ≠ 0 := by omega
    simp [this]
    omega
  · have hw : 0 < p.putDue.merges.length := by
      rw [length_merges_putDue]
      exact List.length_pos_iff.2 hm
    simp only [ite_true]
    omega

/-- Writes a cell of a layout.  A span of zero counts as one. -/
def putCell (p : GridPen) (c : Cell) (text : Text) : GridPen :=
  let span := max c.columnSpan 1
  let p := p.makeRoom span
  let started := if 1 < c.rowSpan then [⟨p.cursor, span, c.rowSpan - 1, false⟩] else []
  { p with started := p.started ++ started }.put span text c.kind.isContent

def closeAll (p : GridPen) : GridPen :=
  if p.merges = [] then p else p.closeRow.closeAll
termination_by p.pendingWeight
decreasing_by
  have h := pendingWeight_closeRow p
  have : 0 < p.merges.length := List.length_pos_iff.2 ‹_›
  omega

def finish (p : GridPen) : List (List PenCell) := p.closeRow.closeAll.rows

/-- The text of a cell: an element of several lines is put on one. -/
def cellText : CellKind → Text
  | .content e => Text.joinWith [' '] (Text.lines (ElementLine.write e))
  | .empty => RowCell.spaceWord
  | .continuation => RowCell.continueWord

def bracketed (n : Nat) : Text := '[' :: Text.ofNat n ++ [']', ':', ' ']

/-- The text of a written cell, with its span if the row shows all spans or the span is not one. -/
def penCellText (explicit : Bool) (c : PenCell) : Text :=
  if explicit || 1 < c.span then bracketed c.span ++ c.text else c.text

/-- The text of a row.  Only a full row reads back to its spans without showing them all. -/
def rowText (columns : Nat) (row : List PenCell) : Text :=
  let explicit := decide ((row.map PenCell.span).foldl Count.add 0 < columns)
  bracketed columns ++ ['\x7b', ' '] ++ Text.joinWith [',', ' '] (row.map (penCellText explicit)) ++ [' ', '\x7d']

def lines (p : GridPen) : List Text := p.finish.map (rowText p.columns)

/-- The pen before the first cell of a layout.  A column count of zero counts as one. -/
def ofLayout (l : Layout) : GridPen := ofColumns (max l.columnCount 1)

def write (l : Layout) : GridPen := l.cells.foldl (fun p c => p.putCell c (cellText c.kind)) (ofLayout l)

end GridPen
end Gridmark
