import Gridmark.Document
import Gridmark.ElementLine
/-!
# RowCell — the cells of one grid row

A grid row `[N]: { ... }` holds cells between top-level commas.  A cell is `space`, `continue`, an element line or prose,
with a span `[S]:` before it or without one.  Cells without a span share what the spans leave of the N columns: a lone one
at either end of the row takes it all, several take equal parts, and no span goes below one.
-/
namespace Gridmark

structure RowCell where
  kind : CellKind
  span : Option Nat
deriving DecidableEq, Inhabited

namespace GridRow

/-- What follows a run of decimal digits in square brackets and a colon: the digits and the rest. -/
def bracketed? (t : Text) : Option (Text × Text) :=
  match t with
  | '[' :: t =>
    match t.takeWhile Text.isDecimalDigit, t.dropWhile Text.isDecimalDigit with
    | [], _ => none
    | digits, ']' :: rest => (ElementLine.afterColon? rest).map fun rest => (digits, rest)
    | _, _ => none
  | _ => none

/-- The column count and the inside of a grid row.  A count of zero, or one that is no count, makes no grid row. -/
def read? (line : Text) : Option (Nat × Text) :=
  match bracketed? line with
  | none => none
  | some (digits, rest) =>
    match Text.between? '\x7b' '\x7d' rest, Count.read? digits with
    | some cells, some n => if n = 0 then none else some (n, cells)
    | _, _ => none

/-- The span before a cell, and the cell.  A span of zero counts as one, and digits that are no count as the ceiling. -/
def span? (fragment : Text) : Option (Nat × Text) :=
  (bracketed? fragment).map fun p => (max ((Count.read? p.1).getD Count.ceiling) 1, Text.trim p.2)

end GridRow

namespace RowCell

def spaceWord : Text := ['s', 'p', 'a', 'c', 'e']

def continueWord : Text := ['c', 'o', 'n', 't', 'i', 'n', 'u', 'e']

/-- The cell that a text without a span writes; an empty cell spans one column unless told otherwise. -/
def ofBody (span : Option Nat) (body : Text) : RowCell :=
  if body = spaceWord then ⟨.empty, some (span.getD 1)⟩
  else if body = continueWord then ⟨.continuation, span⟩
  else ⟨.content ((ElementLine.read? body).getD (Element.prose body)), span⟩

def read (fragment : Text) : RowCell :=
  match GridRow.span? fragment with
  | some (span, body) => ofBody (some span) body
  | none => ofBody none fragment

def readRow (row : Text) : List RowCell := (splitTop .comma row).map read

def remaining (cells : List RowCell) (columns : Nat) : Nat :=
  columns - (cells.filterMap RowCell.span).foldl Count.add 0

def unspanned (cells : List RowCell) : Nat := (cells.filter fun c => c.span.isNone).length

/-- The span of the cell at an index of a row of `size` cells, `free` columns being left for the `sharers` among them. -/
def resolveSpan (free sharers size index : Nat) (c : RowCell) : Nat :=
  match c.span with
  | some n => max n 1
  | none => max (if sharers = 1 ∧ (index = 0 ∨ index = size - 1) then free else free / sharers) 1

def resolve (cells : List RowCell) (columns : Nat) : List Cell :=
  cells.mapIdx fun index c =>
    Cell.ofKind c.kind (resolveSpan (remaining cells columns) (unspanned cells) cells.length index c)

end RowCell
end Gridmark
