import Gridmark.Json.Reader
import Gridmark.Document
/-!
# Json.Model — documents as JSON

A record is an object of its fields in order; an absent rationale is left out.  An alternative without data is its name,
one with data an object of one member.  Reading passes over fields it does not know, refuses a field given twice, and
takes a record as an array of its fields as well; properties, rationale and payload may be missing, and the last of two
properties with one key counts.
-/
namespace Gridmark
namespace Json

/-! Writing. -/

def ofItem (i : GroupItem) : Json :=
  ofMembers [("trigger".toList, ofText i.trigger), ("content".toList, ofText i.content)]

def ofPayload : Payload → Json
  | .plain => ofText "plain".toList
  | .action t => ofMembers [("action".toList, ofText t)]
  | .input t => ofMembers [("input".toList, ofText t)]
  | .markdown t => ofMembers [("markdown".toList, ofText t)]
  | .group items => ofMembers [("group".toList, .array (items.map ofItem))]

def ofProperties (p : Properties) : Json := ofMembers (p.entries.map fun e => (e.1, ofText e.2))

def ofElement (e : Element) : Json :=
  ofMembers ([("kind".toList, ofText e.kind), ("properties".toList, ofProperties e.properties)] ++
    (e.rationale.map fun why => ("rationale".toList, ofText why)).toList ++
    [("payload".toList, ofPayload e.payload)])

def ofCellKind : CellKind → Json
  | .empty => ofText "empty".toList
  | .continuation => ofText "continuation".toList
  | .content e => ofMembers [("content".toList, ofElement e)]

def ofCell (c : Cell) : Json :=
  ofMembers [("kind".toList, ofCellKind c.kind), ("column_span".toList, .natural c.columnSpan),
    ("row_span".toList, .natural c.rowSpan)]

def ofLayout (l : Layout) : Json :=
  ofMembers [("column_count".toList, .natural l.columnCount), ("cells".toList, .array (l.cells.map ofCell))]

def ofDocument (d : Document) : Json := ofMembers [("blocks".toList, .array (d.blocks.map ofLayout))]

/-! Reading. -/

def text? : Json → Option Text
  | .string t => t
  | _ => none

def count? : Json → Option Nat
  | .natural n => if n ≤ Count.ceiling then some n else none
  | _ => none

def list? (f : Json → Option α) : Json → Option (List α)
  | .array js => js.mapM f
  | _ => none

/-- The value of a field of an object: an outer `none` if it is given twice. -/
def field? (name : Text) (ms : List (Option Text × Json)) : Option (Option Json) :=
  match ms.filter fun m => m.1 = some name with
  | [] => some none
  | [m] => some (some m.2)
  | _ => none

/-- The values of the fields of a record, given as an object or as an array. -/
def fields? (names : List Text) : Json → Option (List (Option Json))
  | .object ms => if ms.all fun m => m.1.isSome then names.mapM fun name => field? name ms else none
  | .array js =>
    if js.length ≤ names.length then some (js.map some ++ List.replicate (names.length - js.length) none) else none
  | _ => none

/-- The name and the data of an alternative given as an object. -/
def tagged? : Json → Option (Text × Json)
  | .object [(some name, j)] => some (name, j)
  | _ => none

def toItem? (j : Json) : Option GroupItem :=
  match fields? ["trigger".toList, "content".toList] j with
  | some [some trigger, some content] => do pure ⟨← text? trigger, ← text? content⟩
  | _ => none

def toPayload? (j : Json) : Option Payload :=
  match j with
  | .string t => if t = some "plain".toList then some .plain else none
  | _ =>
    match tagged? j with
    | none => none
    | some (name, j) =>
      if name = "plain".toList then match j with
        | .null => some .plain
        | _ => none
      else if name = "action".toList then (text? j).map .action
      else if name = "input".toList then (text? j).map .input
      else if name = "markdown".toList then (text? j).map .markdown
      else if name = "group".toList then (list? toItem? j).map .group
      else none

def toEntry? (m : Option Text × Json) : Option (Text × Text) := do pure (← m.1, ← text? m.2)

def toProperties? : Json → Option Properties
  | .object ms => (ms.mapM toEntry?).map Properties.ofList
  | _ => none

def toRationale? : Json → Option (Option Text)
  | .null => some none
  | j => (text? j).map some

def toElement? (j : Json) : Option Element :=
  match fields? ["kind".toList, "properties".toList, "rationale".toList, "payload".toList] j with
  | some [some kind, properties, rationale, payload] => do
    pure ⟨← text? kind, ← properties.elim (some .empty) toProperties?, ← rationale.elim (some none) toRationale?,
      ← payload.elim (some .plain) toPayload?⟩
  | _ => none

def toCellKind? (j : Json) : Option CellKind :=
  match j with
  | .string t =>
    if t = some "empty".toList then some .empty
    else if t = some "continuation".toList then some .continuation
    else none
  | _ =>
    match tagged? j with
    | none => none
    | some (name, j) =>
      if name = "empty".toList then match j with
        | .null => some .empty
        | _ => none
      else if name = "continuation".toList then match j with
        | .null => some .continuation
        | _ => none
      else if name = "content".toList then (toElement? j).map .content
      else none

def toCell? (j : Json) : Option Cell :=
  match fields? ["kind".toList, "column_span".toList, "row_span".toList] j with
  | some [some kind, some columnSpan, some rowSpan] => do
    pure ⟨← toCellKind? kind, ← count? columnSpan, ← count? rowSpan⟩
  | _ => none

def toLayout? (j : Json) : Option Layout :=
  match fields? ["column_count".toList, "cells".toList] j with
  | some [some columnCount, some cells] => do pure ⟨← count? columnCount, ← list? toCell? cells⟩
  | _ => none

def toDocument? (j : Json) : Option Document :=
  match fields? ["blocks".toList] j with
  | some [some blocks] => do pure ⟨← list? toLayout? blocks⟩
  | _ => none

end Json

namespace Document

def toJsonText (d : Document) : Text := Json.pretty 0 (Json.ofDocument d) ++ ['\n']

def ofJsonText? (t : Text) : Option Document := (Json.read? t).bind Json.toDocument?

end Document
end Gridmark
