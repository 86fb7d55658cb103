import Gridmark.Yaml.Node
import Gridmark.Yaml.Printer
import Gridmark.Document
/-!
# Yaml.Model — documents as YAML

A record is a mapping of its fields in order; an absent rationale is left out.  An alternative without data is its name,
one with data is its data under a tag.  Reading passes over fields it does not know, refuses a field given twice, and
takes a record as a list of its fields as well; an empty plain scalar counts as an empty list, mapping or record.
Properties, rationale and payload may be missing, and the last of two properties with one key counts.

Following aliases is bounded: a document may follow a hundred times as many as it has nodes.
-/
namespace Gridmark
namespace Yaml

/-! Writing. -/

def ofText (t : Text) : Tree := .string none t

def ofItem (i : GroupItem) : Tree :=
  .mapping none [("trigger".toList, ofText i.trigger), ("content".toList, ofText i.content)]

def ofPayload : Payload → Tree
  | .plain => ofText "plain".toList
  | .action t => .string (some "action".toList) t
  | .input t => .string (some "input".toList) t
  | .markdown t => .string (some "markdown".toList) t
  | .group items => .list (some "group".toList) (items.map ofItem)

def ofElement (e : Element) : Tree :=
  .mapping (some "content".toList)
    ([("kind".toList, ofText e.kind),
      ("properties".toList, .mapping none (e.properties.entries.map fun p => (p.1, ofText p.2)))] ++
      (e.rationale.map fun why => ("rationale".toList, ofText why)).toList ++
      [("payload".toList, ofPayload e.payload)])

def ofCellKind : CellKind → Tree
  | .empty => ofText "empty".toList
  | .continuation => ofText "continuation".toList
  | .content e => ofElement e

def ofCell (c : Cell) : Tree :=
  .mapping none [("kind".toList, ofCellKind c.kind), ("column_span".toList, .number c.columnSpan),
    ("row_span".toList, .number c.rowSpan)]

def ofLayout (l : Layout) : Tree :=
  .mapping none [("column_count".toList, .number l.columnCount), ("cells".toList, .list none (l.cells.map ofCell))]

def ofDocument (d : Document) : Tree := .mapping none [("blocks".toList, .list none (d.blocks.map ofLayout))]

/-! Reading. -/

/-- A reader of nodes, with the number of aliases it may still follow. -/
abbrev Decode := StateT Nat Option

namespace Decode

/-- The node that an anchor number stands for: of several, the one that comes last. -/
def anchored? (anchors : List Anchored) (number : Nat) : Option Node :=
  ((anchors.filter (·.number = number)).foldl
    (fun best a => match best with
      | some b => if b.order < a.order then some a else some b
      | none => some a) none).map Anchored.node

def resolve (anchors : List Anchored) : Node → Decode Node
  | .reference number => do
    match ← get with
    | 0 => failure
    | left + 1 =>
      set left
      match anchored? anchors number with
      | some n => pure n
      | none => failure
  | n => pure n

def isEmpty : Node → Bool
  | .scalar _ .plain [] => true
  | _ => false

def text (anchors : List Anchored) (n : Node) : Decode Text := do
  match ← resolve anchors n with
  | .scalar _ _ t => pure t
  | _ => failure

def intTag : Text := "tag:yaml.org,2002:int".toList

def nullTag : Text := "tag:yaml.org,2002:null".toList

/-- A count, written plain or as a literal tagged as a whole number. -/
def count (anchors : List Anchored) (n : Node) : Decode Nat := do
  match ← resolve anchors n with
  | .scalar tag form t =>
    if form = .plain ∨ (form = .literal ∧ tag = some intTag) then
      match whole? t with
      | some k => if k ≤ Count.ceiling then pure k else failure
      | none => failure
    else failure
  | _ => failure

/-- A list, or an empty plain scalar for the empty one. -/
def list (anchors : List Anchored) (f : Node → Decode α) (n : Node) : Decode (List α) := do
  match ← resolve anchors n with
  | .list _ ns => ns.mapM f
  | n => if isEmpty n then pure [] else failure

def keys (anchors : List Anchored) (es : List (Node × Node)) : Decode (List (Text × Node)) :=
  es.mapM fun e => do pure (← text anchors e.1, e.2)

/-- The value of a field, which may not be given twice. -/
def field (es : List (Text × Node)) (name : Text) : Decode (Option Node) :=
  match es.filter (·.1 = name) with
  | [] => pure none
  | [e] => pure (some e.2)
  | _ => failure

/-- The values of the fields of a record, given as a mapping, as a list, or as an empty plain scalar for none. -/
def fields (anchors : List Anchored) (names : List Text) (n : Node) : Decode (List (Option Node)) := do
  match ← resolve anchors n with
  | .mapping _ es =>
    let es ← keys anchors es
    names.mapM (field es)
  | .list _ ns =>
    if ns.length ≤ names.length then pure (ns.map some ++ List.replicate (names.length - ns.length) none) else failure
  | n => if isEmpty n then pure (names.map fun _ => none) else failure

def tagName? (tag : Option Text) : Option Text :=
  match tag with
  | some ('!' :: name) => some name
  | _ => none

def tagOf : Node → Option Text
  | .scalar tag _ _ => tag
  | .list tag _ => tag
  | .mapping tag _ => tag
  | .reference _ => none

/-- The data of an alternative without data: null, written plain, or nothing. -/
def nothing (n : Node) (a : α) : Decode α :=
  match n with
  | .scalar _ .plain t => if t = [] ∨ isNull t then pure a else failure
  | _ => failure

/-- An alternative: by its tag with its data, or by its name alone. -/
def alternative (anchors : List Anchored) (tagged : Text → Node → Decode α) (named : Text → Option α) (n : Node) :
    Decode α := do
  let n ← resolve anchors n
  match tagName? (tagOf n), n with
  | some name, n => tagged name n
  | none, .scalar _ _ t =>
    match named t with
    | some a => pure a
    | none => failure
  | none, _ => failure

def optionalText (anchors : List Anchored) (n : Node) : Decode (Option Text) := do
  match ← resolve anchors n with
  | .scalar tag .plain t =>
    match tag with
    | none => pure (if t = [] ∨ isNull t then none else some t)
    | some tag =>
      if tag = nullTag then if isNull t then pure none else failure
      else pure (some t)
  | n => some <$> text anchors n

def item (anchors : List Anchored) (n : Node) : Decode GroupItem := do
  match ← fields anchors ["trigger".toList, "content".toList] n with
  | [some trigger, some content] => pure ⟨← text anchors trigger, ← text anchors content⟩
  | _ => failure

def payload (anchors : List Anchored) : Node → Decode Payload :=
  alternative anchors
    (fun name n =>
      if name = "plain".toList then nothing n .plain
      else if name = "action".toList then .action <$> text anchors n
      else if name = "input".toList then .input <$> text anchors n
      else if name = "markdown".toList then .markdown <$> text anchors n
      else if name = "group".toList then .group <$> list anchors (item anchors) n
      else failure)
    (fun name => if name = "plain".toList then some .plain else none)

def properties (anchors : List Anchored) (n : Node) : Decode Properties := do
  match ← resolve anchors n with
  | .mapping _ es =>
    let es ← es.mapM fun e => do pure (← text anchors e.1, ← text anchors e.2)
    pure (Properties.ofList es)
  | n => if isEmpty n then pure .empty else failure

def element (anchors : List Anchored) (n : Node) : Decode Element := do
  match ← fields anchors ["kind".toList, "properties".toList, "rationale".toList, "payload".toList] n with
  | [some kind, props, rationale, load] =>
    pure ⟨← text anchors kind, ← props.elim (pure .empty) (properties anchors),
      ← rationale.elim (pure none) (optionalText anchors), ← load.elim (pure .plain) (payload anchors)⟩
  | _ => failure

def cellKind (anchors : List Anchored) : Node → Decode CellKind :=
  alternative anchors
    (fun name n =>
      if name = "empty".toList then nothing n .empty
      else if name = "continuation".toList then nothing n .continuation
      else if name = "content".toList then .content <$> element anchors n
      else failure)
    (fun name =>
      if name = "empty".toList then some .empty
      else if name = "continuation".toList then some .continuation
      else none)

def cell (anchors : List Anchored) (n : Node) : Decode Cell := do
  match ← fields anchors ["kind".toList, "column_span".toList, "row_span".toList] n with
  | [some kind, some columnSpan, some rowSpan] =>
    pure ⟨← cellKind anchors kind, ← count anchors columnSpan, ← count anchors rowSpan⟩
  | _ => failure

def layout (anchors : List Anchored) (n : Node) : Decode Layout := do
  match ← fields anchors ["column_count".toList, "cells".toList] n with
  | [some columnCount, some cells] => pure ⟨← count anchors columnCount, ← list anchors (cell anchors) cells⟩
  | _ => failure

def document (anchors : List Anchored) (n : Node) : Decode Document := do
  match ← fields anchors ["blocks".toList] n with
  | [some blocks] => pure ⟨← list anchors (layout anchors) blocks⟩
  | _ => failure

end Decode
end Yaml

namespace Document

def toYamlText (d : Document) : Text := Yaml.print (Yaml.ofDocument d)

def ofYamlText? (t : Text) : Option Document := do
  let s ← Yaml.Stream.ofText? t
  (Yaml.Decode.document s.anchored s.root).run' (100 * s.size)

end Document
end Gridmark
