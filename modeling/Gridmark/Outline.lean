import Gridmark.Document
/-!
# Outline — a document as one line per node

Every node is a line: two blanks for each level above it, an icon and a label.  The label of an element or of a group
item is its first line, cut to thirty characters of which the last is then an ellipsis, so no node takes two lines.
-/
namespace Gridmark

structure OutlineLine where
  depth : Nat
  icon : Char
  label : Text
deriving DecidableEq, Inhabited

namespace Outline

def maxLabel : Nat := 30

def shorten (t : Text) : Text :=
  let line := Element.firstLine t
  if maxLabel < line.length then line.take (maxLabel - 1) ++ ['…'] else line

def elementIcon (e : Element) : Char :=
  match e.payload with
  | .markdown _ => '¶'
  | .group _ => '☰'
  | _ => '▢'

def size (c : Cell) : Text := '[' :: Text.ofNat c.columnSpan ++ 'x' :: Text.ofNat c.rowSpan ++ [']']

def ofItem (item : GroupItem) : OutlineLine := ⟨3, '•', shorten item.trigger⟩

def ofCell (c : Cell) : List OutlineLine :=
  match c.kind with
  | .empty => [⟨2, '□', "space ".toList ++ size c⟩]
  | .continuation => [⟨2, '↧', "continue ".toList ++ size c⟩]
  | .content e => ⟨2, elementIcon e, shorten e.label ++ ' ' :: size c⟩ :: e.items.map ofItem

def ofLayout (l : Layout) : List OutlineLine :=
  ⟨1, '▦', "Layout ".toList ++ Text.ofNat l.columnCount ++ " cols, ".toList ++ Text.ofNat l.cells.length ++
    " cells".toList⟩ :: l.cells.flatMap ofCell

def ofDocument (d : Document) : List OutlineLine :=
  ⟨0, '⧉', "Document (".toList ++ Text.ofNat d.blocks.length ++ " blocks)".toList⟩ :: d.blocks.flatMap ofLayout

def lineText (l : OutlineLine) : Text := List.replicate (2 * l.depth) ' ' ++ l.icon :: ' ' :: l.label ++ ['\n']

end Outline

namespace Document

def outline (d : Document) : Text := (Outline.ofDocument d).flatMap Outline.lineText

end Document
end Gridmark
