import Gridmark.Yaml.Basic
/-!
# Yaml.Cursor — a place in YAML text

A cursor holds what is left to read and counts characters, lines and columns.  A carriage return with its line feed is one
break.  Breaks are read as line feeds, but for the line and paragraph separators, which are kept.
-/
namespace Gridmark
namespace Yaml

structure Cursor where
  rest : Text
  index : Nat
  line : Nat
  column : Nat
deriving Inhabited

namespace Cursor

def start (t : Text) : Cursor := ⟨t, 0, 0, 0⟩

/-- Past the given number of characters that are no breaks. -/
def skip (c : Cursor) (n : Nat) : Cursor :=
  { c with rest := c.rest.drop n, index := c.index + n, column := c.column + n }

/-- What stands next, as long as its characters have a property that no break has; and the place after it. -/
def span (c : Cursor) (p : Char → Bool) : Text × Cursor :=
  let t := c.rest.takeWhile p
  (t, c.skip t.length)

def skipWhile (c : Cursor) (p : Char → Bool) : Cursor := (c.span p).2

/-- The break that stands next, as it is read, and the place after it; nothing if no break stands there. -/
def takeBreak (c : Cursor) : Text × Cursor :=
  match c.rest with
  | '\r' :: '\n' :: t => (['\n'], ⟨t, c.index + 2, c.line + 1, 0⟩)
  | b :: t =>
    if isBreak b then
      (if b == '\u2028' || b == '\u2029' then [b] else ['\n'], ⟨t, c.index + 1, c.line + 1, 0⟩)
    else ([], c)
  | [] => ([], c)

def skipBreak (c : Cursor) : Cursor := c.takeBreak.2

def skipComment (c : Cursor) : Cursor :=
  match c.rest with
  | '#' :: _ => c.skipWhile fun x => !isBreak x
  | _ => c

/-- Past the rest of a line that may hold only blanks and a comment, and past its break. -/
def skipRestOfLine? (c : Cursor) : Option Cursor :=
  let c := (c.skipWhile isBlank).skipComment
  if atBreak c.rest then some c.skipBreak else none

/-- Whether a mark of three characters that starts or ends a document stands next, at the start of a line. -/
def atDocumentMark (c : Cursor) (mark : Char) : Bool :=
  c.column == 0 &&
    match c.rest with
    | x :: y :: z :: t => x == mark && y == mark && z == mark && atBlank t
    | _ => false

def atAnyDocumentMark (c : Cursor) : Bool := c.atDocumentMark '-' || c.atDocumentMark '.'

end Cursor
end Yaml
end Gridmark
