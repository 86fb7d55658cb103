import Gridmark.Yaml.Plain
/-!
# Yaml.Printer — trees as YAML text

A tree is a number, a string, a list or a mapping with string keys, the last three with a tag or without one.  Lists and
mappings go in block style, a list inside a mapping at the mapping's own indentation; empty ones are written `[]` and as
a pair of braces.

A string is plain where that reads back as the same string, in single quotes where it does not, in double quotes where it
holds something that needs an escape, and a block literal where it has more than one line.  A key that is long or has
more than one line stands after a question mark.

The printer keeps the column, whether white space stands before it, and whether only indentation does (`Page`).
-/
namespace Gridmark
namespace Yaml

inductive Tree where
  | number (n : Nat)
  | string (tag : Option Text) (t : Text)
  | list (tag : Option Text) (elements : List Tree)
  | mapping (tag : Option Text) (entries : List (Text × Tree))
deriving Inhabited

inductive Style where
  | plain
  | single
  | double
  | literal
deriving DecidableEq, Inhabited

/-- Text written so far, last character first, and where it stands. -/
structure Page where
  written : Text
  column : Nat
  /-- The last thing written was white space or nothing. -/
  spaced : Bool
  /-- The line holds nothing but indentation and indicators that count as such. -/
  indented : Bool

namespace Page

def blank : Page := ⟨[], 0, true, true⟩

def put (p : Page) (c : Char) : Page := { p with written := c :: p.written, column := p.column + 1 }

def puts (p : Page) (t : Text) : Page := { p with written := t.reverse ++ p.written, column := p.column + t.length }

def putBreak (p : Page) (c : Char) : Page := { p with written := c :: p.written, column := 0 }

/-- Starts a line at an indentation, unless the page stands at one already. -/
def indentTo (p : Page) (indent : Nat) : Page :=
  let p := if !p.indented || indent < p.column || (p.column = indent && !p.spaced) then p.putBreak '\n' else p
  { p.puts (List.replicate (indent - p.column) ' ') with spaced := true, indented := true }

def space (p : Page) : Page := if p.spaced then p else p.put ' '

def mark (p : Page) (t : Text) : Page := { p.puts t with spaced := false, indented := false }

/-- Writes an indicator that counts as indentation. -/
def markIndent (p : Page) (t : Text) : Page := { p.space.puts t with spaced := false }

def text (p : Page) : Text := p.written.reverse

end Page

/-! Which styles a string allows. -/

def anyPair (f g : Char → Bool) : Text → Bool
  | a :: b :: t => (f a && g b) || anyPair f g (b :: t)
  | _ => false

/-- Whether a string starts with what no plain scalar may start with. -/
def startsReserved : Text → Bool
  | [] => false
  | c :: t =>
    ['#', ',', '[', ']', '\x7b', '\x7d', '&', '*', '!', '|', '>', '\'', '"', '%', '@', '\x60'].contains c ||
      ((c == '?' || c == ':' || c == '-') && atBlank t) ||
      (['-', '-', '-'].isPrefixOf (c :: t)) || (['.', '.', '.'].isPrefixOf (c :: t))

/-- Whether a colon with a blank after it, or a number sign with one before it, stands in a string. -/
def holdsReserved (blankBefore : Bool) : Text → Bool
  | [] => false
  | c :: t =>
    (c == ':' && atBlank t) || (c == '#' && blankBefore) || holdsReserved (isBlankOrBreak c || c == '\x00') t

def needsEscapes (t : Text) : Bool := t.any (fun c => !isPrintable c) || anyPair (· == ' ') isBreak t

def plainAllowed (t : Text) : Bool :=
  !needsEscapes t && !t.any isBreak && t.head? != some ' ' && t.getLast? != some ' ' && !startsReserved t &&
    !holdsReserved true t

def singleAllowed (t : Text) : Bool := !needsEscapes t && !anyPair isBreak (· == ' ') t

def literalAllowed (t : Text) : Bool := !needsEscapes t && t.getLast? != some ' '

def styleOf (t : Text) : Style :=
  if t.contains '\n' then if literalAllowed t then .literal else .double
  else if !isTyped t && plainAllowed t then .plain
  else if singleAllowed t then .single
  else .double

/-! The styles. -/

def hex (width n : Nat) : Text :=
  let ds := (Nat.toDigits 16 n).map Char.toUpper
  List.replicate (width - ds.length) '0' ++ ds

def escapeChar (c : Char) : Text :=
  if isPrintable c && !isBreak c && c != '"' && c != '\\' then [c]
  else
    let n := c.toNat
    match c with
    | '\x00' => ['\\', '0']
    | '\x07' => ['\\', 'a']
    | '\x08' => ['\\', 'b']
    | '\t' => ['\\', 't']
    | '\n' => ['\\', 'n']
    | '\x0b' => ['\\', 'v']
    | '\x0c' => ['\\', 'f']
    | '\r' => ['\\', 'r']
    | '\x1b' => ['\\', 'e']
    | '"' => ['\\', '"']
    | '\\' => ['\\', '\\']
    | '\u0085' => ['\\', 'N']
    | '\u2028' => ['\\', 'L']
    | '\u2029' => ['\\', 'P']
    | _ =>
      if n ≤ 0xFF then ['\\', 'x'] ++ hex 2 n
      else if n ≤ 0xFFFF then ['\\', 'u'] ++ hex 4 n
      else ['\\', 'U'] ++ hex 8 n

/-- Writes what stands between single quotes; after a break, what follows is indented. -/
def putSingle (indent : Nat) (afterBreak : Bool) : Text → Page → Page
  | [], p => if afterBreak then p.indentTo indent else p
  | c :: t, p =>
    if isBreak c then
      let p := if !afterBreak && c == '\n' then p.putBreak '\n' else p
      putSingle indent true t { p.putBreak c with indented := true }
    else if c == ' ' then putSingle indent afterBreak t (p.put c)
    else
      let p := if afterBreak then p.indentTo indent else p
      let p := if c == '\'' then p.put c else p
      putSingle indent false t { p.put c with indented := false }

def putLiteral (indent : Nat) (afterBreak : Bool) : Text → Page → Page
  | [], p => p
  | c :: t, p =>
    if isBreak c then putLiteral indent true t { p.putBreak c with indented := true }
    else
      let p := if afterBreak then p.indentTo indent else p
      putLiteral indent false t { p.put c with indented := false }

/-- How the end of a block literal is kept: no break, one break, or more. -/
def chomping (t : Text) : Text :=
  match t.reverse with
  | [] => ['-']
  | [c] => if isBreak c then ['+'] else ['-']
  | c :: d :: _ => if !isBreak c then ['-'] else if isBreak d then ['+'] else []

/-- The indentation of a block literal, which must be given when its first line does not show it. -/
def indentHint : Text → Text
  | [] => []
  | c :: _ => if c == ' ' || isBreak c then ['2'] else []

def putString (indent : Nat) (t : Text) (p : Page) : Page :=
  match styleOf t with
  | .plain => p.space.mark t
  | .single => (putSingle indent false t (p.space.mark ['\''])).mark ['\'']
  | .double => p.space.mark ('"' :: t.flatMap escapeChar ++ ['"'])
  | .literal =>
    let p := (p.space.mark ('|' :: indentHint t ++ chomping t)).putBreak '\n'
    putLiteral indent true t { p with spaced := true, indented := true }

def putTag (tag : Option Text) (p : Page) : Page :=
  match tag with
  | some name => p.space.mark ('!' :: name)
  | none => p

def isSimpleKey (t : Text) : Bool := !t.any isBreak && t.byteSize ≤ 128

def putKey (indent : Nat) (key : Text) (p : Page) : Page :=
  if isSimpleKey key then (putString (indent + 2) key (p.indentTo indent)).mark [':']
  else ((putString (indent + 2) key ((p.indentTo indent).markIndent ['?'])).indentTo indent).markIndent [':']

mutual
/-- Writes a tree; `indent` is the indentation of what is inside a mapping or a list here. -/
def putTree (indent : Nat) (inMapping : Bool) : Tree → Page → Page
  | .number n, p => p.space.mark (Text.ofNat n)
  | .string tag t, p => putString indent t (putTag tag p)
  | .list tag [], p => (putTag tag p).space.mark ['[', ']']
  | .list tag (x :: xs), p =>
    let p := putTag tag p
    putElements (if inMapping && !p.indented then indent - 2 else indent) (x :: xs) p
  | .mapping tag [], p => (putTag tag p).space.mark ['\x7b', '\x7d']
  | .mapping tag (e :: es), p => putEntries indent (e :: es) (putTag tag p)

def putElements (indent : Nat) : List Tree → Page → Page
  | [], p => p
  | x :: xs, p => putElements indent xs (putTree (indent + 2) false x ((p.indentTo indent).markIndent ['-']))

def putEntries (indent : Nat) : List (Text × Tree) → Page → Page
  | [], p => p
  | (key, x) :: es, p => putEntries indent es (putTree (indent + 2) true x (putKey indent key p))
end

def print (x : Tree) : Text := ((putTree 0 false x .blank).indentTo 0).text

end Yaml
end Gridmark
