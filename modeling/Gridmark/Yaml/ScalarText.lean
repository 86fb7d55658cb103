import Gridmark.Yaml.Cursor
import Gridmark.Yaml.Plain
/-!
# Yaml.ScalarText — the three kinds of scalars as text

Plain scalars, quoted scalars and block scalars, each read from the cursor to the place after it.  Line breaks inside a
plain or quoted scalar are folded: a single one becomes a space, and of several the first is dropped.  A block scalar
keeps its breaks or folds those between lines that do not start with a blank, and its header says how its end is kept.

`none` stands for text that is no YAML.  The bounds on recursion are the length of what is left.
-/
namespace Gridmark
namespace Yaml

/-- The text of white space between two words: blanks, or breaks folded. -/
def folded (blanks firstBreak laterBreaks : Text) (broken : Bool) : Text :=
  if !broken then blanks
  else if firstBreak == ['\n'] then if laterBreaks == [] then [' '] else laterBreaks
  else firstBreak ++ laterBreaks

/-- White space between words: its blanks before any break, its first break, its later breaks, and whether it has a
break. -/
structure Gap where
  blanks : Text
  firstBreak : Text
  laterBreaks : Text
  broken : Bool
deriving Inhabited

namespace Gap

def none : Gap := ⟨[], [], [], false⟩

def text (g : Gap) : Text := folded g.blanks g.firstBreak g.laterBreaks g.broken

/-- Reads white space on from a gap.  A tab left of the given column, after a break, is refused. -/
def read? (minColumn : Nat) : Nat → Gap → Cursor → Option (Gap × Cursor)
  | 0, g, c => some (g, c)
  | fuel + 1, g, c =>
    match c.rest with
    | [] => some (g, c)
    | x :: _ =>
      if isBlank x then
        if g.broken then if x == '\t' && c.column < minColumn then Option.none else read? minColumn fuel g (c.skip 1)
        else read? minColumn fuel { g with blanks := g.blanks ++ [x] } (c.skip 1)
      else if isBreak x then
        let (b, c) := c.takeBreak
        if g.broken then read? minColumn fuel { g with laterBreaks := g.laterBreaks ++ b } c
        else read? minColumn fuel { g with blanks := [], firstBreak := b, broken := true } c
      else some (g, c)

end Gap

def isFlowIndicator (c : Char) : Bool := c == ',' || c == '[' || c == ']' || c == '\x7b' || c == '\x7d'

/-- The word of a plain scalar that stands next.  In a flow collection, a colon right before an indicator is refused. -/
def plainWord? (inFlow : Bool) : Text → Option Text
  | [] => some []
  | c :: t =>
    if isBlankOrBreak c then some []
    else if inFlow && c == ':' && (t.head?.any fun d => isFlowIndicator d || d == '?') then none
    else if (c == ':' && atBlank t) || (inFlow && isFlowIndicator c) then some []
    else (plainWord? inFlow t).map (c :: ·)

/-- Reads a plain scalar on, `gap` standing between what was read and the cursor.  The last component tells whether the
scalar ended after a break. -/
def plain? (inFlow : Bool) (minColumn : Nat) : Nat → Text → Gap → Cursor → Option (Text × Cursor × Bool)
  | 0, done, gap, c => some (done, c, gap.broken)
  | fuel + 1, done, gap, c =>
    if c.atAnyDocumentMark || c.rest.head? == some '#' then some (done, c, gap.broken)
    else do
      let word ← plainWord? inFlow c.rest
      let (done, gap) := if word == [] then (done, gap) else (done ++ gap.text ++ word, Gap.none)
      let c := c.skip word.length
      if c.rest == [] || !(c.rest.head?.any isBlankOrBreak) then some (done, c, gap.broken)
      else
        let (gap, c) ← gap.read? minColumn (c.rest.length + 1) c
        if !inFlow && c.column < minColumn then some (done, c, gap.broken)
        else plain? inFlow minColumn fuel done gap c

def escaped? : Char → Option Char
  | '0' => some '\x00'
  | 'a' => some '\x07'
  | 'b' => some '\x08'
  | 't' => some '\t'
  | '\t' => some '\t'
  | 'n' => some '\n'
  | 'v' => some '\x0b'
  | 'f' => some '\x0c'
  | 'r' => some '\r'
  | 'e' => some '\x1b'
  | ' ' => some ' '
  | '"' => some '"'
  | '/' => some '/'
  | '\\' => some '\\'
  | 'N' => some '\u0085'
  | '_' => some '\u00a0'
  | 'L' => some '\u2028'
  | 'P' => some '\u2029'
  | _ => none

def escapeWidth : Char → Nat
  | 'x' => 2
  | 'u' => 4
  | 'U' => 8
  | _ => 0

def coded? (width : Nat) (t : Text) : Option Char := do
  let ds := t.take width
  if ds.length < width then none
  else
    let n ← digits? 16 ds 0
    if (0xD800 ≤ n ∧ n ≤ 0xDFFF) ∨ 0x10FFFF < n then none else some (Char.ofNat n)

/-- Reads a word of a quoted scalar on: what was read, last character first, whether an escaped break ended it, and the
place after it. -/
def quotedWord? (quote : Char) : Nat → Text → Cursor → Option (Text × Bool × Cursor)
  | 0, done, c => some (done, false, c)
  | fuel + 1, done, c =>
    match c.rest with
    | [] => some (done, false, c)
    | x :: t =>
      if isBlankOrBreak x then some (done, false, c)
      else if x == quote then
        if quote == '\'' && t.head? == some '\'' then quotedWord? quote fuel ('\'' :: done) (c.skip 2)
        else some (done, false, c)
      else if quote == '"' && x == '\\' then
        match t with
        | [] => none
        | e :: u =>
          if isBreak e then some (done, true, (c.skip 1).skipBreak)
          else if escapeWidth e = 0 then
            match escaped? e with
            | some y => quotedWord? quote fuel (y :: done) (c.skip 2)
            | none => none
          else
            match coded? (escapeWidth e) u with
            | some y => quotedWord? quote fuel (y :: done) (c.skip (2 + escapeWidth e))
            | none => none
      else quotedWord? quote fuel (x :: done) (c.skip 1)

/-- Reads a quoted scalar on, up to and past its closing quote, `done` being what was read, last character first. -/
def quoted? (quote : Char) : Nat → Text → Cursor → Option (Text × Cursor)
  | 0, _, _ => none
  | fuel + 1, done, c =>
    if c.atAnyDocumentMark || c.rest == [] then none
    else do
      let (done, broken, c) ← quotedWord? quote (c.rest.length + 1) done c
      if c.rest.head? == some quote then some (done.reverse, c.skip 1)
      else
        let (gap, c) ← Gap.read? 0 (c.rest.length + 1) { Gap.none with broken := broken } c
        quoted? quote fuel (gap.text.reverse ++ done) c

/-- How a block scalar keeps the breaks at its end. -/
inductive Chomping where
  | strip
  | clip
  | keep
deriving DecidableEq

def chomping? (c : Cursor) : Option (Chomping × Cursor) :=
  match c.rest with
  | '+' :: _ => some (.keep, c.skip 1)
  | '-' :: _ => some (.strip, c.skip 1)
  | _ => none

/-- An indentation indicator, zero if none stands next.  The digit zero is refused. -/
def increment? (c : Cursor) : Option (Nat × Cursor) :=
  match c.rest with
  | d :: _ =>
    if d == '0' then none else if d.isDigit then some (d.toNat - '0'.toNat, c.skip 1) else some (0, c)
  | [] => some (0, c)

def blockHeader? (c : Cursor) : Option (Chomping × Nat × Cursor) :=
  match chomping? c with
  | some (chomp, c) => (increment? c).map fun p => (chomp, p.1, p.2)
  | none => do
    let (increment, c) ← increment? c
    if increment = 0 then some (.clip, 0, c)
    else match chomping? c with
      | some (chomp, c) => some (chomp, increment, c)
      | none => some (.clip, increment, c)

/-- Reads the indentation and the empty lines before a line of a block scalar: the breaks, the widest indentation and
the place after them.  An indentation of zero is not known yet.  A tab in the indentation is refused. -/
def blockBreaks? (indent : Nat) : Nat → Text → Nat → Cursor → Option (Text × Nat × Cursor)
  | 0, breaks, widest, c => some (breaks, widest, c)
  | fuel + 1, breaks, widest, c =>
    let spaces := (c.rest.takeWhile (· == ' ')).length
    let c := c.skip (if indent = 0 then spaces else min spaces (indent - c.column))
    let widest := max widest c.column
    match c.rest with
    | [] => some (breaks, widest, c)
    | x :: _ =>
      if x == '\t' && (indent == 0 || c.column < indent) then none
      else if isBreak x then
        let (b, c) := c.takeBreak
        blockBreaks? indent fuel (breaks ++ b) widest c
      else some (breaks, widest, c)

structure BlockState where
  done : Text
  /-- The break at the end of the line before. -/
  lastBreak : Text
  /-- The breaks of empty lines after it. -/
  emptyLines : Text
  /-- The line before starts with a blank. -/
  afterBlank : Bool

def blockLines? (literal : Bool) (indent : Nat) : Nat → BlockState → Cursor → Option (BlockState × Cursor)
  | 0, s, c => some (s, c)
  | fuel + 1, s, c =>
    match c.rest with
    | [] => some (s, c)
    | x :: _ =>
      if c.column ≠ indent then some (s, c)
      else do
        let blank := isBlank x
        let joint :=
          if !literal && s.lastBreak == ['\n'] && !s.afterBlank && !blank then if s.emptyLines == [] then [' '] else []
          else s.lastBreak
        let (line, c) := c.span fun y => !isBreak y
        let (b, c) := c.takeBreak
        let (empty, _, c) ← blockBreaks? indent (c.rest.length + 1) [] 0 c
        blockLines? literal indent fuel ⟨s.done ++ joint ++ s.emptyLines ++ line, b, empty, blank⟩ c

/-- Reads a block scalar from after its indicator.  `parent` is one more than the indentation around it. -/
def block? (literal : Bool) (parent : Nat) (c : Cursor) : Option (Text × Cursor) := do
  let (chomp, increment, c) ← blockHeader? c
  let c ← c.skipRestOfLine?
  let given := if increment = 0 then 0 else if parent = 0 then increment else parent - 1 + increment
  let (breaks, widest, c) ← blockBreaks? given (c.rest.length + 1) [] 0 c
  let indent := if given = 0 then max (max widest parent) 1 else given
  let (s, c) ← blockLines? literal indent (c.rest.length + 1) ⟨[], [], breaks, false⟩ c
  let last := if chomp = .strip then [] else s.lastBreak
  let empty := if chomp = .keep then s.emptyLines else []
  some (s.done ++ last ++ empty, c)

end Yaml
end Gridmark
