import Gridmark.Yaml.ScalarText
/-!
# Yaml.Lexeme — YAML text as lexemes

Indentation becomes explicit: the start and the end of every block list and block mapping is a lexeme of its own.  A
simple key is known as a key only at the colon after it, so the lexemes that announce it are put in before it then; until
then it is a candidate, one for each level of flow collections, which must stay on its line and within 1024 characters.

`none` stands for text that is no YAML.
-/
namespace Gridmark
namespace Yaml

/-- How a scalar is written, as far as it matters to what the scalar stands for. -/
inductive ScalarForm where
  | plain
  | literal
  /-- Quoted or folded. -/
  | other
deriving DecidableEq, Inhabited

inductive Lexeme where
  | version (major minor : Nat)
  /-- A directive that names the beginning of tags. -/
  | tagDirective (handle beginning : Text)
  | documentStart
  | documentEnd
  | listStart
  | mappingStart
  | blockEnd
  | flowListStart
  | flowListEnd
  | flowMappingStart
  | flowMappingEnd
  /-- The dash before an element of a block list. -/
  | element
  | comma
  | key
  | value
  | reference (name : Text)
  | anchor (name : Text)
  | tag (handle suffix : Text)
  | scalar (form : ScalarForm) (t : Text)
  | ending
deriving DecidableEq, Inhabited

/-! Anchors, tags and directives. -/

def anchorName? (c : Cursor) : Option (Text × Cursor) :=
  let (name, c) := c.span isWordChar
  let ended := atBlank c.rest ||
    c.rest.head?.any fun x => ['?', ':', ',', ']', '\x7d', '%', '@', '\x60'].contains x
  if name == [] || !ended then none else some (name, c)

def percentByte? : Text → Option Nat
  | '%' :: a :: b :: _ => do pure ((← digit? 16 a) * 16 + (← digit? 16 b))
  | _ => none

def utf8Width (byte : Nat) : Nat :=
  if byte < 0x80 then 1
  else if byte < 0xC0 then 0
  else if byte < 0xE0 then 2
  else if byte < 0xF0 then 3
  else if byte < 0xF8 then 4
  else 0

/-- The number that the bits of the following bytes of a character are put after. -/
def percentTail? : Nat → Nat → Text → Option Nat
  | 0, n, _ => some n
  | count + 1, n, t => do
    let b ← percentByte? t
    if b / 0x40 = 2 then percentTail? count (n * 0x40 + b % 0x40) (t.drop 3) else none

/-- A character written as percent signs and hexadecimal digits, and the number of its bytes. -/
def percentChar? (t : Text) : Option (Char × Nat) := do
  let b ← percentByte? t
  let width := utf8Width b
  if width = 0 then none
  else
    let first := if width = 1 then b else b % Nat.pow 2 (7 - width)
    let n ← percentTail? (width - 1) first (t.drop 3)
    pure (Char.ofNat n, width)

/-- Whether a character may stand in a tag; a verbatim tag may hold commas and square brackets too. -/
def isTagChar (verbatim : Bool) (c : Char) : Bool :=
  isWordChar c || [';', '/', '?', ':', '@', '&', '=', '+', '$', '.', '!', '~', '*', '\'', '(', ')'].contains c ||
    (verbatim && (c == ',' || c == '[' || c == ']'))

def tagChars? (verbatim : Bool) : Nat → Cursor → Option (Text × Cursor)
  | 0, c => some ([], c)
  | fuel + 1, c =>
    match c.rest with
    | [] => some ([], c)
    | x :: _ =>
      if x == '%' then do
        let (y, width) ← percentChar? c.rest
        let (ys, c) ← tagChars? verbatim fuel (c.skip (3 * width))
        pure (y :: ys, c)
      else if isTagChar verbatim x then do
        let (ys, c) ← tagChars? verbatim fuel (c.skip 1)
        pure (x :: ys, c)
      else some ([], c)

/-- What an exclamation mark and word characters write, with a second exclamation mark if one stands after them. -/
def tagHandle? (c : Cursor) : Option (Text × Cursor) :=
  match c.rest with
  | '!' :: _ =>
    let (word, c) := (c.skip 1).span isWordChar
    match c.rest with
    | '!' :: _ => some ('!' :: word ++ ['!'], c.skip 1)
    | _ => some ('!' :: word, c)
  | _ => none

/-- A tag, in angle brackets or after a handle.  An exclamation mark alone is a tag without handle. -/
def tag? (inFlow : Bool) (c : Cursor) : Option (Lexeme × Cursor) := do
  let (lexeme, c) ← match c.rest with
    | '!' :: '<' :: _ => do
      let (suffix, c) ← tagChars? true (c.rest.length + 1) (c.skip 2)
      if suffix == [] || c.rest.head? != some '>' then none else some (Lexeme.tag [] suffix, c.skip 1)
    | _ => do
      let (handle, c) ← tagHandle? c
      let (more, c) ← tagChars? false (c.rest.length + 1) c
      if 1 < handle.length && handle.getLast? == some '!' then
        if more == [] then none else some (Lexeme.tag handle more, c)
      else
        let suffix := handle.drop 1 ++ more
        some (if suffix == [] then Lexeme.tag [] ['!'] else Lexeme.tag ['!'] suffix, c)
  if atBlank c.rest || (inFlow && c.rest.head? == some ',') then some (lexeme, c) else none

/-- A number of at most nine digits. -/
def versionNumber? (c : Cursor) : Option (Nat × Cursor) := do
  let (ds, c) := c.span Char.isDigit
  if ds == [] || 9 < ds.length then none else pure (← Text.digitsValue? ds 0, c)

def directive? (c : Cursor) : Option (Lexeme × Cursor) := do
  let (name, c) := (c.skip 1).span isWordChar
  if !atBlank c.rest then none
  else
    let c := c.skipWhile isBlank
    let (lexeme, c) ←
      if name == "YAML".toList then do
        let (major, c) ← versionNumber? c
        match c.rest with
        | '.' :: _ => do
          let (minor, c) ← versionNumber? (c.skip 1)
          some (Lexeme.version major minor, c)
        | _ => none
      else if name == "TAG".toList then do
        let (handle, c) ← tagHandle? c
        if (handle != ['!'] && handle.getLast? != some '!') || !(c.rest.head?.any isBlank) then none
        else
          let c := c.skipWhile isBlank
          let (beginning, c) ← tagChars? true (c.rest.length + 1) c
          if beginning == [] || !atBlank c.rest then none else some (Lexeme.tagDirective handle beginning, c)
      else none
    pure (lexeme, ← c.skipRestOfLine?)

/-! The lexemes of a text. -/

/-- A place where a simple key may have started: the number of the lexeme there, and where it stands. -/
structure KeyCandidate where
  lexeme : Nat
  index : Nat
  line : Nat
  column : Nat
  /-- Nothing but a key may stand there. -/
  required : Bool
deriving Inhabited

structure Scan where
  cursor : Cursor
  lexemes : Array Lexeme
  /-- One more than the column of the block collection around the cursor; zero outside of all. -/
  indent : Nat
  outerIndents : List Nat
  keyAllowed : Bool
  /-- The candidate at this level of flow collections. -/
  candidate : Option KeyCandidate
  /-- The candidates of the levels around it, the nearest first; outside flow collections there are none. -/
  outerCandidates : List (Option KeyCandidate)

namespace Scan

def start (t : Text) : Scan := ⟨Cursor.start t, #[], 0, [], true, none, []⟩

def inFlow (s : Scan) : Bool := !s.outerCandidates.isEmpty

def push (s : Scan) (l : Lexeme) : Scan := { s with lexemes := s.lexemes.push l }

def moveTo (s : Scan) (c : Cursor) : Scan := { s with cursor := c }

/-- Past white space, comments and breaks.  A tab may not stand where a simple key may. -/
def skipSpace : Nat → Scan → Scan
  | 0, s => s
  | fuel + 1, s =>
    let c := s.cursor
    let c := if c.column == 0 && c.rest.head? == some '\ufeff' then c.skip 1 else c
    let c := c.skipWhile fun x => x == ' ' || ((s.inFlow || !s.keyAllowed) && x == '\t')
    let c := c.skipComment
    match c.rest with
    | x :: _ =>
      if isBreak x then skipSpace fuel { s with cursor := c.skipBreak, keyAllowed := s.keyAllowed || !s.inFlow }
      else s.moveTo c
    | [] => s.moveTo c

/-- The candidate, if the cursor is still near enough.  A required one may not be lost. -/
def keepCandidate? (c : Cursor) : Option KeyCandidate → Option (Option KeyCandidate)
  | none => some none
  | some k =>
    if k.line < c.line || k.index + 1024 < c.index then if k.required then none else some none else some (some k)

/-- Gives up the candidates that the cursor has left behind. -/
def dropStale? (s : Scan) : Option Scan := do
  let outer ← s.outerCandidates.mapM (keepCandidate? s.cursor)
  pure { s with candidate := ← keepCandidate? s.cursor s.candidate, outerCandidates := outer }

def dropCandidate? (s : Scan) : Option Scan :=
  match s.candidate with
  | some k => if k.required then none else some { s with candidate := none }
  | none => some s

def noteCandidate? (s : Scan) : Option Scan :=
  if s.keyAllowed then do
    let s ← s.dropCandidate?
    let c := s.cursor
    pure { s with candidate := some ⟨s.lexemes.size, c.index, c.line, c.column, !s.inFlow && s.indent == c.column + 1⟩ }
  else some s

/-- Opens a block collection at a column, if one is not open there, by a lexeme put at a place. -/
def openBlock (s : Scan) (column : Nat) (place : Nat) (l : Lexeme) : Scan :=
  if s.inFlow || column < s.indent then s
  else
    { s with
      indent := column + 1
      outerIndents := s.indent :: s.outerIndents
      lexemes := s.lexemes.insertIdxIfInBounds place l }

def closeBlocksFrom (column : Nat) : List Nat → Scan → Scan
  | [], s => s
  | outer :: outers, s =>
    if column < s.indent then
      closeBlocksFrom column outers { s with indent := outer, outerIndents := outers, lexemes := s.lexemes.push .blockEnd }
    else s

/-- Closes the block collections right of a column; `minimum` is one more than that column. -/
def closeBlocks (s : Scan) (minimum : Nat) : Scan := if s.inFlow then s else closeBlocksFrom minimum s.outerIndents s

/-- A lexeme that ends everything open: a directive, a document mark, the end. -/
def outermost? (s : Scan) : Option Scan := do
  let s ← (s.closeBlocks 0).dropCandidate?
  pure { s with keyAllowed := false }

def openFlow? (s : Scan) (l : Lexeme) : Option Scan := do
  let s ← s.noteCandidate?
  pure { s.push l with
    cursor := s.cursor.skip 1, keyAllowed := true, candidate := none,
    outerCandidates := s.candidate :: s.outerCandidates }

def closeFlow? (s : Scan) (l : Lexeme) : Option Scan := do
  let s ← s.dropCandidate?
  let s := match s.outerCandidates with
    | [] => s
    | k :: ks => { s with candidate := k, outerCandidates := ks }
  pure { s.push l with cursor := s.cursor.skip 1, keyAllowed := false }

def comma? (s : Scan) : Option Scan := do
  let s ← s.dropCandidate?
  pure { s.push .comma with cursor := s.cursor.skip 1, keyAllowed := true }

def element? (s : Scan) : Option Scan := do
  if !s.inFlow && !s.keyAllowed then none
  else
    let s ← (s.openBlock s.cursor.column s.lexemes.size .listStart).dropCandidate?
    pure { s.push .element with cursor := s.cursor.skip 1, keyAllowed := true }

def key? (s : Scan) : Option Scan := do
  if !s.inFlow && !s.keyAllowed then none
  else
    let s ← (s.openBlock s.cursor.column s.lexemes.size .mappingStart).dropCandidate?
    pure { s.push .key with cursor := s.cursor.skip 1, keyAllowed := !s.inFlow }

/-- A colon before a value.  If a candidate stands before it, that is a key. -/
def value? (s : Scan) : Option Scan :=
  match s.candidate with
  | some k =>
    let s := { s with lexemes := s.lexemes.insertIdxIfInBounds k.lexeme .key, candidate := none }
    let s := s.openBlock k.column k.lexeme .mappingStart
    some { s.push .value with cursor := s.cursor.skip 1, keyAllowed := false }
  | none =>
    if s.inFlow then some { s.push .value with cursor := s.cursor.skip 1, keyAllowed := false }
    else if !s.keyAllowed then none
    else
      let s := s.openBlock s.cursor.column s.lexemes.size .mappingStart
      some { s.push .value with cursor := s.cursor.skip 1, keyAllowed := true }

/-- An alias, an anchor, a tag or a quoted scalar, read by the given reader. -/
def within? (s : Scan) (read? : Cursor → Option (Lexeme × Cursor)) : Option Scan := do
  let s ← s.noteCandidate?
  let (l, c) ← read? s.cursor
  pure { s.push l with cursor := c, keyAllowed := false }

def block? (s : Scan) (literal : Bool) : Option Scan := do
  let s ← s.dropCandidate?
  let (t, c) ← Yaml.block? literal s.indent (s.cursor.skip 1)
  pure { s.push (.scalar (if literal then .literal else .other) t) with cursor := c, keyAllowed := true }

def plain? (s : Scan) : Option Scan := do
  let s ← s.noteCandidate?
  let (t, c, broken) ← Yaml.plain? s.inFlow s.indent (s.cursor.rest.length + 1) [] Gap.none s.cursor
  pure { s.push (.scalar .plain t) with cursor := c, keyAllowed := broken }

def readQuoted? (quote : Char) (c : Cursor) : Option (Lexeme × Cursor) :=
  (quoted? quote (c.rest.length + 1) [] (c.skip 1)).map fun p => (.scalar .other p.1, p.2)

def indicators : List Char :=
  ['-', '?', ':', ',', '[', ']', '\x7b', '\x7d', '#', '&', '*', '!', '|', '>', '\'', '"', '%', '@', '\x60']

def startsPlain (inFlow : Bool) (x : Char) (t : Text) : Bool :=
  (!isBlankOrBreak x && !indicators.contains x) ||
  (x == '-' && !(t.head?.any isBlank)) || (!inFlow && (x == '?' || x == ':') && !atBlank t)

/-- The scan after one more lexeme that the text shows, white space being skipped. -/
def lexeme? (s : Scan) (x : Char) (t : Text) : Option Scan :=
  let c := s.cursor
  if c.column == 0 && x == '%' then do
    let s ← s.outermost?
    let (l, c) ← directive? c
    pure ((s.push l).moveTo c)
  else if c.atDocumentMark '-' then s.outermost?.map fun s => (s.push .documentStart).moveTo (c.skip 3)
  else if c.atDocumentMark '.' then s.outermost?.map fun s => (s.push .documentEnd).moveTo (c.skip 3)
  else if x == '[' then s.openFlow? .flowListStart
  else if x == '\x7b' then s.openFlow? .flowMappingStart
  else if x == ']' then s.closeFlow? .flowListEnd
  else if x == '\x7d' then s.closeFlow? .flowMappingEnd
  else if x == ',' then s.comma?
  else if x == '-' && atBlank t then s.element?
  else if x == '?' && (s.inFlow || atBlank t) then s.key?
  else if x == ':' && (s.inFlow || atBlank t) then s.value?
  else if x == '*' then s.within? fun c => (anchorName? (c.skip 1)).map fun p => (.reference p.1, p.2)
  else if x == '&' then s.within? fun c => (anchorName? (c.skip 1)).map fun p => (.anchor p.1, p.2)
  else if x == '!' then s.within? (tag? s.inFlow)
  else if x == '|' && !s.inFlow then s.block? true
  else if x == '>' && !s.inFlow then s.block? false
  else if x == '\'' || x == '"' then s.within? (readQuoted? x)
  else if startsPlain s.inFlow x t then s.plain?
  else none

def run? : Nat → Scan → Option (List Lexeme)
  | 0, _ => none
  | fuel + 1, s => do
    let s ← (s.skipSpace (s.cursor.rest.length + 1)).dropStale?
    let s := s.closeBlocks (s.cursor.column + 1)
    match s.cursor.rest with
    | [] => (s.outermost?).map fun s => (s.lexemes.push .ending).toList
    | x :: t => (s.lexeme? x t).bind (run? fuel)

end Scan

def isAllowed (c : Char) : Bool :=
  let n := c.toNat
  n == 0x09 || n == 0x0A || n == 0x0D || (0x20 ≤ n && n ≤ 0x7E) || n == 0x85 || (0xA0 ≤ n && n ≤ 0xFFFD) || 0x10000 ≤ n

def dropMark : Text → Text
  | '\ufeff' :: t => t
  | t => t

def Lexeme.ofText? (t : Text) : Option (List Lexeme) :=
  let t := dropMark t
  if t.all isAllowed then Scan.run? (t.length + 1) (Scan.start t) else none

end Yaml
end Gridmark
