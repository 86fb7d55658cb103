import Gridmark.Toml.Scalar
import Gridmark.Toml.Table
/-!
# Toml.Statement — the lines of a TOML document

A document is a list of statements: entries, and headers that say which table the entries after them belong to.  A
statement takes the rest of its line, where only a comment may follow it.  Values are nested 79 deep at most, and a key
has 79 parts at most.

Every reader returns what it read and what follows it, or `none` if the text is no TOML.
-/
namespace Gridmark
namespace Toml

/-- Deeper values, and keys of more parts, are refused. -/
def depthLimit : Nat := 79

def skipComment : Text → Text
  | '#' :: t => t.dropWhile isTextChar
  | t => t

/-- Past the end of a line, before which spaces and a comment may stand. -/
def lineEnd? (t : Text) : Option Text :=
  match skipComment (skip t) with
  | [] => some []
  | t => newline? t

def skipLines : Nat → Text → Text
  | 0, t => t
  | fuel + 1, t =>
    let u := skipComment (skip t)
    match newline? u with
    | some u => skipLines fuel u
    | none => u

/-! Keys. -/

def isBareChar (c : Char) : Bool := c.isAlphanum || c == '-' || c == '_'

def keyPart? : Text → Option (Text × Text)
  | '"' :: t => basic? [] (t.length + 1) t
  | '\'' :: t => literal? [] t
  | t =>
    match t.takeWhile isBareChar with
    | [] => none
    | name => some (name, t.dropWhile isBareChar)

/-- A key of at most the given number of parts, with the spaces around it. -/
def key? : Nat → Text → Option (List Text × Text)
  | 0, _ => none
  | parts + 1, t =>
    match keyPart? (skip t) with
    | none => none
    | some (name, t) =>
      match skip t with
      | '.' :: t => (key? parts t).map fun p => (name :: p.1, p.2)
      | t => some ([name], t)

/-! Values.  The readers of lists and tables are given the reader of what is in them. -/

def entry? (value? : Text → Option (Setting × Text)) (t : Text) : Option ((List Text × Setting) × Text) := do
  let (key, t) ← key? depthLimit t
  let (s, t) ← value? (skip (← after? '=' t))
  some ((key, s), skip t)

/-- The rest of a list; a comma may stand after its last value. -/
def listRest? (value? : Text → Option (Setting × Text)) : Nat → Text → Option (List Setting × Text)
  | 0, _ => none
  | fuel + 1, t =>
    match skipLines (t.length + 1) t with
    | ']' :: t => some ([], t)
    | t => do
      let (s, t) ← value? t
      match skipLines (t.length + 1) t with
      | ',' :: t =>
        let (ss, t) ← listRest? value? fuel t
        some (s :: ss, t)
      | ']' :: t => some ([s], t)
      | _ => none

/-- The rest of a table within a line, from an entry on. -/
def tableRest? (value? : Text → Option (Setting × Text)) : Nat → Text → Option (List (List Text × Setting) × Text)
  | 0, _ => none
  | fuel + 1, t => do
    let (e, t) ← entry? value? t
    match t with
    | ',' :: t =>
      let (es, t) ← tableRest? value? fuel t
      some (e :: es, t)
    | '}' :: t => some ([e], t)
    | _ => none

def scalar? (t : Text) : Option (Setting × Text) :=
  match t with
  | '"' :: _ => (string? t).map fun p => (.text p.1, p.2)
  | '\'' :: _ => (string? t).map fun p => (.text p.1, p.2)
  | 't' :: _ => (Text.after? "true".toList t).map fun t => (.bool true, t)
  | 'f' :: _ => (Text.after? "false".toList t).map fun t => (.bool false, t)
  | 'i' :: _ => float? t
  | 'n' :: _ => float? t
  | c :: _ => if c = '+' ∨ c = '-' ∨ c.isDigit then number? t else none
  | [] => none

/-- A value that holds values down to the given depth. -/
def value? : Nat → Text → Option (Setting × Text)
  | 0, t => scalar? t
  | depth + 1, t =>
    match t with
    | '[' :: t => (listRest? (value? depth) (t.length + 1) t).map fun p => (.list p.1, p.2)
    | '{' :: t =>
      match skip t with
      | '}' :: t => some (.table [], t)
      | t => do
        let (es, t) ← tableRest? (value? depth) (t.length + 1) t
        some (.table (← Table.ofEntries? es).settings, t)
    | t => scalar? t

/-! Statements. -/

inductive Statement where
  /-- The entries that follow belong to the table at a path. -/
  | header (path : List Text)
  /-- The entries that follow belong to one more table of the list at a path. -/
  | itemHeader (path : List Text)
  | entry (key : List Text) (value : Setting)

def statement? (t : Text) : Option (Statement × Text) :=
  match t with
  | '[' :: '[' :: t => do
    let (path, t) ← key? depthLimit t
    some (.itemHeader path, ← lineEnd? (← Text.after? [']', ']'] t))
  | '[' :: t => do
    let (path, t) ← key? depthLimit t
    some (.header path, ← lineEnd? (← after? ']' t))
  | t => do
    let ((key, s), t) ← entry? (value? depthLimit) t
    some (.entry key s, ← lineEnd? t)

def statements? : Nat → Text → Option (List Statement)
  | 0, _ => none
  | fuel + 1, t =>
    match skipLines (t.length + 1) t with
    | [] => some []
    | t => do
      let (s, t) ← statement? t
      let ss ← statements? fuel t
      some (s :: ss)

/-- The table that statements make, the entries belonging to the table at `path`. -/
def tableOf? (path : List Text) (root : Table) : List Statement → Option Table
  | [] => some root
  | .header path :: ss => do tableOf? path (← root.open? path) ss
  | .itemHeader path :: ss => do tableOf? path (← root.append? path) ss
  | .entry key s :: ss => do tableOf? path (← root.within? (Table.put? s true key) path) ss

/-- The table that a document describes.  A byte order mark at its start is passed over. -/
def read? (t : Text) : Option Setting := do
  let t := (Text.after? ['\uFEFF'] t).getD t
  let ss ← statements? (t.length + 1) t
  some (.table (← tableOf? [] .empty ss).settings)

end Toml
end Gridmark
