import Gridmark.Json.Basic
/-!
# Json.Reader — JSON values from text

The grammar is JSON's and nothing more: no comments, no trailing commas, no byte order mark, no control characters in
strings.  Every reader returns the value and what follows it.  A reader of values takes a bound on its recursion, for
which twice the length of the text is enough.
-/
namespace Gridmark
namespace Json

def isSpace (c : Char) : Bool := c == ' ' || c == '\n' || c == '\t' || c == '\r'

def skip (t : Text) : Text := t.dropWhile isSpace

def hexValue? (c : Char) : Option Nat :=
  if '0' ≤ c ∧ c ≤ '9' then some (c.toNat - '0'.toNat)
  else if 'a' ≤ c ∧ c ≤ 'f' then some (c.toNat - 'a'.toNat + 10)
  else if 'A' ≤ c ∧ c ≤ 'F' then some (c.toNat - 'A'.toNat + 10)
  else none

def hex4? (a b c d : Char) : Option Nat := do
  pure ((((← hexValue? a) * 16 + (← hexValue? b)) * 16 + (← hexValue? c)) * 16 + (← hexValue? d))

/-- A unit of a string: a character, or half of a surrogate pair. -/
inductive Unit16 where
  | char (c : Char)
  | high (n : Nat)
  | low (n : Nat)
deriving DecidableEq

def Unit16.ofNat (n : Nat) : Unit16 :=
  if 0xD800 ≤ n ∧ n < 0xDC00 then .high (n - 0xD800)
  else if 0xDC00 ≤ n ∧ n < 0xE000 then .low (n - 0xDC00)
  else .char (Char.ofNat n)

def escaped? : Char → Option Char
  | '"' => some '"'
  | '\\' => some '\\'
  | '/' => some '/'
  | 'b' => some '\x08'
  | 'f' => some '\x0c'
  | 'n' => some '\n'
  | 'r' => some '\r'
  | 't' => some '\t'
  | _ => none

/-- The units of a string from after its opening quote, and what follows its closing quote. -/
def units? : Text → Option (List Unit16 × Text)
  | [] => none
  | '"' :: t => some ([], t)
  | '\\' :: 'u' :: a :: b :: c :: d :: t => do
    let n ← hex4? a b c d
    let (us, rest) ← units? t
    pure (Unit16.ofNat n :: us, rest)
  | '\\' :: c :: t => do
    let c ← escaped? c
    let (us, rest) ← units? t
    pure (.char c :: us, rest)
  | c :: t =>
    if c.toNat < 0x20 then none
    else do
      let (us, rest) ← units? t
      pure (.char c :: us, rest)

/-- The text of units: pairs of halves are put together, and a half on its own leaves no text. -/
def joinUnits : List Unit16 → Option Text
  | [] => some []
  | .char c :: us => (joinUnits us).map (c :: ·)
  | .high h :: .low l :: us => (joinUnits us).map (Char.ofNat (0x10000 + h * 0x400 + l) :: ·)
  | _ :: _ => none

def string? (t : Text) : Option (Option Text × Text) := (units? t).map fun p => (joinUnits p.1, p.2)

def digits? (t : Text) : Option (Text × Text) :=
  match t.takeWhile Char.isDigit with
  | [] => none
  | ds => some (ds, t.dropWhile Char.isDigit)

/-- An integer without sign: zero or digits that do not start with zero. -/
def whole? (t : Text) : Option (Text × Text) :=
  match t with
  | '0' :: t => some (['0'], t)
  | t => digits? t

def fraction? (t : Text) : Option (Text × Text) :=
  match t with
  | '.' :: t => (digits? t).map fun p => ('.' :: p.1, p.2)
  | t => some ([], t)

def exponent? (t : Text) : Option (Text × Text) :=
  match t with
  | c :: t =>
    if c = 'e' ∨ c = 'E' then
      match t with
      | s :: u => if s = '+' ∨ s = '-' then (digits? u).map fun p => (c :: s :: p.1, p.2)
        else (digits? t).map fun p => (c :: p.1, p.2)
      | [] => none
    else some ([], c :: t)
  | [] => some ([], [])

def number? (t : Text) : Option (Json × Text) := do
  let (sign, t) := match t with
    | '-' :: t => (['-'], t)
    | t => ([], t)
  let (whole, t) ← whole? t
  let (fraction, t) ← fraction? t
  let (exponent, t) ← exponent? t
  match sign, fraction, exponent, Text.digitsValue? whole 0 with
  | [], [], [], some n => pure (.natural n, t)
  | _, _, _, _ => pure (.decimal (sign ++ whole ++ fraction ++ exponent), t)

mutual
def value? : Nat → Text → Option (Json × Text)
  | 0, _ => none
  | fuel + 1, t =>
    match skip t with
    | '"' :: t => (string? t).map fun p => (.string p.1, p.2)
    | '[' :: t =>
      match skip t with
      | ']' :: t => some (.array [], t)
      | t => (elements? fuel t).map fun p => (.array p.1, p.2)
    | '\x7b' :: t =>
      match skip t with
      | '\x7d' :: t => some (.object [], t)
      | t => (members? fuel t).map fun p => (.object p.1, p.2)
    | 'n' :: 'u' :: 'l' :: 'l' :: t => some (.null, t)
    | 't' :: 'r' :: 'u' :: 'e' :: t => some (.bool true, t)
    | 'f' :: 'a' :: 'l' :: 's' :: 'e' :: t => some (.bool false, t)
    | t => number? t

def elements? : Nat → Text → Option (List Json × Text)
  | 0, _ => none
  | fuel + 1, t => do
    let (j, t) ← value? fuel t
    match skip t with
    | ',' :: t => (elements? fuel t).map fun p => (j :: p.1, p.2)
    | ']' :: t => some ([j], t)
    | _ => none

def members? : Nat → Text → Option (List (Option Text × Json) × Text)
  | 0, _ => none
  | fuel + 1, t =>
    match skip t with
    | '"' :: t => do
      let (k, t) ← string? t
      match skip t with
      | ':' :: t => do
        let (j, t) ← value? fuel t
        match skip t with
        | ',' :: t => (members? fuel t).map fun p => ((k, j) :: p.1, p.2)
        | '\x7d' :: t => some ([(k, j)], t)
        | _ => none
      | _ => none
    | _ => none
end

/-- The value that a text writes, white space around it aside. -/
def read? (t : Text) : Option Json :=
  match value? (2 * t.length + 2) t with
  | some (j, rest) => if skip rest = [] then some j else none
  | none => none

end Json
end Gridmark
