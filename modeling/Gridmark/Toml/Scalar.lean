import Gridmark.Settings.Setting
/-!
# Toml.Scalar — the scalars of TOML

Strings in four forms, integers in four bases, floats, booleans and points in time.  A point in time is kept as a text in
its normal form: a `T` before the time, no zeros at the end of a fraction of a second, of which nine digits count, and a
capital `Z`.

Every reader returns the value and what follows it, or `none` if the text is no TOML.
-/
namespace Gridmark
namespace Toml

def isSpace (c : Char) : Bool := c == ' ' || c == '\t'

/-- The text from its first character that is no space and no tab. -/
def skip (t : Text) : Text := t.dropWhile isSpace

def newline? : Text → Option Text
  | '\n' :: t => some t
  | '\r' :: '\n' :: t => some t
  | _ => none

/-- The characters of comments and of strings, quotes and backslashes among them: all but control characters other than
the tab. -/
def isTextChar (c : Char) : Bool := c == '\t' || (0x20 ≤ c.toNat && c.toNat ≠ 0x7F)

/-! Strings. -/

/-- The digits of a base of up to sixteen. -/
def digit? (base : Nat) (c : Char) : Option Nat :=
  let n :=
    if c.isDigit then c.toNat - '0'.toNat
    else if 'a' ≤ c ∧ c ≤ 'f' then c.toNat - 'a'.toNat + 10
    else if 'A' ≤ c ∧ c ≤ 'F' then c.toNat - 'A'.toNat + 10
    else base
  if n < base then some n else none

/-- The number that the given number of hexadecimal digits write, and what follows them. -/
def hexDigits? : Nat → Nat → Text → Option (Nat × Text)
  | 0, n, t => some (n, t)
  | count + 1, n, c :: t => (digit? 16 c).bind fun d => hexDigits? count (16 * n + d) t
  | _ + 1, _, [] => none

def escape? : Text → Option (Char × Text)
  | 'b' :: t => some ('\x08', t)
  | 't' :: t => some ('\t', t)
  | 'n' :: t => some ('\n', t)
  | 'f' :: t => some ('\x0c', t)
  | 'r' :: t => some ('\r', t)
  | '"' :: t => some ('"', t)
  | '\\' :: t => some ('\\', t)
  | 'u' :: t => (hexDigits? 4 0 t).bind fun p => if p.1.isValidChar then some (Char.ofNat p.1, p.2) else none
  | 'U' :: t => (hexDigits? 8 0 t).bind fun p => if p.1.isValidChar then some (Char.ofNat p.1, p.2) else none
  | _ => none

/-- Past white space and line breaks, of which there must be a break before anything but spaces and tabs. -/
def skipBreaks (t : Text) : Nat → Text
  | 0 => t
  | fuel + 1 =>
    match newline? (skip t) with
    | some u => skipBreaks u fuel
    | none => skip t

/-- Reads a basic string on, `done` being what was read, last character first. -/
def basic? (done : Text) : Nat → Text → Option (Text × Text)
  | 0, _ => none
  | fuel + 1, t =>
    match t with
    | '"' :: t => some (done.reverse, t)
    | '\\' :: t => (escape? t).bind fun p => basic? (p.1 :: done) fuel p.2
    | c :: t => if isTextChar c then basic? (c :: done) fuel t else none
    | [] => none

def literal? (done : Text) : Text → Option (Text × Text)
  | '\'' :: t => some (done.reverse, t)
  | c :: t => if isTextChar c then literal? (c :: done) t else none
  | [] => none

/-- Reads a string of several lines on, in the given quotes.  Three quotes end it, of four or five the first ones belong
to it.  A backslash at the end of a line joins it to the next text. -/
def lines? (quote : Char) (done : Text) : Nat → Text → Option (Text × Text)
  | 0, _ => none
  | fuel + 1, t =>
    match newline? t with
    | some t => lines? quote ('\n' :: done) fuel t
    | none =>
      match t with
      | [] => none
      | c :: u =>
        if c = quote then
          let n := (t.takeWhile (· = quote)).length
          if n < 3 then lines? quote (List.replicate n quote ++ done) fuel (t.drop n)
          else if n ≤ 5 then some ((List.replicate (n - 3) quote ++ done).reverse, t.drop n)
          else some ((quote :: quote :: done).reverse, t.drop 5)
        else if c = '\\' ∧ quote = '"' then
          match newline? (skip u) with
          | some v => lines? quote done fuel (skipBreaks v (v.length + 1))
          | none => (escape? u).bind fun p => lines? quote (p.1 :: done) fuel p.2
        else if isTextChar c then lines? quote (c :: done) fuel u
        else none

def dropNewline (t : Text) : Text := (newline? t).getD t

def string? (t : Text) : Option (Text × Text) :=
  match t with
  | '"' :: '"' :: '"' :: t => lines? '"' [] (t.length + 1) (dropNewline t)
  | '"' :: t => basic? [] (t.length + 1) t
  | '\'' :: '\'' :: '\'' :: t => lines? '\'' [] (t.length + 1) (dropNewline t)
  | '\'' :: t => literal? [] t
  | _ => none

/-! Numbers. -/

/-- The digits of a base that a text starts with, single underscores between them taken out. -/
def digitRun (base : Nat) : Text → Text × Text
  | [] => ([], [])
  | '_' :: t =>
    match t with
    | d :: _ =>
      if (digit? base d).isSome then digitRun base t else ([], '_' :: t)
    | [] => ([], ['_'])
  | c :: t =>
    if (digit? base c).isSome then
      let (ds, rest) := digitRun base t
      (c :: ds, rest)
    else ([], c :: t)

def digits? (base : Nat) (t : Text) : Option (Text × Text) :=
  match t with
  | '_' :: _ => none
  | t =>
    match digitRun base t with
    | ([], _) => none
    | p => some p

def valueOf (base : Nat) (ds : Text) : Nat := ds.foldl (fun n c => n * base + (digit? base c).getD 0) 0

/-- A sign, if there is one: whether it is a minus, and what follows it. -/
def sign (t : Text) : Bool × Text :=
  match t with
  | '-' :: t => (true, t)
  | '+' :: t => (false, t)
  | t => (false, t)

/-- Decimal digits that do not start with a zero, or a zero alone. -/
def whole? (t : Text) : Option (Text × Text) :=
  match digits? 10 t with
  | some (['0'], rest) => some (['0'], rest)
  | some ('0' :: _, _) => none
  | p => p

/-- An integer, which is a signed 64-bit number. -/
def integer? (t : Text) : Option (Setting × Text) := do
  let based (base : Nat) (t : Text) : Option (Setting × Text) := do
    let (ds, rest) ← digits? base t
    let n := valueOf base ds
    if n < Setting.intBound then some (.int n, rest) else none
  match t with
  | '0' :: 'x' :: t => based 16 t
  | '0' :: 'o' :: t => based 8 t
  | '0' :: 'b' :: t => based 2 t
  | t =>
    let (negative, t) := sign t
    let (ds, rest) ← whole? t
    let n := valueOf 10 ds
    if negative then if n ≤ Setting.intBound then some (.int (-(n : Int)), rest) else none
    else if n < Setting.intBound then some (.int n, rest) else none

def fraction? (t : Text) : Option (Text × Text) :=
  match t with
  | '.' :: t => digits? 10 t
  | t => some ([], t)

/-- An exponent, if there is one; its digits may start with zeros. -/
def exponent? (t : Text) : Option (Option Int × Text) :=
  match t with
  | c :: t =>
    if c = 'e' ∨ c = 'E' then do
      let (negative, t) := sign t
      let (ds, rest) ← digits? 10 t
      let n : Int := valueOf 10 ds
      some (some (if negative then -n else n), rest)
    else some (none, c :: t)
  | [] => some (none, [])

/-- A float: a word after an optional sign, or digits with a fraction or an exponent.  One above all floats is refused. -/
def float? (t : Text) : Option (Setting × Text) := do
  let (negative, t) := sign t
  match t with
  | 'i' :: 'n' :: 'f' :: t => some (.float negative .infinite, t)
  | 'n' :: 'a' :: 'n' :: t => some (.float negative .nan, t)
  | t =>
    let (whole, t) ← whole? t
    let (fraction, t) ← fraction? t
    let (exponent, t) ← exponent? t
    if fraction = [] ∧ exponent = none then none
    else
      let x := Binary64.ofDecimal ⟨negative, valueOf 10 (whole ++ fraction), exponent.getD 0 - fraction.length⟩
      if x = .infinite ∧ negative = false then none else some (.float negative x, t)

/-! Points in time. -/

/-- A number of exactly so many decimal digits, within bounds. -/
def fixed? (count low high : Nat) (t : Text) : Option (Text × Text) :=
  let ds := t.take count
  if ds.length = count ∧ ds.all Char.isDigit then
    let n := valueOf 10 ds
    if low ≤ n ∧ n ≤ high then some (ds, t.drop count) else none
  else none

def after? (c : Char) (t : Text) : Option Text :=
  match t with
  | d :: t => if d = c then some t else none
  | [] => none

def daysOfMonth (year month : Nat) : Nat :=
  if month = 2 then if year % 4 = 0 ∧ (year % 100 ≠ 0 ∨ year % 400 = 0) then 29 else 28
  else if [4, 6, 9, 11].contains month then 30
  else 31

def date? (t : Text) : Option (Text × Text) := do
  let (year, t) ← fixed? 4 0 9999 t
  let (month, t) ← fixed? 2 1 12 (← after? '-' t)
  let (day, t) ← fixed? 2 1 (daysOfMonth (valueOf 10 year) (valueOf 10 month)) (← after? '-' t)
  some (year ++ '-' :: month ++ '-' :: day, t)

def time? (t : Text) : Option (Text × Text) := do
  let (hour, t) ← fixed? 2 0 23 t
  let (minute, t) ← fixed? 2 0 59 (← after? ':' t)
  let (second, t) ← fixed? 2 0 60 (← after? ':' t)
  let (fraction, t) := match t with
    | '.' :: u => (u.takeWhile Char.isDigit, u.dropWhile Char.isDigit)
    | t => ([], t)
  let shown := ((fraction.take 9).reverse.dropWhile (· = '0')).reverse
  some (hour ++ ':' :: minute ++ ':' :: second ++ (if shown = [] then [] else '.' :: shown), t)

/-- The offset of a time, if there is one; one of zero has a plus sign. -/
def offset (t : Text) : Text × Text :=
  match t with
  | 'Z' :: t => (['Z'], t)
  | 'z' :: t => (['Z'], t)
  | c :: u =>
    if c = '+' ∨ c = '-' then
      let read : Option (Text × Text) := do
        let (hour, u) ← fixed? 2 0 23 u
        let (minute, u) ← fixed? 2 0 59 (← after? ':' u)
        let c := if valueOf 10 (hour ++ minute) = 0 then '+' else c
        some (c :: hour ++ ':' :: minute, u)
      read.getD ([], t)
    else ([], t)
  | [] => ([], [])

def timeAfterDate (t : Text) : Text × Text :=
  match t with
  | c :: u =>
    if c = 'T' ∨ c = 't' ∨ c = ' ' then
      match time? u with
      | some (time, u) =>
        let (zone, u) := offset u
        ('T' :: time ++ zone, u)
      | none => ([], t)
    else ([], t)
  | [] => ([], [])

/-- A point in time: a date, a time, or both with an offset or without one. -/
def moment? (t : Text) : Option (Setting × Text) :=
  match date? t with
  | some (date, t) =>
    let (time, t) := timeAfterDate t
    some (.text (date ++ time), t)
  | none => (time? t).map fun p => (.text p.1, p.2)

def number? (t : Text) : Option (Setting × Text) :=
  match moment? t with
  | some p => some p
  | none =>
    match float? t with
    | some p => some p
    | none => integer? t

end Toml
end Gridmark
