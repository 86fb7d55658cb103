import Gridmark.Yaml.Basic
import Gridmark.Decimal.Binary64
/-!
# Yaml.Plain — what a plain scalar stands for

Null, booleans, whole numbers in four bases and floats.  Digits after a leading zero are a string.  A float must be
finite unless it is one of the words for infinity and for no number.
-/
namespace Gridmark
namespace Yaml

def isNull (t : Text) : Bool :=
  ["null".toList, "Null".toList, "NULL".toList, ['~']].contains t

def isBool (t : Text) : Bool :=
  ["true".toList, "True".toList, "TRUE".toList, "false".toList, "False".toList, "FALSE".toList].contains t

/-- Whether a text is a leading zero and more digits, a sign aside. -/
def isZeroPadded (t : Text) : Bool :=
  let t := match t with
    | c :: u => if c = '-' ∨ c = '+' then u else t
    | [] => t
  match t with
  | '0' :: d :: ds => (d :: ds).all Char.isDigit
  | _ => false

def digit? (base : Nat) (c : Char) : Option Nat :=
  let n :=
    if c.isDigit then c.toNat - '0'.toNat
    else if 'a' ≤ c ∧ c ≤ 'f' then c.toNat - 'a'.toNat + 10
    else if 'A' ≤ c ∧ c ≤ 'F' then c.toNat - 'A'.toNat + 10
    else base
  if n < base then some n else none

/-- The number that digits of a base write, put after `acc`. -/
def digits? (base : Nat) : Text → Nat → Option Nat
  | [], acc => some acc
  | c :: t, acc => (digit? base c).bind fun d => digits? base t (acc * base + d)

def number? (base : Nat) (t : Text) : Option Nat := if t = [] then none else digits? base t 0

/-- The base that a text names, and the digits after it; ten if it names none. -/
def based? : Text → Option Nat
  | '0' :: 'x' :: t => number? 16 t
  | '0' :: 'o' :: t => number? 8 t
  | '0' :: 'b' :: t => number? 2 t
  | _ => none

def whole? (t : Text) : Option Nat :=
  let u := match t with
    | '+' :: u => u
    | _ => t
  match based? u with
  | some n => some n
  | none => if isZeroPadded t then none else number? 10 u

/-- The size of the whole number below zero, or of a minus zero, that a plain scalar writes. -/
def negative? : Text → Option Nat
  | '-' :: u =>
    match based? u with
    | some n => some n
    | none => if isZeroPadded u then none else number? 10 u
  | _ => none

/-- Whether a plain scalar is a whole number of at most 128 bits. -/
def isWhole (t : Text) : Bool :=
  (match whole? t with
    | some n => decide (n < Nat.pow 2 128)
    | none => false) ||
  match negative? t with
  | some n => decide (n ≤ Nat.pow 2 127)
  | none => false

def isFloat (t : Text) : Bool :=
  let u := match t with
    | '+' :: u => u
    | _ => t
  let signed := match u with
    | c :: _ => t ≠ u && (c == '+' || c == '-')
    | [] => false
  !signed &&
    ([".inf".toList, ".Inf".toList, ".INF".toList].contains u ||
      ["-.inf".toList, "-.Inf".toList, "-.INF".toList, ".nan".toList, ".NaN".toList, ".NAN".toList].contains t ||
      match Decimal.read? u with
      | some x => Binary64.ofDecimal x != .infinite
      | none => false)

/-- Whether a plain scalar stands for something other than a string, or only just does not. -/
def isTyped (t : Text) : Bool := t == [] || isNull t || isBool t || isWhole t || isZeroPadded t || isFloat t

end Yaml
end Gridmark
