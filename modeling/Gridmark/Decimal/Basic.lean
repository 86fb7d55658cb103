import Gridmark.Text.Digit
/-!
# Decimal — numbers in decimal notation

A decimal is a sign, a whole number of digits and a power of ten.  It is read from digits with at most one point among
them and an optional exponent; a digit must stand before or after the point.
-/
namespace Gridmark

/-- The number `mantissa · 10 ^ exponent`, negated if `negative`. -/
structure Decimal where
  negative : Bool
  mantissa : Nat
  exponent : Int
deriving DecidableEq, Inhabited

namespace Decimal

def sign : Text → Bool × Text
  | '-' :: t => (true, t)
  | '+' :: t => (false, t)
  | t => (false, t)

def exponent? (t : Text) : Option Int :=
  match t with
  | [] => some 0
  | c :: t =>
    if c = 'e' ∨ c = 'E' then
      match sign t with
      | (_, []) => none
      | (negative, ds) => (Text.digitsValue? ds 0).map fun n => if negative then -(n : Int) else n
    else none

def ofParts? (negative : Bool) (whole fraction rest : Text) : Option Decimal := do
  let m ← Text.digitsValue? (whole ++ fraction) 0
  let e ← exponent? rest
  pure ⟨negative, m, e - fraction.length⟩

def read? (t : Text) : Option Decimal :=
  let (negative, t) := sign t
  let whole := t.takeWhile Char.isDigit
  match t.dropWhile Char.isDigit with
  | '.' :: t =>
    let fraction := t.takeWhile Char.isDigit
    if whole ++ fraction = [] then none else ofParts? negative whole fraction (t.dropWhile Char.isDigit)
  | rest => if whole = [] then none else ofParts? negative whole [] rest

/-- The number of decimal digits of a whole number; zero has none. -/
def digitCount (n : Nat) : Nat := if n = 0 then 0 else (Nat.toDigits 10 n).length

end Decimal
end Gridmark
