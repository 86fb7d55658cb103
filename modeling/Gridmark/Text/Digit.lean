import Gridmark.Text.Basic
import Gridmark.Text.DigitTable
/-!
# Digit — decimal digits and counts

A span may be written with any decimal digits of Unicode, but only ASCII digits have a value, and a count has a ceiling:
it is an unsigned 64-bit number.  Reading refuses what is above the ceiling and sums stop there.
-/
namespace Gridmark
namespace Text

/-- General category Nd. -/
def isDecimalDigit (c : Char) : Bool :=
  if c.toNat < 0x80 then c.isDigit else inRanges digitRanges c.toNat

/-- The value of a run of ASCII digits, written after the digits of `acc`. -/
def digitsValue? : Text → Nat → Option Nat
  | [], acc => some acc
  | c :: t, acc => if c.isDigit then digitsValue? t (10 * acc + (c.toNat - '0'.toNat)) else none

end Text

namespace Count

/-- The largest count, one below the 64th power of two. -/
def ceiling : Nat := 18446744073709551615

/-- The sum, or the ceiling if the sum is above it. -/
def add (a b : Nat) : Nat := min (a + b) ceiling

/-- The count that a run of ASCII digits writes, if it is within the ceiling. -/
def read? (t : Text) : Option Nat :=
  if t = [] then none
  else match Text.digitsValue? t 0 with
    | some n => if n ≤ ceiling then some n else none
    | none => none

end Count
end Gridmark
