import Gridmark.Decimal.Basic
/-!
# Decimal.Binary64 — decimals and 64-bit binary floats

A finite float without its sign is `m · 2 ^ q` with `m` below `2 ^ 53`.  A decimal is rounded to the nearest one, a tie
to the one with even `m`.  A float is written with the fewest digits that round to it again: on each decimal grid, from
the coarsest, the two neighbours of the value are tried, and of two that round to it the nearer is taken.  Its notation
is positional, whatever its size.
-/
namespace Gridmark

/-- A float without its sign. -/
inductive Binary64 where
  | finite (m : Nat) (q : Int)
  | infinite
  | nan
deriving DecidableEq, Inhabited

namespace Binary64

def minExponent : Int := -1074
def maxExponent : Int := 971

/-- The least `m` of 53 bits. -/
def leadingBit : Nat := Nat.pow 2 52

def power (b : Nat) (e : Int) : Nat × Nat :=
  if 0 ≤ e then (Nat.pow b e.toNat, 1) else (1, Nat.pow b (-e).toNat)

/-- The quotient, rounded to the nearest whole number and a tie to the even one. -/
def roundDiv (num den : Nat) : Nat :=
  let n := num / den
  let r := num % den
  if 2 * r < den then n else if den < 2 * r then n + 1 else n + n % 2

def scale (num den : Nat) (q : Int) : Nat × Nat :=
  let (a, b) := power 2 q
  (num * b, den * a)

def ofFraction (num den : Nat) : Binary64 :=
  let q := max ((Nat.log2 num : Int) - Nat.log2 den - 53) minExponent
  let (n, d) := scale num den q
  let q := if 2 * leadingBit ≤ n / d then q + 1 else q
  let (n, d) := scale num den q
  let m := roundDiv n d
  let (m, q) := if m = 2 * leadingBit then (leadingBit, q + 1) else (m, q)
  if maxExponent < q then .infinite else .finite m q

/-- The float nearest to a decimal without its sign.  Decimals beyond every float are told by their digits alone. -/
def ofDecimal (x : Decimal) : Binary64 :=
  let top := Decimal.digitCount x.mantissa + x.exponent
  if x.mantissa = 0 ∨ top < -400 then .finite 0 minExponent
  else if 400 < top then .infinite
  else
    let (a, b) := power 10 x.exponent
    ofFraction (x.mantissa * a) b

/-- The fractions between which, ends included if `m` is even, decimals round to `m · 2 ^ q`; both in quarters of
`2 ^ q`. -/
def bounds (m : Nat) (q : Int) : Nat × Nat :=
  (if m = leadingBit ∧ minExponent < q then 4 * m - 1 else 4 * m - 2, 4 * m + 2)

def rounds (m : Nat) (q : Int) (n : Nat) (e : Int) : Bool :=
  let (ta, tb) := power 10 e
  let (ba, bb) := power 2 (q - 2)
  let x := n * ta * bb
  let low := (bounds m q).1 * ba * tb
  let high := (bounds m q).2 * ba * tb
  if m % 2 = 0 then low ≤ x && x ≤ high else low < x && x < high

/-- The neighbour of the value on the grid of `10 ^ e` that rounds to it, the nearer of two. -/
def onGrid? (m : Nat) (q : Int) (e : Int) : Option Nat :=
  let (ta, tb) := power 10 e
  let (ba, bb) := power 2 q
  let num := m * ba * tb
  let den := bb * ta
  let n := num / den
  match rounds m q n e, rounds m q (n + 1) e with
  | true, true => some (roundDiv num den)
  | true, false => some n
  | false, true => some (n + 1)
  | false, false => none

/-- The first of the exponents, each one below the last, whose grid has a decimal that rounds to the value. -/
def shortestFrom (m : Nat) (q : Int) : Nat → Int → Nat × Int
  | 0, e => (m, e)
  | tries + 1, e =>
    match onGrid? m q e with
    | some n => (n, e)
    | none => shortestFrom m q tries (e - 1)

def shortest (m : Nat) (q : Int) : Nat × Int :=
  let (ba, bb) := power 2 q
  let top := if 1 ≤ m * ba / bb then (Decimal.digitCount (m * ba / bb) : Int) else 0
  let top := if 1 ≤ m * ba / bb then top else top - (Decimal.digitCount (bb / (m * ba)) - 1)
  shortestFrom m q 20 top

def positional (n : Nat) (e : Int) : Text :=
  let ds := Text.ofNat n
  if 0 ≤ e then ds ++ List.replicate e.toNat '0'
  else
    let places := (-e).toNat
    let ds := List.replicate (places + 1 - ds.length) '0' ++ ds
    ds.take (ds.length - places) ++ '.' :: ds.drop (ds.length - places)

def text (negative : Bool) (x : Binary64) : Text :=
  let sign := if negative then ['-'] else []
  match x with
  | .nan => "NaN".toList
  | .infinite => sign ++ "inf".toList
  | .finite 0 _ => sign ++ ['0']
  | .finite m q =>
    let (n, e) := shortest m q
    sign ++ positional n e

end Binary64
end Gridmark
