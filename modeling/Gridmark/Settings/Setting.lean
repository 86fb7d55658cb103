import Gridmark.Text.Digit
import Gridmark.Text.Lowercase
import Gridmark.Decimal.Binary64
/-!
# Setting — values of a configuration

A setting is a scalar, a list or a table with each key once.  Where a boolean or a text is wanted a scalar of another
kind will do if it has one: a number is true unless it is zero, and some words count as booleans.
-/
namespace Gridmark

inductive Setting where
  | null
  | bool (b : Bool)
  | int (n : Int)
  /-- A float, with its sign apart. -/
  | float (negative : Bool) (x : Binary64)
  | text (t : Text)
  | list (settings : List Setting)
  | table (entries : List (Text × Setting))
deriving Inhabited

namespace Setting

/-- Written integers are signed 64-bit numbers: below this, and at or above what is as far below zero. -/
def intBound : Nat := 9223372036854775808

def trueWords : List Text := [['1'], "true".toList, "on".toList, "yes".toList]

def falseWords : List Text := [['0'], "false".toList, "off".toList, "no".toList]

def intText (n : Int) : Text := if n < 0 then '-' :: Text.ofNat n.natAbs else Text.ofNat n.natAbs

def toBool? : Setting → Option Bool
  | .bool b => some b
  | .int n => some (n != 0)
  | .float _ (.finite m _) => some (m != 0)
  | .float _ _ => some true
  | .text t =>
    let t := Text.lowercase t
    if trueWords.contains t then some true else if falseWords.contains t then some false else none
  | _ => none

def toText? : Setting → Option Text
  | .bool true => some "true".toList
  | .bool false => some "false".toList
  | .int n => some (intText n)
  | .float negative x => some (x.text negative)
  | .text t => some t
  | _ => none

/-- The entries with `f` applied to the value of a key, which is null if it is missing. -/
def modifyEntry (key : Text) (f : Setting → Setting) : List (Text × Setting) → List (Text × Setting)
  | [] => [(key, f .null)]
  | (k, s) :: es => if k = key then (k, f s) :: es else (k, s) :: modifyEntry key f es

/-- The list with `f` applied to the setting at an index, nulls being put in up to it. -/
def modifyIndex (f : Setting → Setting) : Nat → List Setting → List Setting
  | 0, [] => [f .null]
  | 0, s :: ss => f s :: ss
  | i + 1, [] => .null :: modifyIndex f i []
  | i + 1, s :: ss => s :: modifyIndex f i ss

def entries : Setting → List (Text × Setting)
  | .table es => es
  | _ => []

def elements : Setting → List Setting
  | .list ss => ss
  | _ => []

/-- Applies `f` to the value of a key.  What is no table gives way to one. -/
def modifyKey (key : Text) (f : Setting → Setting) (s : Setting) : Setting :=
  .table (modifyEntry (Text.lowercase key) f s.entries)

mutual
/-- Puts a setting in the place of another.  The entries of a table are put in one by one, so an empty table changes
nothing but what is null. -/
def overlay (new old : Setting) : Setting :=
  match new with
  | .table es =>
    match old with
    | .null => overlayEntries es (.table [])
    | old => overlayEntries es old
  | new => new

def overlayEntries : List (Text × Setting) → Setting → Setting
  | [], old => old
  | (k, s) :: es, old => overlayEntries es (.table (modifyEntry (Text.lowercase k) (overlay s) old.entries))
end

end Setting
end Gridmark
