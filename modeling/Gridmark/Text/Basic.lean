/-!
# Text — the carrier of every string

Every string of the library is the list of its characters: scanners recurse on what they read, and a lemma about a
scanner is an induction on its input.  Blank means the Unicode property White_Space, here and in every trim.
-/
namespace Gridmark

/-- A string, as the list of its characters. -/
abbrev Text := List Char

namespace Text

/-- The Unicode property White_Space. -/
def isBlank (c : Char) : Bool :=
  let n := c.toNat
  if n < 0x80 then (0x09 ≤ n && n ≤ 0x0D) || n == 0x20
  else n == 0x85 || n == 0xA0 || n == 0x1680 || (0x2000 ≤ n && n ≤ 0x200A) || n == 0x2028 || n == 0x2029 ||
    n == 0x202F || n == 0x205F || n == 0x3000

def inRanges (ranges : List (Nat × Nat)) (n : Nat) : Bool :=
  ranges.any fun r => r.1 ≤ n && n ≤ r.2

def trimStart (t : Text) : Text := t.dropWhile isBlank

def trimEnd (t : Text) : Text := (t.reverse.dropWhile isBlank).reverse

def trim (t : Text) : Text := trimEnd (trimStart t)

/-- The pieces in order, with the separator between every two of them. -/
def joinWith (sep : Text) : List Text → Text
  | [] => []
  | [t] => t
  | t :: u :: ts => t ++ sep ++ joinWith sep (u :: ts)

/-- The lines of a text: each ends at a line feed, which takes one carriage return before it along.  The text after the
last line feed is a line only if it is not empty. -/
def lines : Text → List Text
  | [] => []
  | '\n' :: t => [] :: lines t
  | '\r' :: '\n' :: t => [] :: lines t
  | c :: t =>
    match lines t with
    | [] => [[c]]
    | l :: ls => (c :: l) :: ls

/-- What stands before and after the first `c`. -/
def splitFirst? (c : Char) : Text → Option (Text × Text)
  | [] => none
  | x :: t => if x = c then some ([], t) else (splitFirst? c t).map fun p => (x :: p.1, p.2)

def dropLast? (c : Char) (t : Text) : Option Text :=
  if t.getLast? = some c then some t.dropLast else none

/-- What stands between `first` and `last` when the text starts with one and ends with the other. -/
def between? (first last : Char) : Text → Option Text
  | [] => none
  | c :: t => if c = first then dropLast? last t else none

def after? : Text → Text → Option Text
  | [], t => some t
  | _ :: _, [] => none
  | p :: ps, c :: t => if p = c then after? ps t else none

def replaceChar (c : Char) (r : Text) : Text → Text
  | [] => []
  | x :: t => if x = c then r ++ replaceChar c r t else x :: replaceChar c r t

def byteSize : Text → Nat
  | [] => 0
  | c :: t => c.utf8Size + byteSize t

def ofNat (n : Nat) : Text := Nat.toDigits 10 n

end Text
end Gridmark
