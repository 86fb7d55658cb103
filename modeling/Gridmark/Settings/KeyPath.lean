import Gridmark.Settings.Setting
/-!
# KeyPath — places in a configuration

A path is a key, a key of what a path leads to, or an index into it: `output.log_level`, `parsing.groupable_kinds[1]`.
Keys hold ASCII letters, digits, spaces, underscores and hyphens, and their case does not matter.  Setting a place makes
the tables and lists on the way to it, whatever stood there.
-/
namespace Gridmark

inductive KeyPath where
  | key (name : Text)
  | child (parent : KeyPath) (name : Text)
  /-- An index counts from the start, or from the end if it is below zero. -/
  | index (parent : KeyPath) (i : Int)
deriving DecidableEq, Inhabited

namespace KeyPath

def isKeyChar (c : Char) : Bool := c.isAlphanum || c == ' ' || c == '_' || c == '-'

def key? (t : Text) : Option (Text × Text) :=
  match t.takeWhile isKeyChar with
  | [] => none
  | name => some (name, t.dropWhile isKeyChar)

def isSpace (c : Char) : Bool := c == ' ' || c == '\t'

/-- An index from after its opening bracket to after its closing one.  It is a signed 64-bit number. -/
def index? (t : Text) : Option (Int × Text) := do
  let t := t.dropWhile isSpace
  let (negative, t) := match t with
    | '-' :: t => (true, t)
    | t => (false, t)
  let ds := t.takeWhile Char.isDigit
  let n ← if ds = [] then none else Text.digitsValue? ds 0
  match (t.dropWhile Char.isDigit).dropWhile isSpace with
  | ']' :: rest =>
    if negative then if n ≤ Setting.intBound then some (-(n : Int), rest) else none
    else if n < Setting.intBound then some ((n : Int), rest) else none
  | _ => none

def extend? : Nat → KeyPath → Text → Option KeyPath
  | _, p, [] => some p
  | 0, _, _ => none
  | fuel + 1, p, '.' :: t => (key? t).bind fun q => extend? fuel (.child p q.1) q.2
  | fuel + 1, p, '[' :: t => (index? t).bind fun q => extend? fuel (.index p q.1) q.2
  | _, _, _ => none

def read? (t : Text) : Option KeyPath := (key? t).bind fun q => extend? t.length (.key q.1) q.2

/-- The position that an index names in a list of the given length. -/
def position (i : Int) (length : Nat) : Nat := if 0 ≤ i then i.toNat else length - i.natAbs

def modify : KeyPath → (Setting → Setting) → Setting → Setting
  | key name, f => Setting.modifyKey name f
  | child p name, f => p.modify (Setting.modifyKey name f)
  | index p i, f => p.modify fun s => .list (Setting.modifyIndex f (position i s.elements.length) s.elements)

/-- Puts a setting at a place; only an indexed place gives way to a table as a whole. -/
def set (p : KeyPath) (s : Setting) : Setting → Setting :=
  match p with
  | index _ _ => p.modify fun _ => s
  | _ => p.modify (Setting.overlay s)

end KeyPath
end Gridmark
