import Gridmark.Text.Digit
/-!
# Json — JSON values and their printed form

An object keeps its members as written, repeated keys included.  A string is `none` when an escape in it names half of a
surrogate pair: such a string is well-formed JSON and no text.  The printed form is indented by two blanks a level, with a
member or an element a line, and escapes only what JSON asks for.
-/
namespace Gridmark

inductive Json where
  | null
  | bool (b : Bool)
  /-- A number without sign, fraction and exponent. -/
  | natural (n : Nat)
  | decimal (literal : Text)
  | string (t : Option Text)
  | array (elements : List Json)
  | object (members : List (Option Text × Json))
deriving Inhabited

namespace Json

def ofText (t : Text) : Json := .string (some t)

def ofMembers (ms : List (Text × Json)) : Json := .object (ms.map fun m => (some m.1, m.2))

def escapeControl (c : Char) : Text :=
  ['\\', 'u', '0', '0', Nat.digitChar (c.toNat / 16), Nat.digitChar (c.toNat % 16)]

def escapeChar (c : Char) : Text :=
  if c = '"' then ['\\', '"']
  else if c = '\\' then ['\\', '\\']
  else if c = '\n' then ['\\', 'n']
  else if c = '\r' then ['\\', 'r']
  else if c = '\t' then ['\\', 't']
  else if c = '\x08' then ['\\', 'b']
  else if c = '\x0c' then ['\\', 'f']
  else if c.toNat < 0x20 then escapeControl c
  else [c]

def quote (t : Text) : Text := '"' :: t.flatMap escapeChar ++ ['"']

def newline (level : Nat) : Text := '\n' :: List.replicate (2 * level) ' '

def block (opening closing : Char) (level : Nat) (items : List Text) : Text :=
  if items.isEmpty then [opening, closing]
  else opening :: newline (level + 1) ++ Text.joinWith (',' :: newline (level + 1)) items ++ newline level ++ [closing]

mutual
def pretty (level : Nat) : Json → Text
  | .null => ['n', 'u', 'l', 'l']
  | .bool true => ['t', 'r', 'u', 'e']
  | .bool false => ['f', 'a', 'l', 's', 'e']
  | .natural n => Text.ofNat n
  | .decimal literal => literal
  | .string t => quote (t.getD [])
  | .array elements => block '[' ']' level (prettyElements (level + 1) elements)
  | .object members => block '\x7b' '\x7d' level (prettyMembers (level + 1) members)

def prettyElements (level : Nat) : List Json → List Text
  | [] => []
  | j :: js => pretty level j :: prettyElements level js

def prettyMembers (level : Nat) : List (Option Text × Json) → List Text
  | [] => []
  | (k, j) :: ms => (quote (k.getD []) ++ [':', ' '] ++ pretty level j) :: prettyMembers level ms
end

end Json
end Gridmark
