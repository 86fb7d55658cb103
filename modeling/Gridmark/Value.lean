import Gridmark.Element
import Gridmark.Split
/-!
# Value — property values and property lists

A value is written bare or, when bare it would not read back, in composite quotes with its line feeds as backslash and
`n`.  Reading a value trims it, takes one level of quotes off and turns backslash and `n` into a line feed, so a value
that holds these two characters is the only kind that does not read back.
-/
namespace Gridmark
namespace Value

def isStructural (c : Char) : Bool :=
  c == ',' || c == ':' || c == '(' || c == ')' || c == '[' || c == ']' || c == '{' || c == '}' || c == '"' || c == '\n'

/-- Whether a value would not read back bare. -/
def needsQuotes (v : Text) : Bool := v.any isStructural || Text.trim v != v

/-- The value between composite quotes, line feeds written out. -/
def composite (v : Text) : Text := ['"', '<'] ++ Text.replaceChar '\n' ['\\', 'n'] v ++ ['>', '"']

def write (v : Text) : Text := if needsQuotes v then composite v else v

def compositeInner? (t : Text) : Option Text := (Text.between? '"' '"' t).bind (Text.between? '<' '>')

/-- The value without one level of quotes, composite or plain; anything else as it is. -/
def unquote (t : Text) : Text :=
  match compositeInner? t with
  | some inner => inner
  | none => (Text.between? '"' '"' t).getD t

/-- Backslash and `n` as a line feed. -/
def expandNewlines : Text → Text
  | [] => []
  | '\\' :: 'n' :: t => '\n' :: expandNewlines t
  | c :: t => c :: expandNewlines t

def read (t : Text) : Text := expandNewlines (unquote (Text.trim t))

end Value

namespace Properties

/-- The key and value of one entry of a list, if it has a colon and a key before it. -/
def readEntry? (fragment : Text) : Option (Text × Text) :=
  match Text.splitFirst? ':' fragment with
  | some (key, value) => if Text.trim key = [] then none else some (Text.trim key, Value.read value)
  | none => none

/-- The bag that a property list writes.  Entries without a colon or a key are passed over; the last of two entries with
one key counts. -/
def read (source : Text) : Properties := ofList ((splitTop .comma source).filterMap readEntry?)

def writeEntry (p : Text × Text) : Text := p.1 ++ [':', ' '] ++ Value.write p.2

def writeEntries (ps : List (Text × Text)) : Text := Text.joinWith [',', ' '] (ps.map writeEntry)

end Properties
end Gridmark
