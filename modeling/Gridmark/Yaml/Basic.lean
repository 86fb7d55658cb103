import Gridmark.Text.Basic
/-!
# Yaml — character classes and the plain scalars that are not strings

YAML breaks lines at more characters than the line feed, and its blanks are the space and the tab only.  A plain scalar
may stand for null, a boolean or a number; which texts do is fixed here for the writer, which quotes them, and for the
reader.
-/
namespace Gridmark
namespace Yaml

def isBreak (c : Char) : Bool := c == '\n' || c == '\r' || c == '\u0085' || c == '\u2028' || c == '\u2029'

def isBlank (c : Char) : Bool := c == ' ' || c == '\t'

def isBlankOrBreak (c : Char) : Bool := isBlank c || isBreak c

/-- The characters of anchors, tag handles and directive names. -/
def isWordChar (c : Char) : Bool := c.isAlphanum || c == '_' || c == '-'

/-- Whether a text starts with a blank or a break, or is at its end. -/
def atBlank : Text → Bool
  | [] => true
  | c :: _ => isBlankOrBreak c

/-- Whether a text starts with a break or is at its end. -/
def atBreak : Text → Bool
  | [] => true
  | c :: _ => isBreak c

/-- Whether a character may stand in a text as it is; a tab and the byte order mark may not. -/
def isPrintable (c : Char) : Bool :=
  let n := c.toNat
  n == 0x0A || (0x20 ≤ n && n ≤ 0x7E) || (0xA0 ≤ n && n != 0xFEFF && n != 0xFFFE && n != 0xFFFF)

end Yaml
end Gridmark
