import Gridmark.Text.Basic
/-!
# Token — the characters that matter to splitting

A text is cut into tokens without loss: the tokens' texts, put together, are the text.  At every position the longest
token is taken, so `"<` and `>"` come before their single characters, and neighbouring characters of no special
meaning are one token.
-/
namespace Gridmark

inductive TokenKind where
  /-- The two characters quote and less-than. -/
  | compositeOpen
  /-- The two characters greater-than and quote. -/
  | compositeClose
  | quote
  | backslash
  | opening
  | closing
  | comma
  | colon
  /-- An angle bracket that belongs to no composite quote. -/
  | angle
  /-- A run of other characters. -/
  | plain
deriving DecidableEq, Inhabited, Repr

structure Token where
  kind : TokenKind
  text : Text
deriving DecidableEq, Inhabited

namespace TokenKind

def ofChar (c : Char) : TokenKind :=
  if c = '"' then .quote
  else if c = '\\' then .backslash
  else if c = '(' ∨ c = '[' ∨ c = '{' then .opening
  else if c = ')' ∨ c = ']' ∨ c = '}' then .closing
  else if c = ',' then .comma
  else if c = ':' then .colon
  else if c = '<' ∨ c = '>' then .angle
  else .plain

end TokenKind

namespace Token

/-- The tokens with a character of a plain run put before them. -/
def consPlain (c : Char) : List Token → List Token
  | ⟨.plain, t⟩ :: ts => ⟨.plain, c :: t⟩ :: ts
  | ts => ⟨.plain, [c]⟩ :: ts

/-- The tokens with the token of a single character put before them. -/
def consChar (c : Char) (ts : List Token) : List Token :=
  match TokenKind.ofChar c with
  | .plain => consPlain c ts
  | k => ⟨k, [c]⟩ :: ts

def scan : Text → List Token
  | [] => []
  | '"' :: '<' :: t => ⟨.compositeOpen, ['"', '<']⟩ :: scan t
  | '>' :: '"' :: t => ⟨.compositeClose, ['>', '"']⟩ :: scan t
  | c :: t => consChar c (scan t)

/-- The text that tokens were cut from. -/
def untokenize (ts : List Token) : Text := ts.flatMap Token.text

/-- The tokens as half-open byte ranges, from the given offset on. -/
def spansFrom : Nat → List Token → List (TokenKind × Nat × Nat)
  | _, [] => []
  | start, t :: ts => (t.kind, start, start + t.text.byteSize) :: spansFrom (start + t.text.byteSize) ts

def spans (source : Text) : List (TokenKind × Nat × Nat) := spansFrom 0 (scan source)

end Token
end Gridmark
