import Gridmark.Token
/-!
# Split — delimiters at the top level

A delimiter counts only at the top level: outside brackets and outside quotes.  Plain quotes toggle at every quote that
no backslash precedes.  Composite quotes open at `"<` and close at `>"`, and nothing in between counts, brackets,
quotes and backslashes included.  Inside plain quotes `"<` is the closing quote and an angle; outside composite quotes
`>"` is an angle and a quote.  A quote that never closes ends with the text, so splitting is total.
-/
namespace Gridmark

inductive Quoting where
  | none
  | plain
  | composite
deriving DecidableEq, Inhabited, Repr

inductive Delimiter where
  | comma
  | colon
deriving DecidableEq, Inhabited, Repr

namespace Delimiter

def kind : Delimiter → TokenKind
  | .comma => .comma
  | .colon => .colon

def char : Delimiter → Char
  | .comma => ','
  | .colon => ':'

end Delimiter

/-- Where a walk over the tokens stands. -/
structure SplitState where
  depth : Nat
  quoting : Quoting
  /-- The token before was an unescaped backslash outside composite quotes. -/
  escaped : Bool
deriving DecidableEq, Inhabited, Repr

namespace SplitState

def initial : SplitState := ⟨0, .none, false⟩

def atTop (s : SplitState) : Bool := s.depth == 0 && s.quoting == .none

def requote : TokenKind → Quoting → Quoting
  | .compositeOpen, .none => .composite
  | .compositeOpen, .plain => .none
  | .compositeClose, .composite => .none
  | .compositeClose, .none => .plain
  | .compositeClose, .plain => .none
  | .quote, .none => .plain
  | .quote, .plain => .none
  | _, q => q

def redepth : TokenKind → Nat → Nat
  | .opening, d => d + 1
  | .closing, d => d - 1
  | _, d => d

def step (s : SplitState) (k : TokenKind) : SplitState :=
  if k = .backslash ∧ s.quoting ≠ .composite ∧ s.escaped = false then { s with escaped := true }
  else if s.escaped ∧ (k = .quote ∨ k = .compositeOpen) then { s with escaped := false }
  else
    let q := requote k s.quoting
    ⟨if q = .none then redepth k s.depth else s.depth, q, false⟩

end SplitState

namespace Split

/-- Whether a token is the delimiter, at the top level. -/
def cutsAt (d : Delimiter) (s : SplitState) (t : Token) : Bool := t.kind == d.kind && s.atTop

def prepend (t : Text) : List Text → List Text
  | [] => [t]
  | p :: ps => (t ++ p) :: ps

/-- The texts between top-level delimiters, as they stand. -/
def pieces (d : Delimiter) : SplitState → List Token → List Text
  | _, [] => [[]]
  | s, t :: ts =>
    if cutsAt d s t then [] :: pieces d (s.step t.kind) ts
    else prepend t.text (pieces d (s.step t.kind) ts)

/-- What stands before the first top-level delimiter, and the tokens after it. -/
def firstCut? (d : Delimiter) : SplitState → List Token → Option (Text × List Token)
  | _, [] => none
  | s, t :: ts =>
    if cutsAt d s t then some ([], ts)
    else (firstCut? d (s.step t.kind) ts).map fun p => (t.text ++ p.1, p.2)

def dropEmptyEnd : List Text → List Text
  | [] => []
  | t :: ts =>
    match dropEmptyEnd ts with
    | [] => if t = [] then [] else [t]
    | u :: us => t :: u :: us

end Split

/-- The texts between top-level delimiters, trimmed.  Empty ones at the end are dropped, empty ones in between kept. -/
def splitTop (d : Delimiter) (source : Text) : List Text :=
  Split.dropEmptyEnd ((Split.pieces d .initial (Token.scan source)).map Text.trim)

/-- What stands before and after the first top-level delimiter, as it stands. -/
def splitTopOnce? (d : Delimiter) (source : Text) : Option (Text × Text) :=
  (Split.firstCut? d .initial (Token.scan source)).map fun p => (p.1, Token.untokenize p.2)

end Gridmark
