import Gridmark.Text.Basic
import Gridmark.Text.CaseTable
/-!
# Lowercase — the full lowercase mapping

Every character maps on its own but two: a capital I with a dot becomes an i and a combining dot, and a capital sigma
becomes a final sigma at the end of a word.  A word ends where a cased character stands before the sigma and none after
it, characters that case ignores set aside.
-/
namespace Gridmark
namespace Text

def runImage? (n : Nat) (run : Nat × Nat × Nat × Nat) : Option Nat :=
  let (first, last, step, image) := run
  if first ≤ n && n ≤ last && (n - first) % step == 0 then some (image + (n - first)) else none

/-- The one-to-one lowercase mapping. -/
def lowerChar (c : Char) : Char :=
  if c.toNat < 0x80 then c.toLower
  else match lowercaseRuns.findSome? (runImage? c.toNat) with
    | some n => Char.ofNat n
    | none => c

/-- Whether the first character that case does not ignore is cased. -/
def startsCased (t : Text) : Bool :=
  match t.dropWhile fun c => inRanges caseIgnorableRanges c.toNat with
  | [] => false
  | c :: _ => inRanges casedRanges c.toNat

/-- The lowercase mapping of a text, `before` being what precedes it, last character first. -/
def lowerAfter (before : Text) : Text → Text
  | [] => []
  | 'Σ' :: t => (if startsCased before && !startsCased t then 'ς' else 'σ') :: lowerAfter ('Σ' :: before) t
  | 'İ' :: t => 'i' :: '\u0307' :: lowerAfter ('İ' :: before) t
  | c :: t => lowerChar c :: lowerAfter (c :: before) t

def lowercase (t : Text) : Text := lowerAfter [] t

end Text
end Gridmark
