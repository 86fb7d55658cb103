import Gridmark.Keyed
/-!
# Properties — the property bag of an element

A bag holds each key once, in increasing order of code points, and setting a key again replaces its value.  The order is
part of the type, so two bags with the same entries are equal and every printer lists them alike.
-/
namespace Gridmark

structure Properties where
  entries : List (Text × Text)
  ordered : Keyed.Ordered Prod.fst entries
deriving DecidableEq

namespace Properties

def empty : Properties := ⟨[], List.Pairwise.nil⟩

instance : Inhabited Properties := ⟨empty⟩

def set (p : Properties) (key value : Text) : Properties := ⟨_, Keyed.ordered_put (key, value) p.ordered⟩

def drop (p : Properties) (key : Text) : Properties := ⟨_, Keyed.ordered_filter (fun e => e.1 ≠ key) p.ordered⟩

def get? (p : Properties) (key : Text) : Option Text := (Keyed.find? Prod.fst key p.entries).map (·.2)

/-- The bag that results from setting the entries in order. -/
def ofList (es : List (Text × Text)) : Properties := es.foldl (fun p e => p.set e.1 e.2) empty

end Properties
end Gridmark
