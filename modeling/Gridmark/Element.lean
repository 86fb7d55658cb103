import Gridmark.Properties
import Gridmark.Text.Digit
import Gridmark.Text.Lowercase
/-!
# Element — the leaf of a document

An element has a kind, a property bag, an optional rationale and a payload.  The payload is one of five things, so no
element holds an action and an input at once; prose is an element whose payload is its text.  Unknown kinds are kept.
-/
namespace Gridmark

structure GroupItem where
  trigger : Text
  content : Text
deriving DecidableEq, Inhabited

/-- What an element holds beyond its properties. -/
inductive Payload where
  | plain
  /-- What is submitted when the element is activated. -/
  | action (trigger : Text)
  /-- The name the element's value goes by. -/
  | input (binding : Text)
  | markdown (body : Text)
  /-- Neighbouring elements of one kind, as one. -/
  | group (items : List GroupItem)
deriving DecidableEq, Inhabited

structure Element where
  kind : Text
  properties : Properties
  rationale : Option Text
  payload : Payload
deriving DecidableEq, Inhabited

namespace Element

def markdownKind : Text := ['m', 'a', 'r', 'k', 'd', 'o', 'w', 'n']

/-- The property that becomes the rationale. -/
def highlightKey : Text := ['h', 'i', 'g', 'h', 'l', 'i', 'g', 'h', 't']

def triggerKey : Text := ['t', 'r', 'i', 'g', 'g', 'e', 'r']

def contentKey : Text := ['c', 'o', 'n', 't', 'e', 'n', 't']

/-- A plain element without properties.  Its kind is put in lowercase. -/
def plain (kind : Text) : Element := ⟨Text.lowercase kind, .empty, none, .plain⟩

def prose (body : Text) : Element := ⟨markdownKind, .empty, none, .markdown body⟩

def group (kind : Text) (items : List GroupItem) : Element := { plain kind with payload := .group items }

def property? (e : Element) (key : Text) : Option Text := e.properties.get? key

/-- Moves the `highlight` property, if there is one, into the rationale. -/
def takeRationale (e : Element) : Element :=
  match e.properties.get? highlightKey with
  | some why => { e with properties := e.properties.drop highlightKey, rationale := some why }
  | none => e

/-- The item an element gives to its group; a missing property counts as an empty one. -/
def toItem (e : Element) : GroupItem := ⟨(e.property? triggerKey).getD [], (e.property? contentKey).getD []⟩

def action? (e : Element) : Option Text :=
  match e.payload with
  | .action trigger => some trigger
  | _ => none

def input? (e : Element) : Option Text :=
  match e.payload with
  | .input binding => some binding
  | _ => none

def prose? (e : Element) : Option Text :=
  match e.payload with
  | .markdown body => some body
  | _ => none

def items (e : Element) : List GroupItem :=
  match e.payload with
  | .group items => items
  | _ => []

def isProse (e : Element) : Bool := e.prose?.isSome

def isGroup (e : Element) : Bool := !e.items.isEmpty

def firstLine (t : Text) : Text := (Text.lines t).headD []

/-- A short text for people: the first line of prose, the size of a group, the properties of anything else. -/
def label (e : Element) : Text :=
  match e.payload with
  | .markdown body => firstLine body
  | .group items => e.kind ++ " (".toList ++ Text.ofNat items.length ++ " items)".toList
  | _ => e.kind ++ e.properties.entries.flatMap fun p => ' ' :: p.1 ++ '=' :: p.2

end Element
end Gridmark
