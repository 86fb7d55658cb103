import Gridmark.Value
/-!
# ElementLine — elements as text

An element is written `kind: (properties)`, or `kind: [(properties), prompt: trigger]` for an action and
`kind: [(properties), binding]` for an input; the rationale goes along as a last `highlight` property.  Prose is written
as its body, and a group as one line for each item.  A line in square brackets is read as an action or an input or not at
all: it never falls back to the plain form.
-/
namespace Gridmark
namespace ElementLine

def isKindStart (c : Char) : Bool := c.isAlpha || c == '_'

def isKindRest (c : Char) : Bool := c.isAlphanum || c == '_' || c == '-'

/-- What follows a colon with blanks around it. -/
def afterColon? (t : Text) : Option Text :=
  match Text.trimStart t with
  | ':' :: rest => some (Text.trimStart rest)
  | _ => none

/-- The kind that a line starts with, and what follows its colon. -/
def head? (line : Text) : Option (Text × Text) :=
  match line with
  | [] => none
  | c :: t =>
    if isKindStart c then (afterColon? (t.dropWhile isKindRest)).map fun rest => (c :: t.takeWhile isKindRest, rest)
    else none

def promptWord : Text := ['p', 'r', 'o', 'm', 'p', 't']

def prompt? (suffix : Text) : Option Text := (Text.after? promptWord suffix).bind afterColon?

/-- The payload that the text after the property list of a bound element writes. -/
def boundPayload (suffix : Text) : Payload :=
  match prompt? suffix with
  | some trigger => .action (Text.trim trigger)
  | none => .input suffix

def bound? (kind inner : Text) : Option Element :=
  match splitTopOnce? .comma inner with
  | none => none
  | some (list, suffix) =>
    (Text.between? '(' ')' (Text.trim list)).map fun list =>
      { Element.plain kind with properties := Properties.read list, payload := boundPayload (Text.trim suffix) }

def body? (kind rest : Text) : Option Element :=
  match Text.between? '[' ']' rest with
  | some inner => bound? kind inner
  | none => (Text.between? '(' ')' rest).map fun list => { Element.plain kind with properties := Properties.read list }

def read? (line : Text) : Option Element :=
  match head? (Text.trim line) with
  | none => none
  | some (kind, rest) => (body? kind (Text.trim rest)).map Element.takeRationale

/-- The properties of an element with its rationale as the last one. -/
def entries (e : Element) : List (Text × Text) :=
  e.properties.entries ++ (e.rationale.map fun why => (Element.highlightKey, why)).toList

def form (kind body : Text) : Text := kind ++ [':', ' '] ++ body

def round (t : Text) : Text := '(' :: t ++ [')']

def writeItem (kind : Text) (item : GroupItem) : Text :=
  form kind (round (Properties.writeEntries
    [(Element.triggerKey, item.trigger), (Element.contentKey, item.content)]))

/-- The line of an element that is neither prose nor a group with items. -/
def writeTagged (e : Element) : Text :=
  let list := round (Properties.writeEntries (entries e))
  match e.payload with
  | .action trigger => form e.kind ('[' :: list ++ [',', ' '] ++ form promptWord trigger ++ [']'])
  | .input binding => form e.kind ('[' :: list ++ [',', ' '] ++ binding ++ [']'])
  | _ => form e.kind list

def write (e : Element) : Text :=
  match e.payload with
  | .markdown body => body
  | .group (item :: items) => Text.joinWith ['\n'] ((item :: items).map (writeItem e.kind))
  | _ => writeTagged e

end ElementLine
end Gridmark
