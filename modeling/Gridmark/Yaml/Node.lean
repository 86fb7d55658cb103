import Gridmark.Yaml.Lexeme
/-!
# Yaml.Node — YAML text as a tree of nodes

A text holds exactly one document.  Nodes with an anchor are kept beside the tree, under the number that stands for the
anchor, and an alias is a leaf that holds this number; an anchor may be given again, and an alias takes the one given
last before it.  Numbers count the anchor names seen so far, so two anchors can share one; the later node has it then.

`none` stands for text that is no YAML or not one document.  The bounds on recursion are the number of lexemes.
-/
namespace Gridmark
namespace Yaml

inductive Node where
  | scalar (tag : Option Text) (form : ScalarForm) (t : Text)
  | list (tag : Option Text) (elements : List Node)
  | mapping (tag : Option Text) (entries : List (Node × Node))
  | reference (number : Nat)
deriving Inhabited

/-- A node with an anchor: its number, and how many anchors come before it. -/
structure Anchored where
  number : Nat
  order : Nat
  node : Node
deriving Inhabited

structure Composer where
  rest : List Lexeme
  /-- The beginnings that tag handles stand for. -/
  handles : List (Text × Text)
  names : List (Text × Nat)
  anchors : Nat
  anchored : List Anchored
  /-- The number of scalars, aliases, and starts and ends of collections. -/
  size : Nat
deriving Inhabited

/-- A document: its root, its nodes with anchors, and its size. -/
structure Stream where
  root : Node
  anchored : List Anchored
  size : Nat
deriving Inhabited

abbrev Compose := StateT Composer Option

namespace Compose

def peek : Compose Lexeme := do pure ((← get).rest.headD .ending)

def advance : Compose PUnit := modify fun s => { s with rest := s.rest.tail }

/-- Takes note of a number of scalars, aliases, and starts and ends of collections. -/
def count (n : Nat) : Compose PUnit := modify fun s => { s with size := s.size + n }

def expect (l : Lexeme) : Compose PUnit := do
  if (← peek) = l then advance else failure

def anchor? : Compose (Option Text) := do
  match ← peek with
  | .anchor name => advance; pure (some name)
  | _ => pure none

def tag? : Compose (Option Text) := do
  match ← peek with
  | .tag handle suffix =>
    advance
    if handle = [] then pure (some suffix)
    else
      match (← get).handles.lookup handle with
      | some beginning => pure (some (beginning ++ suffix))
      | none => failure
  | _ => pure none

def properties : Compose (Option Text × Option Text) := do
  match ← anchor? with
  | some name => pure (some name, ← tag?)
  | none =>
    match ← tag? with
    | some tag => pure (← anchor?, some tag)
    | none => pure (none, none)

/-- The number and the order of an anchor that is given now. -/
def openAnchor : Option Text → Compose (Option (Nat × Nat))
  | none => pure none
  | some name => do
    let s ← get
    let number := s.names.length
    set { s with names := (name, number) :: s.names.filter (·.1 ≠ name), anchors := s.anchors + 1 }
    pure (some (number, s.anchors))

def closeAnchor (opened : Option (Nat × Nat)) (n : Node) : Compose Node := do
  match opened with
  | some (number, order) => modify fun s => { s with anchored := ⟨number, order, n⟩ :: s.anchored }
  | none => pure ⟨⟩
  pure n

def empty : Compose Node := do
  count 1
  pure (.scalar none .plain [])

def reference (name : Text) : Compose Node := do
  advance
  count 1
  match (← get).names.lookup name with
  | some number => pure (.reference number)
  | none => failure

def among (ls : List Lexeme) : Compose Bool := do pure (ls.contains (← peek))

mutual
/-- A node.  Block collections are read if `block` is set, and a list without indentation of its own if `bare` is. -/
def node (block bare : Bool) : Nat → Compose Node
  | 0 => failure
  | fuel + 1 => do
    match ← peek with
    | .reference name => reference name
    | _ =>
      let (name, tag) ← properties
      let opened ← openAnchor name
      let n ← content block bare (name.isSome || tag.isSome) tag fuel
      closeAnchor opened n

/-- A node after its anchor and tag; it may be empty if it has one. -/
def content (block bare marked : Bool) (tag : Option Text) : Nat → Compose Node
  | 0 => failure
  | fuel + 1 => do
    match ← peek, block, bare with
    | .element, _, true => count 2; pure (.list tag (← bareElements fuel))
    | .scalar form t, _, _ => advance; count 1; pure (.scalar tag form t)
    | .flowListStart, _, _ => advance; count 2; pure (.list tag (← flowElements true fuel))
    | .flowMappingStart, _, _ => advance; count 2; pure (.mapping tag (← flowEntries true fuel))
    | .listStart, true, _ => advance; count 2; pure (.list tag (← elements fuel))
    | .mappingStart, true, _ => advance; count 2; pure (.mapping tag (← entries fuel))
    | _, _, _ =>
      if marked then
        count 1
        pure (.scalar tag .plain [])
      else failure

def elements : Nat → Compose (List Node)
  | 0 => failure
  | fuel + 1 => do
    match ← peek with
    | .element =>
      advance
      let n ← if ← among [.element, .blockEnd] then empty else node true false fuel
      pure (n :: (← elements fuel))
    | .blockEnd => advance; pure []
    | _ => failure

/-- The elements of a list without indentation of its own. -/
def bareElements : Nat → Compose (List Node)
  | 0 => failure
  | fuel + 1 => do
    match ← peek with
    | .element =>
      advance
      let n ← if ← among [.element, .key, .value, .blockEnd] then empty else node true false fuel
      pure (n :: (← bareElements fuel))
    | _ => pure []

def entries : Nat → Compose (List (Node × Node))
  | 0 => failure
  | fuel + 1 => do
    match ← peek with
    | .key =>
      advance
      let k ← if ← among [.key, .value, .blockEnd] then empty else node true true fuel
      let v ← entryValue fuel
      pure ((k, v) :: (← entries fuel))
    | .blockEnd => advance; pure []
    | _ => failure

def entryValue : Nat → Compose Node
  | 0 => failure
  | fuel + 1 => do
    match ← peek with
    | .value =>
      advance
      if ← among [.key, .value, .blockEnd] then empty else node true true fuel
    | _ => empty

/-- The elements of a flow list, up to and past its end.  A key and its value are a mapping of one entry. -/
def flowElements (first : Bool) : Nat → Compose (List Node)
  | 0 => failure
  | fuel + 1 => do
    if (← peek) = .flowListEnd then
      advance
      pure []
    else
      if !first then expect .comma
      match ← peek with
      | .flowListEnd => advance; pure []
      | .key =>
        advance
        count 2
        let k ←
          if ← among [.value, .comma, .flowListEnd] then
            advance
            empty
          else node false false fuel
        let v ← flowValue .flowListEnd fuel
        pure (.mapping none [(k, v)] :: (← flowElements false fuel))
      | _ =>
        let n ← node false false fuel
        pure (n :: (← flowElements false fuel))

def flowValue (closing : Lexeme) : Nat → Compose Node
  | 0 => failure
  | fuel + 1 => do
    match ← peek with
    | .value =>
      advance
      if ← among [.comma, closing] then empty else node false false fuel
    | _ => empty

/-- The entries of a flow mapping, up to and past its end.  What is no key and value is a key with an empty value. -/
def flowEntries (first : Bool) : Nat → Compose (List (Node × Node))
  | 0 => failure
  | fuel + 1 => do
    if (← peek) = .flowMappingEnd then
      advance
      pure []
    else
      if !first then expect .comma
      match ← peek with
      | .flowMappingEnd => advance; pure []
      | .key =>
        advance
        let k ← if ← among [.value, .comma, .flowMappingEnd] then empty else node false false fuel
        let v ← flowValue .flowMappingEnd fuel
        pure ((k, v) :: (← flowEntries false fuel))
      | _ =>
        let k ← node false false fuel
        let v ← empty
        pure ((k, v) :: (← flowEntries false fuel))
end

/-- The directives before a document: the handles they name, `versioned` telling whether a version was given. -/
def directives (versioned : Bool) (handles : List (Text × Text)) : Nat → Compose (List (Text × Text))
  | 0 => failure
  | fuel + 1 => do
    match ← peek with
    | .version major minor =>
      if versioned || major != 1 || (minor != 1 && minor != 2) then failure
      advance
      directives true handles fuel
    | .tagDirective handle beginning =>
      if (handles.lookup handle).isSome then failure
      advance
      directives versioned (handles ++ [(handle, beginning)]) fuel
    | _ => pure handles

def endings : Nat → Compose PUnit
  | 0 => pure ⟨⟩
  | fuel + 1 => do
    if (← peek) = .documentEnd then
      advance
      endings fuel

def defaultHandles : List (Text × Text) := [(['!'], ['!']), (['!', '!'], "tag:yaml.org,2002:".toList)]

def document (fuel : Nat) : Compose Node := do
  let root ←
    match ← peek with
    | .ending => failure
    | .version _ _ | .tagDirective _ _ | .documentStart =>
      let handles ← directives false [] fuel
      modify fun s => { s with handles := handles ++ defaultHandles }
      expect .documentStart
      match ← peek with
      | .version _ _ | .tagDirective _ _ | .documentStart | .documentEnd | .ending => empty
      | _ => node true false fuel
    | _ =>
      modify fun s => { s with handles := defaultHandles }
      node true false fuel
  endings fuel
  expect .ending
  pure root

end Compose

def Stream.ofText? (t : Text) : Option Stream := do
  let lexemes ← Lexeme.ofText? t
  let (root, s) ← (Compose.document (4 * lexemes.length + 4)).run ⟨lexemes, [], [], 0, [], 0⟩
  pure ⟨root, s.anchored, s.size⟩

end Yaml
end Gridmark
