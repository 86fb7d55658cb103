import Gridmark.Text.Basic
/-!
# Command.Arguments — options and words

The arguments of a command are words and options.  An option is a name after two hyphens or a letter after one; some take
a value, after an equals sign or as the next argument.  Letters may stand together, and the last of them may have its
value right behind it.  After two hyphens alone there are only words, and a hyphen alone is a word.

Arguments are taken from left to right, and the first that asks for help or for the version, or that does not fit,
decides.
-/
namespace Gridmark
namespace Command

inductive Effect where
  | flag
  | value
  | help
  | version
deriving DecidableEq

structure Switch where
  name : Text
  letter : Option Char
  effect : Effect

/-- What a command takes: options, so many words, and words that start a command within it. -/
structure Signature where
  switches : List Switch
  words : Nat
  commands : List Text

/-- What is to be done instead of a command. -/
inductive Halt where
  | help
  | version
  | misuse
deriving DecidableEq, Inhabited

/-- Arguments that were taken: the options, a flag with an empty value, the words, and the command within with its
arguments. -/
structure Arguments where
  options : List (Text × Text)
  words : List Text
  inner : Option (Text × List Text)

namespace Arguments

def empty : Arguments := ⟨[], [], none⟩

def get? (a : Arguments) (name : Text) : Option Text := (a.options.find? fun o => o.1 = name).map (·.2)

def has (a : Arguments) (name : Text) : Bool := (a.get? name).isSome

/-- Adds an option, which may not be there yet. -/
def addOption (a : Arguments) (name value : Text) : Except Halt Arguments :=
  if a.has name then .error .misuse else .ok { a with options := a.options ++ [(name, value)] }

def addWord (s : Signature) (a : Arguments) (word : Text) : Except Halt Arguments :=
  if a.words.length < s.words then .ok { a with words := a.words ++ [word] } else .error .misuse

/-- Takes an option with the value that stands in its argument.  The answer names the option if its value is yet to
come. -/
def takeSwitch (a : Arguments) (w : Switch) (value : Option Text) : Except Halt (Arguments × Option Text) :=
  match w.effect, value with
  | .value, some v => do .ok (← a.addOption w.name v, none)
  | .value, none => .ok (a, some w.name)
  | .flag, none => do .ok (← a.addOption w.name [], none)
  | .help, none => .error .help
  | .version, none => .error .version
  | _, some _ => .error .misuse

def takeName (s : Signature) (a : Arguments) (t : Text) : Except Halt (Arguments × Option Text) :=
  let (name, value) := match Text.splitFirst? '=' t with
    | some (name, value) => (name, some value)
    | none => (t, none)
  match s.switches.find? fun w => w.name = name with
  | some w => a.takeSwitch w value
  | none => .error .misuse

def takeLetters (s : Signature) (a : Arguments) : Text → Except Halt (Arguments × Option Text)
  | [] => .ok (a, none)
  | c :: t =>
    match s.switches.find? fun w => w.letter = some c with
    | none => .error .misuse
    | some w =>
      if w.effect = .value ∧ t ≠ [] then
        a.takeSwitch w (some (match t with
          | '=' :: v => v
          | v => v))
      else do
        let (a, awaiting) ← a.takeSwitch w none
        match awaiting with
        | some name => .ok (a, some name)
        | none => takeLetters s a t

/-- Whether an argument may be the value of the option before it. -/
def isValue : Text → Bool
  | ['-'] => true
  | '-' :: _ => false
  | _ => true

/-- Takes arguments in order.  `awaiting` names an option that lacks its value, and `wordsOnly` tells whether two hyphens
have come. -/
def take (s : Signature) : (awaiting : Option Text) → (wordsOnly : Bool) → Arguments → List Text →
    Except Halt Arguments
  | none, _, a, [] => .ok a
  | some _, _, _, [] => .error .misuse
  | some name, wordsOnly, a, t :: ts =>
    if isValue t then do take s none wordsOnly (← a.addOption name t) ts else .error .misuse
  | none, true, a, t :: ts => do take s none true (← a.addWord s t) ts
  | none, false, a, t :: ts =>
    match t with
    | ['-', '-'] => take s none true a ts
    | '-' :: '-' :: t => do
      let (a, awaiting) ← a.takeName s t
      take s awaiting false a ts
    | '-' :: c :: t => do
      let (a, awaiting) ← a.takeLetters s (c :: t)
      take s awaiting false a ts
    | word =>
      if s.commands.contains word then .ok { a with inner := some (word, ts) }
      else do take s none false (← a.addWord s word) ts

def read (s : Signature) (ts : List Text) : Except Halt Arguments := take s none false empty ts

end Arguments
end Command
end Gridmark
