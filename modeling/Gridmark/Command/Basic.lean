import Gridmark.Command.Arguments
/-!
# Command — what the program is asked to do

There are three tasks, each on the document in one file: `inspect` shows it, `convert` writes it in another format, and
`format` writes the markup anew.  A configuration file and a flag for talkativeness may be given before the task or after
it, and what is given after it counts.
-/
namespace Gridmark
namespace Command

def standardInput : Text := ['-']

inductive Task where
  /-- Shows a document, in the given format or in the configured one. -/
  | inspect (path : Text) (format : Option Text)
  /-- Converts a document from the given format, or from the one that its name tells. -/
  | convert (path : Text) (input : Option Text) (output : Text)
  | format (path : Text)
deriving DecidableEq, Inhabited

structure Invocation where
  config : Option Text
  verbose : Bool
  /-- Whether the formats are listed, in place of the task. -/
  listFormats : Bool
  task : Option Task
deriving DecidableEq, Inhabited

/-! The options. -/

def configSwitch : Switch := ⟨"config".toList, some 'c', .value⟩
def verboseSwitch : Switch := ⟨"verbose".toList, some 'v', .flag⟩
def listSwitch : Switch := ⟨"list-formats".toList, none, .flag⟩
def helpSwitch : Switch := ⟨"help".toList, some 'h', .help⟩
def versionSwitch : Switch := ⟨"version".toList, some 'V', .version⟩
def formatSwitch : Switch := ⟨"format".toList, some 'f', .value⟩
def toSwitch : Switch := ⟨"to".toList, some 't', .value⟩
def fromSwitch : Switch := ⟨"from".toList, none, .value⟩

def helpWord : Text := "help".toList

def inspectWord : Text := "inspect".toList

def convertWord : Text := "convert".toList

def formatWord : Text := "format".toList

def commandWords : List Text := [inspectWord, convertWord, formatWord, helpWord]

def signature : Signature := ⟨[configSwitch, verboseSwitch, listSwitch, helpSwitch, versionSwitch], 0, commandWords⟩

def taskSignature (own : List Switch) : Signature := ⟨[configSwitch, verboseSwitch, helpSwitch] ++ own, 1, []⟩

def readTask (own : List Switch) (ts : List Text) : Except Halt (Arguments × Text) := do
  let a ← Arguments.read (taskSignature own) ts
  match a.words with
  | [path] => .ok (a, path)
  | _ => .error .misuse

def Task.read (word : Text) (ts : List Text) : Except Halt (Arguments × Task) := do
  if word = inspectWord then
    let (a, path) ← readTask [formatSwitch] ts
    .ok (a, .inspect path (a.get? formatSwitch.name))
  else if word = convertWord then
    let (a, path) ← readTask [toSwitch, fromSwitch] ts
    match a.get? toSwitch.name with
    | some output => .ok (a, .convert path (a.get? fromSwitch.name) output)
    | none => .error .misuse
  else if word = formatWord then
    let (a, path) ← readTask [] ts
    .ok (a, .format path)
  else
    match ts with
    | [] => .error .help
    | [word] => if commandWords.contains word then .error .help else .error .misuse
    | _ => .error .misuse

def Invocation.read (ts : List Text) : Except Halt Invocation := do
  let a ← Arguments.read signature ts
  let invocation (config : Option Text) (verbose : Bool) (task : Option Task) : Invocation :=
    ⟨config, verbose, a.has listSwitch.name, task⟩
  let config := a.get? configSwitch.name
  let verbose := a.has verboseSwitch.name
  match a.inner with
  | none => if a.options = [] then .error .misuse else .ok (invocation config verbose none)
  | some (word, ts) =>
    let (own, task) ← Task.read word ts
    .ok (invocation ((own.get? configSwitch.name).or config) (verbose || own.has verboseSwitch.name) (some task))

end Command
end Gridmark
