import Gridmark.Command.Basic
import Gridmark.Directory
import Gridmark.Registry
import Gridmark.Settings.Basic
/-!
# Command.Run — running the program

A run depends on what is outside the program only through the files it reads and the standard input; it reads no more
than two configuration files and one document.  It ends with a status and the texts for the standard output and for the
error output: 0 for success, 1 for a failure, 2 for arguments that do not fit.
-/
namespace Gridmark
namespace Command

/-- What the program can read. -/
structure Surroundings (m : Type → Type) where
  input : m Bytes
  file : Text → m (Except FileError Bytes)

def Surroundings.ofDirectory (d : Directory) (input : Bytes) : Surroundings Id := ⟨input, d.read⟩

structure Outcome where
  status : Nat
  output : Text
  message : Text
deriving DecidableEq, Inhabited

inductive Failure where
  | settings (e : SettingsError)
  | file (path : Text) (e : FileError)
  | format (e : FormatError)
deriving DecidableEq, Inhabited

def Failure.message : Failure → Text
  | .settings e => "invalid configuration: ".toList ++ e.message
  | .file path e => "cannot read ".toList ++ path ++ ": ".toList ++ e.message
  | .format e => e.message

/-! Configuration. -/

/-- The configuration file that is read if none is given and it is there. -/
def localConfig : Text := "nuggt.toml".toList

/-- The extension that a configuration file may have beyond its path. -/
def configExtension : Text := "toml".toList

variable {m : Type → Type} [Monad m]

/-- Reads a configuration file: the one at the path, or else the one with the extension added. -/
def readConfig (s : Surroundings m) (required : Bool) (path : Text) : m SettingsFile := do
  match ← s.file path with
  | .ok bs => return ⟨required, some (Text.ofUtf8Lenient bs)⟩
  | .error .denied => return ⟨required, none⟩
  | .error _ =>
    match ← s.file (PathName.addExtension configExtension path) with
    | .ok bs => return ⟨required, some (Text.ofUtf8Lenient bs)⟩
    | .error _ => return ⟨required, none⟩

def loadSettings (s : Surroundings m) (config : Option Text) : m (Except SettingsError Settings) := do
  let file ← match config with
    | some path => readConfig s true path
    | none => readConfig s false localConfig
  return (SettingsLayers.empty.addFile file).toSettings

def registryOf (s : Settings) : Registry := .standard (ReadOptions.ofKinds s.groupable) s.trailingNewline

/-! Tasks. -/

def readSource (s : Surroundings m) (path : Text) : m (Except Failure Text) := do
  let bytes ← if path = standardInput then Except.ok <$> s.input else s.file path
  return match bytes with
    | .ok bs => match Text.ofUtf8? bs with
      | some t => .ok t
      | none => .error (.file path .notText)
    | .error e => .error (.file path e)

def directions (f : Format) : Text :=
  match f.reads, f.writes with
  | true, true => "read, write".toList
  | true, false => "read".toList
  | false, true => "write".toList
  | false, false => "none".toList

def formatList (r : Registry) : Text :=
  "Available formats:\n\n".toList ++ r.formats.flatMap fun f =>
    "  ".toList ++ f.name ++ " (".toList ++ directions f ++ ")\n    ".toList ++ f.description ++ "\n\n".toList

def Task.plan (s : Settings) (r : Registry) : Task → Text × Text × Text
  | .inspect path output => (path, Format.markupName, output.getD s.defaultFormat)
  | .convert path input output => (path, (input.or (r.detect? path)).getD Format.markupName, output)
  | .format path => (path, Format.markupName, Format.markupName)

def Task.run (s : Surroundings m) (settings : Settings) (r : Registry) (task : Task) : m (Except Failure Text) := do
  let (path, input, output) := task.plan settings r
  return match ← readSource s path with
    | .ok source => match r.convert source input output with
      | .ok t => .ok t
      | .error e => .error (.format e)
    | .error e => .error e

def Invocation.run (s : Surroundings m) (i : Invocation) : m (Except Failure Text) := do
  match ← loadSettings s i.config with
  | .error e => return .error (.settings e)
  | .ok settings =>
    let r := registryOf settings
    if i.listFormats then return .ok (formatList r)
    else match i.task with
      | some task => task.run s settings r
      | none => return .ok []

/-! The program. -/

def usage : Text :=
  ("Usage:\n" ++
    "  nuggt inspect <path> [--format <format>]\n" ++
    "  nuggt convert <path> --to <format> [--from <format>]\n" ++
    "  nuggt format <path>\n" ++
    "  nuggt --list-formats\n" ++
    "\n" ++
    "A path of - is the standard input.\n" ++
    "\n" ++
    "Options:\n" ++
    "  -c, --config <path>  Configuration file over the built-in defaults\n" ++
    "  -v, --verbose        Log more\n" ++
    "  -h, --help           Print help\n" ++
    "  -V, --version        Print the version\n").toList

def versionText : Text := "nuggt 0.1.0\n".toList

def run (s : Surroundings m) (ts : List Text) : m Outcome := do
  match Invocation.read ts with
  | .error .help => return ⟨0, usage, []⟩
  | .error .version => return ⟨0, versionText, []⟩
  | .error .misuse => return ⟨2, [], usage⟩
  | .ok i =>
    return match ← i.run s with
      | .ok t => ⟨0, t, []⟩
      | .error e => ⟨1, [], "Error: ".toList ++ e.message ++ ['\n']⟩

end Command
end Gridmark
