import Gridmark.Settings.KeyPath
import Gridmark.Toml.Statement
/-!
# Settings — the configuration of the tools

The settings come in layers on top of the defaults: files in TOML first, in order, then single choices.  A file that need
not be there is passed over if it is not; one that is there must be well-formed.
-/
namespace Gridmark

structure Settings where
  groupable : List Text
  trailingNewline : Bool
  defaultFormat : Text
  logLevel : Text
deriving DecidableEq

inductive SettingsError where
  | missingFile
  | malformedFile
  | malformedPath
  /-- A table or a list is missing or is something else. -/
  | wrongShape
  /-- A boolean or a text is something that has none. -/
  | wrongScalar
deriving DecidableEq, Inhabited

namespace SettingsError

def message : SettingsError → Text
  | missingFile => "a configuration file is missing".toList
  | malformedFile => "a configuration file is not well-formed".toList
  | malformedPath => "a key is not well-formed".toList
  | wrongShape => "a setting is missing or has the wrong shape".toList
  | wrongScalar => "a setting has the wrong type".toList

end SettingsError

namespace Settings

def defaults : Settings := ⟨["accordion".toList], true, "treeviz".toList, "warn".toList⟩

instance : Inhabited Settings := ⟨defaults⟩

def toSetting (s : Settings) : Setting :=
  .table [
    ("parsing".toList, .table [("groupable_kinds".toList, .list (s.groupable.map .text))]),
    ("serializing".toList, .table [("trailing_newline".toList, .bool s.trailingNewline)]),
    ("output".toList, .table [("default_format".toList, .text s.defaultFormat), ("log_level".toList, .text s.logLevel)])]

/-- A field of a record, which is a table or the list of its fields. -/
def field (name : Text) (position : Nat) (s : Setting) : Except SettingsError Setting :=
  let found : Option Setting :=
    match s with
    | .table es => (es.find? fun e => e.1 = name).map (·.2)
    | .list ss => ss[position]?
    | _ => none
  match found with
  | some s => .ok s
  | none => .error .wrongShape

def ofText (s : Setting) : Except SettingsError Text :=
  match s.toText? with
  | some t => .ok t
  | none => .error .wrongScalar

def ofBool (s : Setting) : Except SettingsError Bool :=
  match s.toBool? with
  | some b => .ok b
  | none => .error .wrongScalar

def ofTexts : Setting → Except SettingsError (List Text)
  | .list ss => ss.mapM ofText
  | _ => .error .wrongShape

def ofSetting (s : Setting) : Except SettingsError Settings := do
  let parsing ← field "parsing".toList 0 s
  let groupable ← ofTexts (← field "groupable_kinds".toList 0 parsing)
  let serializing ← field "serializing".toList 1 s
  let trailingNewline ← ofBool (← field "trailing_newline".toList 0 serializing)
  let output ← field "output".toList 2 s
  let defaultFormat ← ofText (← field "default_format".toList 0 output)
  let logLevel ← ofText (← field "log_level".toList 1 output)
  .ok ⟨groupable, trailingNewline, defaultFormat, logLevel⟩

end Settings

/-- A configuration file: its text, if it is there. -/
structure SettingsFile where
  required : Bool
  text : Option Text

namespace SettingsFile

def entries (f : SettingsFile) : Except SettingsError (List (Text × Setting)) :=
  match f.text with
  | none => if f.required then .error .missingFile else .ok []
  | some t =>
    match Toml.read? ((Text.after? ['\uFEFF'] t).getD t) with
    | some s => .ok s.entries
    | none => .error .malformedFile

end SettingsFile

/-- Files and choices on top of the defaults. -/
structure SettingsLayers where
  files : List SettingsFile
  choices : List (KeyPath × Setting)

namespace SettingsLayers

def empty : SettingsLayers := ⟨[], []⟩

def addFile (f : SettingsFile) (ls : SettingsLayers) : SettingsLayers := { ls with files := ls.files ++ [f] }

/-- The layers with a choice, which takes the place of an earlier one at the same path. -/
def choose (path : Text) (s : Setting) (ls : SettingsLayers) : Except SettingsError SettingsLayers :=
  match KeyPath.read? path with
  | some path => .ok { ls with choices := ls.choices.filter (fun c => c.1 ≠ path) ++ [(path, s)] }
  | none => .error .malformedPath

/-- Puts the entry of a file in place.  A key that is no path stands for itself. -/
def putEntry (root : Setting) (e : Text × Setting) : Setting := ((KeyPath.read? e.1).getD (.key e.1)).set e.2 root

/-- All settings of the layers, known and unknown. -/
def toSetting (ls : SettingsLayers) : Except SettingsError Setting := do
  let root ← ls.files.foldlM (fun root f => do .ok ((← f.entries).foldl putEntry root)) Settings.defaults.toSetting
  .ok (ls.choices.foldl (fun root c => c.1.set c.2 root) root)

def toSettings (ls : SettingsLayers) : Except SettingsError Settings := do Settings.ofSetting (← ls.toSetting)

end SettingsLayers
end Gridmark
