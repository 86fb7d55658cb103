import Gridmark.Snapshot
import Gridmark.Outline
import Gridmark.Json.Model
import Gridmark.Yaml.Model
/-!
# Format — the forms of a document

A format has a name and reads documents, writes them, or does both.  What it does not do it answers with an error, and
that is what a format does that says nothing about a direction.  There are four formats: the markup itself, JSON and YAML
both ways, and the outline, which is only written.
-/
namespace Gridmark

inductive FormatError where
  | unknown (name : Text)
  | notReadable (name : Text)
  | notWritable (name : Text)
  | malformedJson
  | malformedYaml
deriving DecidableEq, Inhabited

namespace FormatError

def message : FormatError → Text
  | unknown name => "unknown format '".toList ++ name ++ "'".toList
  | notReadable name => "Format '".toList ++ name ++ "' does not support parsing".toList
  | notWritable name => "Format '".toList ++ name ++ "' does not support serialization".toList
  | malformedJson => "invalid JSON document: it does not describe the model".toList
  | malformedYaml => "invalid YAML document: it does not describe the model".toList

end FormatError

structure Format where
  name : Text
  description : Text := []
  extensions : List Text := []
  reads : Bool := false
  writes : Bool := false
  read : Text → Except FormatError Document := fun _ => .error (.notReadable name)
  write : Document → Except FormatError Text := fun _ => .error (.notWritable name)

namespace Format

def markupName : Text := "nuggt".toList

def markup (o : ReadOptions) (trailingNewline : Bool) : Format where
  name := markupName
  description := "nuggt layout DSL".toList
  extensions := ["nuggt".toList, "ngt".toList]
  reads := true
  writes := true
  read := fun t => .ok (Document.read o t)
  write := fun d => .ok (d.write trailingNewline)

def json : Format where
  name := "json".toList
  description := "Document model as JSON".toList
  extensions := ["json".toList]
  reads := true
  writes := true
  read := fun t => match Document.ofJsonText? t with
    | some d => .ok d
    | none => .error .malformedJson
  write := fun d => .ok d.toJsonText

def yaml : Format where
  name := "yaml".toList
  description := "Document model as YAML".toList
  extensions := ["yaml".toList, "yml".toList]
  reads := true
  writes := true
  read := fun t => match Document.ofYamlText? t with
    | some d => .ok d
    | none => .error .malformedYaml
  write := fun d => .ok d.toYamlText

def outline : Format where
  name := "treeviz".toList
  description := "Indented one-line-per-node tree for inspection".toList
  writes := true
  write := fun d => .ok d.outline

end Format
end Gridmark
