import Gridmark.Settings.Setting
/-!
# Toml.Table — tables under construction

A document describes its tables piece by piece: a header opens a table, dotted keys make tables on their way, and the path
of a header leads through tables and into the last table of a list.  A table remembers how it came to be, for that
decides what may still be added to it: none is opened twice, and dotted keys add only to tables that dotted keys made.

Every operation returns `none` where it is not allowed.
-/
namespace Gridmark
namespace Toml

/-- How a table came to be: by a header of its own, on the path of a header, or by dotted keys. -/
inductive Origin where
  | header | path | dotted
deriving DecidableEq

inductive Node where
  | value (s : Setting)
  | table (origin : Origin) (entries : List (Text × Node))
  /-- A list of tables: the ones that are finished, and the entries of the last one. -/
  | tables (finished : List Setting) (last : List (Text × Node))

/-- The entries of a table, each key once. -/
abbrev Table := List (Text × Node)

namespace Table

def empty : Table := []

/-- Applies `f` to the node of a key, or to `none` if the key is missing. -/
def alter? (key : Text) (f : Option Node → Option Node) : Table → Option Table
  | [] => (f none).map fun n => [(key, n)]
  | (k, n) :: es =>
    if k = key then (f (some n)).map fun n => (k, n) :: es else (alter? key f es).map fun es => (k, n) :: es

/-- Applies `f` to the table that a header's path leads to. -/
def within? (f : Table → Option Table) : List Text → Table → Option Table
  | [], t => f t
  | key :: path, t =>
    t.alter? key fun
      | none => (within? f path empty).map (.table .path)
      | some (.table origin es) => (within? f path es).map (.table origin)
      | some (.tables finished es) => (within? f path es).map (.tables finished)
      | some (.value _) => none

/-- Puts a value at a dotted key, into a table that takes entries or does not. -/
def put? (s : Setting) (takes : Bool) : List Text → Table → Option Table
  | [], _ => none
  | [key], t =>
    t.alter? key fun
      | none => if takes then some (.value s) else none
      | some _ => none
  | key :: path, t =>
    t.alter? key fun
      | none => (put? s true path empty).map (.table .dotted)
      | some (.table .header _) => none
      | some (.table origin es) => (put? s (origin = .dotted) path es).map (.table origin)
      | some (.tables finished es) => (put? s false path es).map (.tables finished)
      | some (.value _) => none

mutual
def toSetting : Node → Setting
  | .value s => s
  | .table _ es => .table (settings es)
  | .tables finished es => .list (finished ++ [.table (settings es)])

def settings : Table → List (Text × Setting)
  | [] => []
  | (key, n) :: es => (key, toSetting n) :: settings es
end

def alterAt? (f : Option Node → Option Node) (path : List Text) (t : Table) : Option Table :=
  match path.getLast? with
  | some key => t.within? (fun t => t.alter? key f) path.dropLast
  | none => none

def open? (path : List Text) (t : Table) : Option Table :=
  t.alterAt? (fun
    | none => some (.table .header empty)
    | some (.table .path es) => some (.table .header es)
    | some _ => none) path

/-- Starts one more table of the list at a path. -/
def append? (path : List Text) (t : Table) : Option Table :=
  t.alterAt? (fun
    | none => some (.tables [] empty)
    | some (.tables finished es) => some (.tables (finished ++ [.table (settings es)]) empty)
    | some _ => none) path

def ofEntries? (es : List (List Text × Setting)) : Option Table :=
  es.foldlM (fun t e => t.put? e.2 true e.1) empty

end Table
end Toml
end Gridmark
