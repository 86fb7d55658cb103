import Gridmark.Proofs.Elements
import Gridmark.Proofs.Printed
import Gridmark.Format
/-!
# Records — documents read back from JSON

A record is read field by field: one that is written is found under its name, and one that is left out is found missing
(`fields?_record`).  So a reader of records undoes a writer of records once it does so for every field, and a document is
what its JSON is read as (`toDocument?_ofDocument`).  All strings of that JSON are texts and all its numbers natural, so the
document is what the printed JSON is read as, too (`json_write_read`).
-/
namespace Gridmark
namespace Json

/-! ## Fields -/

/-- The members that fields leave: those without a value are left out. -/
def present (fs : List (Text × Option Json)) : List (Text × Json) := fs.filterMap fun f => f.2.map fun j => (f.1, j)

def record (names : List Text) (values : List (Option Json)) : Json := ofMembers (present (names.zip values))

def under (name : Text) (fs : List (Text × Option Json)) : List (Option Text × Json) :=
  ((present fs).map fun m => (some m.1, m.2)).filter fun m => m.1 = some name

theorem under_cons_self (name : Text) (value : Option Json) (fs : List (Text × Option Json)) :
    under name ((name, value) :: fs) = (value.map fun j => (some name, j)).toList ++ under name fs := by
  cases value <;> simp [under, present]

theorem under_cons_of_ne {name key : Text} (h : key ≠ name) (value : Option Json) (fs : List (Text × Option Json)) :
    under name ((key, value) :: fs) = under name fs := by
  cases value <;> simp [under, present, h]

theorem under_eq_nil {name : Text} : ∀ {fs : List (Text × Option Json)}, name ∉ fs.map Prod.fst → under name fs = []
  | [], _ => rfl
  | (key, value) :: fs, h => by
    simp only [List.map_cons, List.mem_cons, not_or] at h
    rw [under_cons_of_ne (Ne.symm h.1), under_eq_nil h.2]

theorem under_of_mem : ∀ {fs : List (Text × Option Json)}, (fs.map Prod.fst).Nodup → ∀ f ∈ fs,
    under f.1 fs = (f.2.map fun j => (some f.1, j)).toList
  | (key, value) :: fs, hnodup, f, hf => by
    obtain ⟨hkey, hfs⟩ := List.nodup_cons.1 hnodup
    rcases List.mem_cons.1 hf with rfl | hmem
    · rw [under_cons_self, under_eq_nil hkey, List.append_nil]
    · have hname : f.1 ∈ fs.map Prod.fst := List.mem_map_of_mem hmem
      have hne : key ≠ f.1 := by
        rintro rfl
        exact hkey hname
      rw [under_cons_of_ne hne, under_of_mem hfs f hmem]

theorem field?_of_mem {fs : List (Text × Option Json)} (hnodup : (fs.map Prod.fst).Nodup) {f : Text × Option Json}
    (hf : f ∈ fs) : field? f.1 ((present fs).map fun m => (some m.1, m.2)) = some f.2 := by
  have hunder : ((present fs).map fun m => (some m.1, m.2)).filter (fun m => m.1 = some f.1) = _ := under_of_mem hnodup f hf
  rw [field?, hunder]
  cases f.2 <;> rfl

theorem mapM_map_some {α β γ : Type} {f : α → β} {g : β → Option γ} {h : α → γ} : ∀ {as : List α},
    (∀ a ∈ as, g (f a) = some (h a)) → (as.map f).mapM g = some (as.map h)
  | [], _ => rfl
  | a :: as, hg => by
    obtain ⟨ha, has⟩ := List.forall_mem_cons.1 hg
    simp [ha, mapM_map_some has]

/-- **The fields of a record are read as they were written**, those that were left out included. -/
theorem fields?_record {names : List Text} {values : List (Option Json)} (hnodup : names.Nodup)
    (hlen : names.length = values.length) : fields? names (record names values) = some values := by
  have hnames : (names.zip values).map Prod.fst = names := List.map_fst_zip (Nat.le_of_eq hlen)
  have hvalues : (names.zip values).map Prod.snd = values := List.map_snd_zip (Nat.le_of_eq hlen.symm)
  have hfields : ((names.zip values).map Prod.fst).mapM
      (fun name => field? name ((present (names.zip values)).map fun m => (some m.1, m.2))) =
      some ((names.zip values).map Prod.snd) :=
    mapM_map_some fun f hf => field?_of_mem (hnames.symm ▸ hnodup) hf
  rw [hnames, hvalues] at hfields
  rw [record, ofMembers, fields?, if_pos (by simp), hfields]

/-! ## From values to JSON and back -/

theorem count?_natural {n : Nat} (h : n ≤ Count.ceiling) : count? (.natural n) = some n := if_pos h

theorem list?_map {α : Type} {read : Json → Option α} {write : α → Json} {as : List α}
    (h : ∀ a ∈ as, read (write a) = some a) : list? read (.array (as.map write)) = some as := by
  have hid := mapM_map_some h
  rwa [List.map_id'] at hid

theorem toItem?_ofItem (i : GroupItem) : toItem? (ofItem i) = some i := by
  have hrecord : ofItem i = record ["trigger".toList, "content".toList]
      [some (ofText i.trigger), some (ofText i.content)] := rfl
  rw [toItem?, hrecord, fields?_record (by decide) rfl]
  rfl

theorem toPayload?_ofPayload (p : Payload) : toPayload? (ofPayload p) = some p := by
  cases p with
  | plain => rfl
  | action t => rfl
  | input t => rfl
  | markdown t => rfl
  | group items =>
    have hitems : list? toItem? (.array (items.map ofItem)) = some items := list?_map fun i _ => toItem?_ofItem i
    show (list? toItem? (.array (items.map ofItem))).map Payload.group = _
    rw [hitems, Option.map_some]

theorem toProperties?_ofProperties (p : Properties) : toProperties? (ofProperties p) = some p := by
  have hentries : ((p.entries.map fun e => (some e.1, ofText e.2)).mapM toEntry?) = some (p.entries.map fun e => e) :=
    mapM_map_some fun e _ => rfl
  have hmembers : ofProperties p = .object (p.entries.map fun e => (some e.1, ofText e.2)) := by
    simp [ofProperties, ofMembers, Function.comp_def]
  rw [hmembers, toProperties?, hentries, List.map_id', Option.map_some, Properties.ofList_entries]

theorem toElement?_ofElement (e : Element) : toElement? (ofElement e) = some e := by
  have hrecord : ofElement e = record ["kind".toList, "properties".toList, "rationale".toList, "payload".toList]
      [some (ofText e.kind), some (ofProperties e.properties), e.rationale.map ofText, some (ofPayload e.payload)] := by
    obtain ⟨_, _, rationale, _⟩ := e
    cases rationale <;> rfl
  have hrationale : (e.rationale.map ofText).elim (some none) toRationale? = some e.rationale := by
    cases e.rationale <;> rfl
  rw [toElement?, hrecord, fields?_record (by decide) rfl]
  simp [text?, ofText, toProperties?_ofProperties, hrationale, toPayload?_ofPayload]

theorem toCellKind?_ofCellKind (k : CellKind) : toCellKind? (ofCellKind k) = some k := by
  cases k with
  | empty => rfl
  | continuation => rfl
  | content e =>
    show (toElement? (ofElement e)).map CellKind.content = _
    rw [toElement?_ofElement, Option.map_some]

theorem toCell?_ofCell {c : Cell} (hcolumns : c.columnSpan ≤ Count.ceiling) (hrows : c.rowSpan ≤ Count.ceiling) :
    toCell? (ofCell c) = some c := by
  have hrecord : ofCell c = record ["kind".toList, "column_span".toList, "row_span".toList]
      [some (ofCellKind c.kind), some (.natural c.columnSpan), some (.natural c.rowSpan)] := rfl
  rw [toCell?, hrecord, fields?_record (by decide) rfl]
  simp [toCellKind?_ofCellKind, count?_natural hcolumns, count?_natural hrows]

end Json

/-! ## Documents -/

/-- A layout whose counts are within the ceiling. -/
structure Layout.Counted (l : Layout) : Prop where
  columns : l.columnCount ≤ Count.ceiling
  spans : ∀ c ∈ l.cells, c.columnSpan ≤ Count.ceiling ∧ c.rowSpan ≤ Count.ceiling

namespace Json

theorem toLayout?_ofLayout {l : Layout} (h : l.Counted) : toLayout? (ofLayout l) = some l := by
  have hrecord : ofLayout l = record ["column_count".toList, "cells".toList]
      [some (.natural l.columnCount), some (.array (l.cells.map ofCell))] := rfl
  have hcells : list? toCell? (.array (l.cells.map ofCell)) = some l.cells :=
    list?_map fun c hc => toCell?_ofCell (h.spans c hc).1 (h.spans c hc).2
  rw [toLayout?, hrecord, fields?_record (by decide) rfl]
  simp [count?_natural h.columns, hcells]

/-- **A document is what its JSON is read as.** -/
theorem toDocument?_ofDocument {d : Document} (h : ∀ l ∈ d.blocks, l.Counted) : toDocument? (ofDocument d) = some d := by
  have hrecord : ofDocument d = record ["blocks".toList] [some (.array (d.blocks.map ofLayout))] := rfl
  have hblocks : list? toLayout? (.array (d.blocks.map ofLayout)) = some d.blocks :=
    list?_map fun l hl => toLayout?_ofLayout (h l hl)
  rw [toDocument?, hrecord, fields?_record (by decide) rfl]
  simp [hblocks]

/-! ## The JSON of a document is plain -/

theorem plain_array {α : Type} {write : α → Json} {as : List α} (h : ∀ a ∈ as, Plain (write a)) :
    Plain (.array (as.map write)) := .array (List.forall_mem_map.2 h)

theorem plain_ofItem (i : GroupItem) : Plain (ofItem i) := .members (by simp [Plain.text])

theorem plain_ofPayload (p : Payload) : Plain (ofPayload p) := by
  cases p with
  | plain => exact .text _
  | action t => exact .members (by simp [Plain.text])
  | input t => exact .members (by simp [Plain.text])
  | markdown t => exact .members (by simp [Plain.text])
  | group items => exact .members (by simp [plain_array fun i (_ : i ∈ items) => plain_ofItem i])

theorem plain_ofProperties (p : Properties) : Plain (ofProperties p) := .members (List.forall_mem_map.2 fun _ _ => .text _)

theorem plain_ofElement (e : Element) : Plain (ofElement e) := by
  obtain ⟨kind, properties, rationale, payload⟩ := e
  refine .members ?_
  cases rationale <;> simp [Plain.text, plain_ofProperties, plain_ofPayload]

theorem plain_ofCellKind (k : CellKind) : Plain (ofCellKind k) := by
  cases k with
  | empty => exact .text _
  | continuation => exact .text _
  | content e => exact .members (by simp [plain_ofElement])

theorem plain_ofCell (c : Cell) : Plain (ofCell c) := .members (by simp [plain_ofCellKind, Plain.natural])

theorem plain_ofLayout (l : Layout) : Plain (ofLayout l) :=
  .members (by simp [Plain.natural, plain_array fun c (_ : c ∈ l.cells) => plain_ofCell c])

theorem plain_ofDocument (d : Document) : Plain (ofDocument d) :=
  .members (by simp [plain_array fun l (_ : l ∈ d.blocks) => plain_ofLayout l])

end Json

/-- **JSON carries documents exactly**: what is written is read as the same document, whatever texts stand in it. -/
theorem Format.json_write_read {d : Document} (h : ∀ l ∈ d.blocks, l.Counted) :
    Format.json.write d >>= Format.json.read = .ok d := by
  have hread : Document.ofJsonText? d.toJsonText = some d := by
    rw [Document.ofJsonText?, Document.toJsonText, Json.read?_pretty (Json.plain_ofDocument d), Option.bind_some,
      Json.toDocument?_ofDocument h]
  show Format.json.read d.toJsonText = .ok d
  simp only [Format.json, hread]

/-- A text of characters that are escaped, and some that are not. -/
def Json.awkward : Text := ['"', '\\', '/', '\n', '\r', '\t', '\x00', '\x08', '\x0c', '\x1f', '\x7f', 'é', '\uFEFF', '😀']

/-- A document with every kind of cell and of payload, and with the least and the greatest counts. -/
def Document.motley : Document :=
  let bag := Properties.ofList [([], Json.awkward), (Json.awkward, []), ("kind".toList, "plain".toList)]
  let cell (e : Element) : Cell := ⟨.content e, 0, Count.ceiling⟩
  ⟨[⟨Count.ceiling, [⟨.empty, 0, 0⟩, ⟨.continuation, Count.ceiling, 1⟩, cell ⟨Json.awkward, bag, some Json.awkward, .plain⟩,
      cell ⟨[], .empty, none, .action Json.awkward⟩, cell ⟨[], .empty, some [], .input Json.awkward⟩,
      cell ⟨[], bag, none, .markdown Json.awkward⟩, cell ⟨[], .empty, none, .group [⟨Json.awkward, []⟩, ⟨[], Json.awkward⟩]⟩,
      cell ⟨[], .empty, none, .group []⟩]⟩, ⟨0, []⟩]⟩

theorem Format.json_write_read_motley :
    (∀ l ∈ Document.motley.blocks, l.Counted) ∧
      Format.json.write Document.motley >>= Format.json.read = .ok Document.motley := by
  have h : ∀ l ∈ Document.motley.blocks, l.Counted := List.forall_mem_cons.2
    ⟨⟨by decide, by decide⟩, List.forall_mem_cons.2 ⟨⟨by decide, by decide⟩, fun _ hl => nomatch hl⟩⟩
  exact ⟨h, Format.json_write_read h⟩

end Gridmark
