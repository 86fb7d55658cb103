import Gridmark.Proofs.Elements
import Gridmark.Proofs.Packing
/-!
# Enclosed — elements in the cells of a row

An element in a row is split twice: the row at its commas, and what is found there as a line of its own.  The commas of an
element are no cuts of its row, for they stand in composite quotes or under a bracket, and the line leaves no quote and
no bracket open: a property list is level by itself (`ElementLine.level_round`), and the square brackets of a bound element
are if what it does when it is activated has no bracket and no quote (`level_square`).  So such an element is safe in any
cell (`Legible.cellSafe`), and a row that shows every span reads as what was written into it (`readRow_bracketed`).
-/
namespace Gridmark

open Text (trim joinWith)

/-! ## Cells of a row -/

/-- The text of an action or an input has no bracket and no quote. -/
def Payload.Unbracketed : Payload → Prop
  | .action t | .input t => ∀ c ∈ t, c ∉ ['(', ')', '[', ']', '\x7b', '\x7d', '"']
  | _ => True

/-- Cells without an element, or with one that can be told apart in its row. -/
def CellKind.Enclosed : CellKind → Prop
  | .empty | .continuation => True
  | .content e => e.Legible ∧ e.payload.Unbracketed

/-! ## Lines without a cut -/

namespace ElementLine

open Split (walk? Level Sealed isBland)

theorem isBland_of_isKindChar {c : Char} (h : isKindChar c = true) : isBland (.ofChar c) = true := by
  have hno : ∀ d ∈ ['"', '(', '[', '\x7b', ')', ']', '\x7d', ','], isKindChar d = false := by
    simp only [List.forall_mem_cons]
    exact ⟨rfl, rfl, rfl, rfl, rfl, rfl, rfl, rfl, by simp⟩
  have hne : ∀ d ∈ ['"', '(', '[', '\x7b', ')', ']', '\x7d', ','], c ≠ d := by
    rintro d hd rfl
    exact absurd h (by simp [hno c hd])
  unfold TokenKind.ofChar
  grind [isBland]

/-- A kind and its colon leave the walk where it was. -/
theorem sealed_form {kind body : Text} (hk : IsKind kind) (hb : Level body) : Sealed (form kind body) := by
  have hhead : Level (kind ++ [':']) := Split.level_of_bland fun c hc => by
    rcases List.mem_append.1 hc with hc | hc
    · exact isBland_of_isKindChar (hk.isKindChar c hc)
    · rw [List.mem_singleton.1 hc]
      rfl
  have hf : form kind body = (kind ++ [':']) ++ ' ' :: body := by simp [form]
  rw [hf]
  exact (hhead.append_blank hb).sealed

/-- Under the square bracket no comma is a cut. -/
theorem level_square {list suffix : Text} (hl : Level list) (hs : ∀ c ∈ suffix, isBland (.ofChar c) = true ∨ c = ',') :
    Level ('[' :: list ++ [',', ' '] ++ suffix ++ [']']) := by
  intro depth
  have htail : ∀ c ∈ ',' :: ' ' :: suffix, isBland (.ofChar c) = true ∨ c = ',' ∧ 0 < depth + 1 := by
    simp only [List.forall_mem_cons]
    exact ⟨.inr ⟨trivial, Nat.succ_pos _⟩, .inl rfl, fun c hc => (hs c hc).imp_right fun h => ⟨h, Nat.succ_pos _⟩⟩
  obtain ⟨e, he⟩ := hl (depth + 1)
  obtain ⟨e', he'⟩ := Split.walk?_bland_or_comma htail e
  refine ⟨false, ?_⟩
  have ht : '[' :: list ++ [',', ' '] ++ suffix ++ [']'] = '[' :: (list ++ (',' :: ' ' :: suffix ++ [']'])) := by simp
  rw [ht]
  show walk? .comma ⟨depth + 1, .none, false⟩ (list ++ (',' :: ' ' :: suffix ++ [']'])) = _
  rw [Split.walk?_append (Split.joint_of_head (by simp) (by simp)), he, Option.bind_some,
    Split.walk?_append (Split.joint_of_head (by simp) (by simp)), he', Option.bind_some]
  cases e' <;> rfl

theorem bland_of_unbracketed {t : Text} (h : ∀ c ∈ t, c ∉ ['(', ')', '[', ']', '\x7b', '\x7d', '"']) :
    ∀ c ∈ t, isBland (.ofChar c) = true ∨ c = ',' := by
  intro c hc
  have := h c hc
  unfold TokenKind.ofChar
  grind [isBland]

end ElementLine

/-! ## Elements -/

namespace Element.Legible

open Split (Level Sealed)

variable {e : Element} (h : e.Legible)
include h

/-- **No comma in the line of an element is a cut**, and the line leaves nothing open. -/
theorem sealed_writeTagged (hp : e.payload.Unbracketed) : Sealed (ElementLine.writeTagged e) := by
  have hlist : Level (ElementLine.round (Properties.writeEntries (ElementLine.entries e))) := by
    refine ElementLine.level_round fun t ht => ?_
    obtain ⟨p, hps, rfl⟩ := List.mem_map.1 ht
    exact Properties.level_writeEntry (h.isKey_of_mem_entries p hps) (h.writable_of_mem_entries p hps).2
  unfold ElementLine.writeTagged
  dsimp only
  split
  · rename_i t ht
    rw [ht] at hp
    refine ElementLine.sealed_form h.kind (ElementLine.level_square hlist fun c hc => ?_)
    have hword : ElementLine.IsKind ElementLine.promptWord := by decide
    rcases List.mem_append.1 hc with hc | hc
    · rcases List.mem_append.1 hc with hc | hc
      · exact .inl (ElementLine.isBland_of_isKindChar (hword.isKindChar c hc))
      · simp only [List.mem_cons, List.not_mem_nil, or_false] at hc
        rcases hc with rfl | rfl <;> exact .inl rfl
    · exact ElementLine.bland_of_unbracketed hp c hc
  · rename_i t ht
    rw [ht] at hp
    exact ElementLine.sealed_form h.kind (ElementLine.level_square hlist (ElementLine.bland_of_unbracketed hp))
  · exact ElementLine.sealed_form h.kind hlist

theorem exists_writeTagged : ∃ body, ElementLine.writeTagged e = ElementLine.form e.kind body ∧ '\n' ∉ body ∧
    Text.Trimmed body ∧ body ≠ [] :=
  ElementLine.exists_writeTagged_eq_form (fun p hp => (h.isKey_of_mem_entries p hp).not_mem) h.not_mem_payload

/-- The cell reads as the element, and as one without a span. -/
theorem read_writeTagged : RowCell.read (ElementLine.writeTagged e) = ⟨.content e, none⟩ := by
  obtain ⟨body, hform, -⟩ := h.exists_writeTagged
  have hspan : GridRow.span? (ElementLine.writeTagged e) = none := by
    rw [hform, GridRow.span?, ElementLine.bracketed?_form h.kind]
    rfl
  have hread := h.read?_writeTagged
  have hword : ∀ word, ElementLine.read? word = none → ElementLine.writeTagged e ≠ word := by
    rintro word hnone rfl
    rw [hread] at hnone
    cases hnone
  rw [RowCell.read, hspan]
  dsimp only
  rw [RowCell.ofBody, if_neg (hword _ (by decide)), if_neg (hword _ (by decide)), hread, Option.getD_some]

/-- **An element whose line has no cut is safe in any cell.** -/
theorem cellSafe (hp : e.payload.Unbracketed) : e.CellSafe := by
  obtain ⟨body, hform, hn, ht, hne⟩ := h.exists_writeTagged
  have hwrite : ElementLine.write e = ElementLine.writeTagged e := ElementLine.write_eq_writeTagged h.payload.tagged
  have htrim : trim (ElementLine.writeTagged e) = ElementLine.writeTagged e := by
    rw [hform]
    exact Text.trim_eq_self (ElementLine.trimmed_form h.kind ht hne)
  refine ⟨?_, ?_, ?_, ?_⟩
  · rw [hwrite, hform]
    simp [ElementLine.form]
  · rw [hwrite, hform]
    exact ElementLine.not_mem_form h.kind hn
  · rw [hwrite]
    exact Split.splitTop_of_sealed (h.sealed_writeTagged hp) htrim
  · rw [hwrite]
    exact h.read_writeTagged

end Element.Legible

theorem CellKind.Enclosed.readsBack {k : CellKind} (h : k.Enclosed) (shown last : Bool) : k.ReadsBack shown last := by
  cases k with
  | empty => exact readsBack_empty shown last
  | continuation => exact readsBack_continuation shown last
  | content e => exact Cell.Safe.readsBack (c := Cell.ofKind (.content e) 1) (.inr ⟨e, rfl, h.1.cellSafe h.2⟩) shown last

/-! ## Rows -/

namespace Picture

/-- A row that shows every span reads as its cells. -/
theorem readRow_fragments {row : List Cell} (h : RowLegible true row)
    (hspan : ∀ c ∈ row, 0 < c.columnSpan ∧ c.columnSpan ≤ Count.ceiling) :
    RowCell.readRow (joinWith [',', ' '] (row.map (fragment true))) = row.map fun c => ⟨c.kind, some c.columnSpan⟩ := by
  cases row with
  | nil => rfl
  | cons c cs =>
    have hsplit := Split.splitTop_joinWith (by simp) (apart_fragments h) (getLast?_fragments h) (.inl rfl)
    rw [List.nil_append, List.append_nil] at hsplit
    rw [RowCell.readRow, hsplit, List.map_map, List.map_map]
    refine List.map_congr_left fun d hd => ?_
    obtain ⟨last, hd'⟩ := exists_readsBack h d hd
    obtain ⟨hkind, hs | ⟨hs, -⟩⟩ := reads_fragment hd' (hspan d hd).1 (hspan d hd).2
    · show RowCell.read (trim (fragment true d)) = _
      rw [← hkind, ← hs]
    · cases hs

end Picture

/-- **A row that is written cell by cell, every span shown, reads as what was written**: neither does a comma of an element
cut the row, nor does a cell leak into its neighbour. -/
theorem RowCell.readRow_bracketed {cells : List (Nat × CellKind)} (hspan : ∀ p ∈ cells, 1 ≤ p.1 ∧ p.1 ≤ Count.ceiling)
    (hkind : ∀ p ∈ cells, p.2.Enclosed) :
    readRow (joinWith [',', ' '] (cells.map fun p => GridPen.bracketed p.1 ++ GridPen.cellText p.2)) =
      cells.map fun p => ⟨p.2, some p.1⟩ := by
  have hrow : Picture.RowLegible true (cells.map fun p => Cell.ofKind p.2 p.1) := by
    refine Picture.rowLegible_of_readsBack fun c hc shown last => ?_
    obtain ⟨p, hp, rfl⟩ := List.mem_map.1 hc
    exact (hkind p hp).readsBack shown last
  have hread := Picture.readRow_fragments hrow fun c hc => by
    obtain ⟨p, hp, rfl⟩ := List.mem_map.1 hc
    exact hspan p hp
  rw [List.map_map, List.map_map] at hread
  exact hread

/-- An action whose values hold a comma, a bracket, a quote that is left open, a backslash before the closing quotes and a
line feed, and whose text has a comma, a colon and an angle bracket. -/
def Element.sendButton : Element where
  kind := ['b', '-', '1']
  properties := Properties.ofList [(['h', 'i', 'n', 't'], ['a', ',', '[', '"', '<', '\\']), (['k'], ['3'])]
  rationale := some ['x', '\n', ')']
  payload := .action ['t', 'o', ':', ' ', '<', 'a', '>', ',', '\\']

def Element.nameField : Element where
  kind := ['f']
  properties := .empty
  rationale := none
  payload := .input []

def RowCell.mixedCells : List (Nat × CellKind) :=
  [(3, .content .sendButton), (1, .empty), (Count.ceiling, .continuation), (2, .content .nameField)]

theorem RowCell.readRow_bracketed_mixedCells :
    readRow (joinWith [',', ' '] (mixedCells.map fun p => GridPen.bracketed p.1 ++ GridPen.cellText p.2)) =
      mixedCells.map fun p => ⟨p.2, some p.1⟩ := by
  have hsend : Element.sendButton.Legible := ⟨by decide, by decide, by decide, by decide, by decide, by decide⟩
  have hname : Element.nameField.Legible := by
    refine ⟨by decide, by decide, by decide, by decide, by decide, by decide, ?_⟩
    rintro ⟨blanks, r, h, -⟩
    simp [ElementLine.promptWord] at h
  have hplain : Element.sendButton.payload.Unbracketed ∧ Element.nameField.payload.Unbracketed := by
    simp [Element.sendButton, Element.nameField, Payload.Unbracketed]
  refine readRow_bracketed ?_ ?_
  · simp only [mixedCells, List.forall_mem_cons]
    exact ⟨⟨by decide, by decide⟩, ⟨by decide, by decide⟩, ⟨by decide, Nat.le_refl _⟩, ⟨by decide, by decide⟩, by simp⟩
  · simp only [mixedCells, List.forall_mem_cons]
    exact ⟨⟨hsend, hplain.1⟩, trivial, trivial, ⟨hname, hplain.2⟩, by simp⟩

end Gridmark
