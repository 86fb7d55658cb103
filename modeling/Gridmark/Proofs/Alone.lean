import Gridmark.Proofs.WellFormed
/-!
# Alone — blocks that come back on their own

Each block of a source is written as its own line or lines, or as grid rows.  A freestanding block comes back from these
just when its line reads as it (`Run.OfSource.legible_iff`).  A grid comes back if its rows are full, no continuation moved
the cell that took it over, and its cells can be told apart in the text (`Run.Legible`).
-/
namespace Gridmark

open Picture
open Text (trim joinWith)

/-- Rows that are full, with every continuation right under a cell that it carries on. -/
structure Picture.IsFull (N : Nat) (rows : List (List Cell)) : Prop where
  full : ∀ row ∈ rows, row ≠ [] ∧ width row = N
  aligned : ([] :: rows).IsChain Aligned

/-- What the block of a run holds can be told apart in the text that the block is written as. -/
def Run.Legible : Run → Prop
  | .prose _ | .group _ _ => True
  | .lone e => ElementLine.read? (ElementLine.write e) = some e
  | .grid N rows =>
    match (Layout.ofRows N rows).single? with
    | some e =>
      match e.prose? with
      | some body => body ≠ [] ∧ GridRow.read? body = none
      | none => ElementLine.read? (ElementLine.write e) = some e
    | none => IsFull N (ofTexts N rows) ∧ (Layout.ofRows N rows).Closes ∧ ∀ row ∈ ofTexts N rows, RowLegible false row

theorem Picture.IsFull.isPicture {N : Nat} {rows : List Text} (h : IsFull N (ofTexts N rows)) :
    IsPicture N (ofTexts N rows) := by
  refine ⟨fun row hrow => ?_, h.aligned⟩
  obtain ⟨hne, hw⟩ := h.full row hrow
  obtain ⟨t, -, rfl⟩ := List.mem_map.1 hrow
  exact ⟨hne, fun c hc => (RowCell.of_mem_resolve hc).1, fun c hc => (RowCell.of_mem_resolve hc).2, Nat.le_of_eq hw⟩

theorem Layout.ofRows_eq_cells {N : Nat} {rows : List Text} (h : IsFull N (ofTexts N rows)) (hN : N ≤ Count.ceiling) :
    Layout.ofRows N rows = ⟨N, Picture.cells (ofTexts N rows)⟩ := by
  rw [Layout.ofRows_eq, SlotMatrix.toLayout_of_isPicture hN h.isPicture]

/-- A run of a source that has no groups. -/
structure Run.OfSource (o : ReadOptions) (source : Text) (r : Run) : Prop where
  mem : r ∈ Run.ofLines (SourceLine.ofText o source)
  not_groupable : ∀ e ∈ r.toLayout.elements, o.isGroupable e.kind = false

namespace Run.OfSource

open Snapshot

variable {o : ReadOptions} {source : Text} {r : Run} {e : Element} {wrap : Bool}

/-- **Freestanding blocks are prose, prose from a cell or elements of one line.** -/
theorem single_cases (h : OfSource o source r) (hs : r.toLayout.single? = some e) :
    (∃ ts, r = .prose ts) ∨
    (∃ body, e = .prose body ∧ r.toLayout = .single e ∧ ('\n' ∉ body ∧ trim body = body ∧ ElementLine.read? body = none) ∧
      (r.Legible ↔ body ≠ [] ∧ GridRow.read? body = none)) ∨
    ∃ t, ('\n' ∉ t ∧ ElementLine.ReadFrom t e ∧ e.prose? = none ∧ o.isGroupable e.kind = false) ∧ r.toLayout = .single e ∧
      (r.Legible ↔ ElementLine.read? (ElementLine.write e) = some e) := by
  cases r with
  | prose ts => exact .inl ⟨ts, rfl⟩
  | lone f =>
    obtain rfl : f = e := Option.some.inj hs
    obtain ⟨t, ht⟩ := of_mem_ofLines_lone h.mem
    exact .inr (.inr ⟨t, ht, rfl, Iff.rfl⟩)
  | group kind items =>
    have hk := h.not_groupable _ (List.mem_singleton_self _)
    rw [isGroupable_of_mem_ofLines h.mem] at hk
    cases hk
  | grid N rows =>
    obtain ⟨-, -, -, hn⟩ := of_mem_ofLines_grid h.mem
    have hl : (Run.grid N rows).toLayout = .single e := (wellFormed_toLayout h.mem).eq_single hs
    have hs : (Layout.ofRows N rows).single? = some e := hs
    have ho : o.isGroupable e.kind = false := h.not_groupable e (by
      rw [hl]
      exact List.mem_singleton_self e)
    rcases Layout.element_of_ofRows hn hs with ⟨body, rfl, hnb, htrim, hread⟩ | ⟨t, hnt, hfrom, hp⟩
    · exact .inr (.inl ⟨body, rfl, hl, ⟨hnb, htrim, hread⟩, by rw [Legible, hs]; rfl⟩)
    · refine .inr (.inr ⟨t, ⟨hnt, hfrom, hp, ho⟩, hl, ?_⟩)
      rw [Legible, hs]
      dsimp only
      rw [hp]

theorem toLayout_of_prose? (h : OfSource o source r) {body : Text} (hb : r.toLayout.prose? = some body) :
    r.toLayout = .single (.prose body) := by
  obtain ⟨e, hs, hp⟩ := Option.bind_eq_some_iff.1 hb
  rcases h.single_cases hs with ⟨ts, rfl⟩ | ⟨b, rfl, hl, -⟩ | ⟨t, ⟨-, -, hnone, -⟩, -⟩
  · cases hb
    rfl
  · cases hp
    exact hl
  · rw [hnone] at hp
    cases hp

theorem exists_writes_of_wrap (h : OfSource o source r)
    (hwrap : ∃ body, r.toLayout.prose? = some body ∧ fitsInCell body = true) : ∃ s, Writes o (true, r.toLayout) s := by
  obtain ⟨body, hb, hf⟩ := hwrap
  rw [h.toLayout_of_prose? hb]
  exact exists_writes_of_fits hf o

/-- A freestanding block that can be told apart in its text is written as a run that is the block. -/
theorem exists_writes_of_single (h : OfSource o source r) (hs : r.toLayout.single? = some e) (hlegible : r.Legible) :
    ∃ s, Writes o (false, r.toLayout) s := by
  rcases h.single_cases hs with ⟨ts, rfl⟩ | ⟨body, rfl, hl, ⟨hn, ht, he⟩, hiff⟩ | ⟨t, ⟨hn, hfrom, -, ho⟩, hl, hiff⟩
  · exact ⟨_, writes_prose h.mem⟩
  · obtain ⟨hne, hg⟩ := hiff.1 hlegible
    exact ⟨_, writes_bare hl hne hn ht hg he⟩
  · rw [hl]
    exact ⟨_, writes_lone hfrom hn (hiff.1 hlegible) ho⟩

/-- **A freestanding block comes back on its own just when it can be told apart in its text.** -/
theorem legible_iff (h : OfSource o source r) (hs : r.toLayout.single? = some e) :
    r.Legible ↔ (Document.read o r.toLayout.write).blocks = [r.toLayout] := by
  refine ⟨fun hlegible => ?_, fun halone => ?_⟩
  · obtain ⟨s, hw⟩ := h.exists_writes_of_single hs hlegible
    exact hw.alone
  · rcases h.single_cases hs with ⟨ts, rfl⟩ | ⟨body, rfl, hl, ⟨hn, ht, he⟩, hiff⟩ | ⟨t, ⟨hn, hfrom, -, ho⟩, hl, hiff⟩
    · trivial
    · rw [hl, Layout.write_single, show ElementLine.write (.prose body) = body from rfl, Document.read_eq] at halone
      have hne : body ≠ [] := by
        rintro rfl
        cases halone
      refine hiff.2 ⟨hne, ?_⟩
      cases hg : GridRow.read? body with
      | none => rfl
      | some p =>
        have hrun : Run.ofLines (SourceLine.ofText o body) = [.grid p.1 [p.2]] := by
          rw [SourceLine.ofText, SourceLine.ofSource_line hne hn (ht ▸ Text.trimmed_trim body), List.map_singleton,
            SourceLine.read, hg]
          rfl
        rw [hrun] at halone
        exact absurd (List.cons.inj halone).1 (Run.toLayout_ne_single (e := .prose body) hrun rfl)
    · rw [hl] at halone
      exact hiff.2 ((hfrom.read_write_iff hn ho).1 halone)

theorem exists_eq_grid (h : r.toLayout.single? = none) : ∃ N rows, r = .grid N rows := by
  cases r with
  | grid N rows => exact ⟨N, rows, rfl⟩
  | _ => cases h

/-- **A block that can be told apart in its text comes back on its own.** -/
theorem alone_of_legible (h : OfSource o source r) (hlegible : r.Legible) :
    (Document.read o r.toLayout.write).blocks = [r.toLayout] := by
  cases hs : r.toLayout.single? with
  | some e => exact (h.legible_iff hs).1 hlegible
  | none =>
    obtain ⟨N, rows, rfl⟩ := exists_eq_grid hs
    obtain ⟨hne, -, hN, -⟩ := of_mem_ofLines_grid h.mem
    have hs : (Layout.ofRows N rows).single? = none := hs
    rw [Legible, hs] at hlegible
    obtain ⟨hfull, hcloses, hlegible⟩ := hlegible
    have hl := Layout.ofRows_eq_cells hfull hN
    have hshows : Shows (Layout.ofRows N rows) (ofTexts N rows) := by
      rw [hl] at hcloses ⊢
      refine ⟨by simpa [ofTexts] using hne, rfl, hfull.isPicture,
        hfull.isPicture.tight_of_width hN (fun row hrow => (hfull.full row hrow).2) hcloses, fun row hrow => ?_⟩
      show RowLegible (decide (width row < N)) row
      rw [(hfull.full row hrow).2, decide_eq_false (Nat.lt_irrefl N)]
      exact hlegible row hrow
    exact hshows.read_write (by rw [hl]; exact hN) hs o

/-- **A block that comes back on its own is written as a run that is the block**, also where it goes into a row. -/
theorem exists_writes (h : OfSource o source r) (halone : (Document.read o r.toLayout.write).blocks = [r.toLayout])
    (hwrap : wrap = true → ∃ body, r.toLayout.prose? = some body ∧ fitsInCell body = true) :
    ∃ s, Writes o (wrap, r.toLayout) s := by
  cases wrap with
  | true => exact h.exists_writes_of_wrap (hwrap rfl)
  | false =>
    cases hs : r.toLayout.single? with
    | some e => exact h.exists_writes_of_single hs ((h.legible_iff hs).2 halone)
    | none =>
      obtain ⟨N, rows, rfl⟩ := exists_eq_grid hs
      obtain ⟨-, h0, hN, -⟩ := of_mem_ofLines_grid h.mem
      have hcol : (Run.grid N rows).toLayout.columnCount = N := Layout.columnCount_ofRows N rows
      exact exists_writes_of_alone (by rwa [hcol]) (by rwa [hcol]) hs halone

/-- A block comes back on its own if its lines make a run that is the block. -/
theorem alone_of_run (h : OfSource o source r)
    (hwrap : wrap = true → ∃ body, r.toLayout.prose? = some body ∧ fitsInCell body = true) {s : Run}
    (hs : Run.ofLines (chunk o (wrap, r.toLayout)) = [s]) (hl : s.toLayout = r.toLayout) :
    (Document.read o r.toLayout.write).blocks = [r.toLayout] := by
  cases wrap with
  | true =>
    obtain ⟨body, hb, hf⟩ := hwrap rfl
    rw [h.toLayout_of_prose? hb]
    exact alone_of_fits hf o
  | false => rw [Document.read_eq, ← chunk_false, hs, List.map_singleton, hl]

end Run.OfSource
end Gridmark
