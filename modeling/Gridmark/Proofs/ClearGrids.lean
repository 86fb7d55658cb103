import Gridmark.Proofs.Packing
import Gridmark.Proofs.PenRun
import Gridmark.Proofs.WellFormed
/-!
# ClearGrids — grids that come back from resolved rows

A grid that has been read keeps neither its rows nor the continuations that were discarded, and the pen has to find rows
that read as its cells.  It does so if no cell is written where its row still owes a `continue`: then every `continue`
stands under its cell, and all that can go wrong is that a gap has to be filled with an empty cell
(`Document.read_write_ofRows_iff`).
-/
namespace Gridmark

open Picture Stitch

namespace GridPen

variable {N : Nat} {rows : List (List Stitch)} {l : Layout}

theorem rowText_congr {row row' : List PenCell}
    (h : row.map (fun c => (c.span, c.text)) = row'.map fun c => (c.span, c.text)) : rowText N row = rowText N row' := by
  have hspan : row.map PenCell.span = row'.map PenCell.span := by
    have hfst := congrArg (List.map Prod.fst) h
    rwa [List.map_map, List.map_map] at hfst
  have htext : ∀ explicit, row.map (penCellText explicit) = row'.map (penCellText explicit) := by
    intro explicit
    have hboth := congrArg (List.map fun q : Nat × Text => penCellText explicit ⟨0, q.1, q.2, false⟩) h
    rwa [List.map_map, List.map_map] at hboth
  unfold rowText
  dsimp only
  rw [hspan, htext]

theorem rowText_pen (row : List Stitch) : rowText N (row.map pen) = rowText N (penRow (row.map cell)) := by
  apply rowText_congr
  rw [map_penRow (g := fun c => (c.columnSpan, cellText c.kind)) fun _ => rfl, List.map_map, List.map_map]
  rfl

theorem fits_cell {row : List Stitch} (h : Row N row) (hne : row ≠ []) : Fits N (row.map cell) := by
  refine ⟨by simpa using hne, h.span_pos, fun c hc => ?_, h.width_le⟩
  obtain ⟨x, -, rfl⟩ := List.mem_map.1 hc
  rfl

/-- Every stitch of a written layout reads back: it is one of the layout's, empty, or a `continue`. -/
theorem Padded.readsBack (h : Padded l.cells (listing rows.flatten)) (hsafe : ∀ c ∈ l.cells, c.Safe) {row : List Stitch}
    (hrow : row ∈ rows) {x : Stitch} (hx : x ∈ row) (shown last : Bool) : CellKind.ReadsBack shown last x.kind := by
  cases hk : x.kind with
  | continuation => exact CellKind.readsBack_continuation shown last
  | empty => exact CellKind.readsBack_empty shown last
  | content e =>
    have hlisted : x.whole ∈ listing rows.flatten := by
      refine List.mem_filter.2 ⟨List.mem_map_of_mem (List.mem_flatten.2 ⟨row, hrow, hx⟩), ?_⟩
      simp [whole, hk, CellKind.isContinuation]
    have hmem : x.whole ∈ l.cells.filter fun c => c.kind ≠ .empty := by
      rw [← h.filter_eq]
      exact List.mem_filter.2 ⟨hlisted, by simp [whole, hk]⟩
    have hback := (hsafe _ (List.mem_filter.1 hmem).1).readsBack shown last
    rwa [whole, hk] at hback

/-- Nothing was put in between if there are no more empty cells than before. -/
theorem Padded.eq_iff {cs ds : List Cell} (h : Padded cs ds) :
    ds = cs ↔ ds.countP (fun c => c.kind = .empty) = cs.countP fun c => c.kind = .empty := by
  constructor
  · rintro rfl
    rfl
  · intro hcount
    have hsplit : ∀ es : List Cell, es.length =
        es.countP (fun c => c.kind = .empty) + (es.filter fun c => c.kind ≠ .empty).length := by
      intro es
      rw [← List.countP_eq_length_filter, List.length_eq_countP_add_countP (fun c : Cell => decide (c.kind = .empty))]
      simp
    refine (h.sublist.eq_of_length ?_).symm
    rw [hsplit cs, hsplit ds, hcount, h.filter_eq]

/-- The `space` words are the empty cells. -/
theorem countP_spaceWord {row : List Stitch} (h : ∀ x ∈ row, ∀ shown last, CellKind.ReadsBack shown last x.kind) :
    (row.map pen).countP (fun c => c.text = RowCell.spaceWord) = (listing row).countP fun c => c.kind = .empty := by
  rw [listing, List.countP_filter, List.countP_map, List.countP_map]
  refine List.countP_congr fun x hx => ?_
  have hkind := (h x hx true true).kind_eq
  have hspace : x.pen.text = RowCell.spaceWord ↔ x.kind = .empty := by
    constructor
    · intro he
      rw [← hkind]
      exact (congrArg (fun t => (RowCell.ofBody none t).kind) he).trans (by decide)
    · intro he
      show cellText x.kind = _
      rw [he]
      rfl
  cases hk : x.kind <;> simp_all [whole, CellKind.isContinuation]

/-- Every `continue` that merges stands under a cell of its span that it merges into. -/
def Meets (above row : List PenCell) : Prop :=
  ∀ x ∈ row, x.text = RowCell.continueWord → x.absorbs = true →
    ∃ y ∈ above, y.start = x.start ∧ y.span = x.span ∧ y.absorbs = true

theorem Meets.of_woven {above row : List Stitch} (hw : Woven N above row)
    (h : ∀ x ∈ row, ∀ shown last, CellKind.ReadsBack shown last x.kind) : Meets (above.map pen) (row.map pen) := by
  intro c hc htext habs
  obtain ⟨x, hx, rfl⟩ := List.mem_map.1 hc
  have hkind : x.kind = .continuation := by
    rw [← (h x hx true true).kind_eq]
    exact (congrArg (fun t => (RowCell.ofBody none t).kind) htext).trans (by decide)
  obtain ⟨y, hy, hcarry⟩ := hw.owed x hx hkind habs
  exact ⟨y.pen, List.mem_map_of_mem hy, hcarry.start, hcarry.span, hcarry.absorbs⟩

/-- **What is read of a clear layout's text** are the cells that its rows announce. -/
theorem exists_read_write (o : ReadOptions) (h0 : 0 < l.columnCount) (hN : l.columnCount ≤ Count.ceiling) (hne : l.cells ≠ [])
    (hs : l.single? = none) (hcells : ∀ c ∈ l.cells, Finished c) (hsafe : ∀ c ∈ l.cells, c.Safe)
    (hclear : Clear (ofLayout l) l.cells) :
    ∃ rows : List (List Stitch), (GridPen.write l).finish = rows.map (fun row => row.map pen) ∧
      ([] :: rows).IsChain (Woven l.columnCount) ∧ Padded l.cells (listing rows.flatten) ∧
      (Document.read o l.write).blocks = [⟨l.columnCount, listing rows.flatten⟩] := by
  obtain ⟨rows, hfinish, hrows, hnil, hchain, hlast, hpadded⟩ := exists_woven_finish h0 hN hne hcells hclear
  have hback : ∀ row ∈ rows, ∀ x ∈ row, ∀ shown last, CellKind.ReadsBack shown last x.kind :=
    fun row hrow x hx shown last => hpadded.readsBack hsafe hrow hx shown last
  have hfits : ∀ row ∈ rows.map fun row => row.map cell, Fits l.columnCount row := by
    intro r hr
    obtain ⟨row, hrow, rfl⟩ := List.mem_map.1 hr
    exact fits_cell (row_of_isChain hchain row hrow) (hnil row hrow)
  have hlegible : ∀ row ∈ rows.map fun row => row.map cell, RowLegible (decide (Picture.width row < l.columnCount)) row := by
    intro r hr
    obtain ⟨row, hrow, rfl⟩ := List.mem_map.1 hr
    refine rowLegible_of_readsBack fun c hc => ?_
    obtain ⟨x, hx, rfl⟩ := List.mem_map.1 hc
    exact hback row hrow x hx
  obtain ⟨insides, hlines, htexts⟩ := exists_ofTexts h0 hN hfits hlegible o
  have hwritten : (GridPen.write l).lines =
      (rows.map fun row => row.map cell).map fun row => rowText l.columnCount (penRow row) := by
    rw [lines, hfinish, columns_write, Nat.max_eq_left h0, List.map_map, List.map_map]
    exact List.map_congr_left fun row _ => rowText_pen row
  have hinsides : insides ≠ [] := by
    rintro rfl
    exact hrows (List.map_eq_nil_iff.1 htexts.symm)
  have hread : Layout.ofRows l.columnCount insides = ⟨l.columnCount, listing rows.flatten⟩ := by
    have hread : (Layout.ofRows l.columnCount insides).cells = listing rows.flatten := by
      rw [Layout.ofRows_eq, htexts]
      exact SlotMatrix.cells_toLayout_woven hN hchain hlast
    calc Layout.ofRows l.columnCount insides
        = ⟨(Layout.ofRows l.columnCount insides).columnCount, (Layout.ofRows l.columnCount insides).cells⟩ := rfl
      _ = ⟨l.columnCount, listing rows.flatten⟩ := by rw [Layout.columnCount_ofRows, hread]
  refine ⟨rows, hfinish, hchain, hpadded, ?_⟩
  rw [Document.read_eq, Layout.ofText_write hs, hwritten, hlines, Run.ofLines_gridRows _ hinsides, List.map_singleton,
    Run.toLayout, hread]

theorem finished_of_mem_ofRows {rows : List Text} (hN : N ≤ Count.ceiling) {c : Cell} (h : c ∈ (Layout.ofRows N rows).cells) :
    Finished c := by
  obtain ⟨hwithin, hkind⟩ := Layout.of_mem_cells_ofRows hN h
  refine ⟨hwithin.span_pos, hwithin.rows_pos, ?_, fun hempty => hwithin.rows_eq ?_⟩
  · cases hk : c.kind with
    | continuation => exact absurd hk hkind
    | empty => rfl
    | content e => rfl
  · rw [hempty]
    rfl

end GridPen

open GridPen

/-- **A clear grid that was made from rows comes back just if the pen needs no `space` to fill a gap.**  All that is lost
otherwise is that there are more empty cells, and each `continue` stands under its cell in any case. -/
theorem Document.read_write_ofRows_iff (o : ReadOptions) {N : Nat} (h0 : 0 < N) (hN : N ≤ Count.ceiling) {rows : List Text}
    {l : Layout} (hl : Layout.ofRows N rows = l) (hne : l.cells ≠ []) (hs : l.single? = none)
    (hsafe : ∀ c ∈ l.cells, ∀ e, c.kind = .content e → e.CellSafe) (hclear : Clear (ofLayout l) l.cells) :
    ((Document.read o l.write).blocks = [l] ↔
      (GridPen.write l).finish.flatten.countP (fun c => c.text = RowCell.spaceWord) =
        l.cells.countP fun c => c.kind = .empty) ∧
      (∃ cells, (Document.read o l.write).blocks = [⟨N, cells⟩] ∧ Padded l.cells cells) ∧
      ([] :: (GridPen.write l).finish).IsChain Meets := by
  have hcolumns : l.columnCount = N := hl ▸ Layout.columnCount_ofRows N rows
  subst hcolumns
  have hfinished : ∀ c ∈ l.cells, Finished c := fun c hc => finished_of_mem_ofRows hN (hl ▸ hc)
  have hsafe : ∀ c ∈ l.cells, c.Safe := by
    intro c hc
    cases hk : c.kind with
    | empty => exact .inl hk
    | content e => exact .inr ⟨e, hk, hsafe c hc e hk⟩
    | continuation =>
      have hnot := (hfinished c hc).not_isContinuation
      rw [hk] at hnot
      cases hnot
  obtain ⟨woven, hfinish, hchain, hpadded, hread⟩ := exists_read_write o h0 hN hne hs hfinished hsafe hclear
  have hback : ∀ row ∈ woven, ∀ x ∈ row, ∀ shown last, CellKind.ReadsBack shown last x.kind :=
    fun row hrow x hx => hpadded.readsBack hsafe hrow hx
  refine ⟨?_, ⟨_, hread, hpadded⟩, ?_⟩
  · rw [hread, hfinish, ← List.map_flatten, countP_spaceWord, ← hpadded.eq_iff]
    · constructor
      · intro he
        exact congrArg Layout.cells (List.cons.inj he).1
      · intro he
        rw [he]
    · intro x hx
      obtain ⟨row, hrow, hx⟩ := List.mem_flatten.1 hx
      exact hback row hrow x hx
  · rw [hfinish]
    refine (List.isChain_map (fun row => row.map pen) (l := [] :: woven)).2 ?_
    exact hchain.imp_of_mem_tail_imp fun above row _ hrow hw => .of_woven hw (hback row hrow)

/-- Four columns and three rows.  The second row leaves a gap between its cell and the `continue` of a tall one. -/
def Layout.landing : Layout where
  columnCount := 4
  cells := [⟨.content (.prose ['a']), 1, 1⟩, ⟨.content (.prose ['b']), 1, 1⟩, ⟨.content (.prose ['c']), 1, 1⟩,
    ⟨.content (.prose ['p']), 1, 2⟩, ⟨.content (.prose ['q']), 1, 1⟩, ⟨.content (.prose ['r']), 4, 1⟩]

def Layout.landingRows : List Text :=
  ["a, b, c, p".toList, "q, [2]: continue, continue".toList, "[4]: r".toList]

theorem Document.read_write_landing :
    Layout.ofRows 4 Layout.landingRows = Layout.landing ∧
      (Document.read default Layout.landing.write).blocks = [Layout.landing] ∧
      ([] :: (GridPen.write Layout.landing).finish).IsChain Meets := by
  have hl : Layout.ofRows 4 Layout.landingRows = Layout.landing := by decide
  have hsafe : ∀ c ∈ Layout.landing.cells, ∀ e, c.kind = .content e → e.CellSafe := by
    intro c hc e he
    simp only [Layout.landing, List.mem_cons, List.not_mem_nil, or_false] at hc
    rcases hc with rfl | rfl | rfl | rfl | rfl | rfl <;> cases he <;> exact Element.cellSafe_letter (by decide)
  obtain ⟨hiff, -, hmeets⟩ := Document.read_write_ofRows_iff default (by decide) (by decide) hl (by decide) (by decide) hsafe
    (by decide +kernel)
  exact ⟨hl, hiff.2 (by decide +kernel), hmeets⟩

end Gridmark
