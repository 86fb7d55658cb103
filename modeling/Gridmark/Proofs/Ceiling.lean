import Gridmark.Proofs.Freestanding
import Gridmark.Proofs.Packing
/-!
# Ceiling — a grid with as many columns as there can be

The pen finds that a row is full by a sum that stops at the ceiling.  With as many columns as there can be no sum is above
them, so all cells go into the first row (`FirstRow`), and the rows below hold continuations and what fills the columns
between them.  The reader cuts the first row at the last column and finds no content further down.  So content for more
than one row is lost, and so is any cell where the pen has no row to write below the first.
-/
namespace Gridmark

open Picture
open Text (trim joinWith)

/-! ## What comes back of the first row -/

namespace SlotMatrix

theorem filterMap_range (cs : List Cell) : (List.range cs.length).filterMap (fun i => cs[i]?) = cs := by
  have hall : (List.range cs.length).filter (fun i => cs[i]?.any fun _ => true) = List.range cs.length :=
    List.filter_eq_self.2 fun i hi => by simp [List.getElem?_eq_getElem (List.mem_range.1 hi)]
  have hfilter := SlotMatrix.filterMap_range_filter (fun _ => true) cs
  rwa [hall, List.filter_true] at hfilter

/-- What is placed of a row ends with the last column. -/
theorem width_placeFrom_le {N : Nat} (hN : N ≤ Count.ceiling) : ∀ (cs : List Cell) (cursor i : Nat),
    width ((placeFrom N cursor i cs).map Prod.snd) ≤ N - cursor
  | [], _, _ => Nat.zero_le _
  | c :: cs, cursor, i => by
    rw [placeFrom]
    split
    · have := width_placeFrom_le hN cs (Count.add cursor c.columnSpan) i
      rw [Count.add] at this ⊢
      omega
    · have := width_placeFrom_le hN cs (Count.add cursor c.columnSpan) (i + 1)
      rw [List.map_cons, width_cons]
      rw [Count.add] at this ⊢
      dsimp only
      omega

/-- The cells with numbers from a list, each number once, are some of the cells. -/
theorem subperm_filterMap {idx : List Nat} (h : idx.Nodup) (cs : List Cell) : (idx.filterMap fun i => cs[i]?).Subperm cs := by
  have hidx : idx.filterMap (fun i => cs[i]?) = (idx.filter (· < cs.length)).filterMap fun i => cs[i]? := by
    rw [List.filterMap_filter]
    refine List.filterMap_congr fun i _ => ?_
    split
    · rfl
    · rename_i hi
      exact List.getElem?_eq_none (by simpa using hi)
  obtain ⟨l, hl, hsub⟩ := (h.filter _).subperm fun i hi => List.mem_range.2 (of_decide_eq_true (List.mem_filter.1 hi).2)
  have hall := hsub.filterMap fun i => cs[i]?
  rw [filterMap_range] at hall
  rw [hidx]
  exact ⟨l.filterMap fun i => cs[i]?, hl.filterMap _, hall⟩

theorem nodup_eraseDups : ∀ l : List Nat, l.eraseDups.Nodup
  | [] => List.nodup_nil
  | a :: l => by
    rw [List.eraseDups_cons]
    refine List.nodup_cons.2 ⟨fun h => ?_, nodup_eraseDups _⟩
    have := List.mem_eraseDups.1 h
    simp at this
termination_by l => l.length
decreasing_by
  rw [List.length_cons]
  exact Nat.lt_succ_of_le (List.length_filter_le _ _)

variable {Q : CellKind → Bool}

/-- What a layout lists of some kinds is no wider than what was placed of them. -/
theorem width_filter_toLayout_le (m : SlotMatrix) :
    width (m.toLayout.cells.filter fun c => Q c.kind) ≤ width (m.cells.filter fun c => Q c.kind) := by
  have hall : m.toLayout.cells.Subperm m.cells :=
    List.filter_sublist.subperm.trans (subperm_filterMap (nodup_eraseDups _) m.cells)
  obtain ⟨cs, hperm, hsub⟩ := hall.filter fun c => Q c.kind
  calc width (m.toLayout.cells.filter fun c => Q c.kind)
      = width cs := ((hperm.map Cell.columnSpan).sum_eq).symm
    _ ≤ width (m.cells.filter fun c => Q c.kind) := width_le_of_sublist hsub

theorem width_filter_merge (m : SlotMatrix) :
    width (m.merge.cells.filter fun c => Q c.kind) = width (m.cells.filter fun c => Q c.kind) := by
  have hwidth : ∀ cs : List Cell, width (cs.filter fun c => Q c.kind) =
      (((cs.map fun c => (c.kind, c.columnSpan)).filter fun p => Q p.1).map Prod.snd).sum := by
    intro cs
    rw [List.filter_map, List.map_map]
    rfl
  rw [hwidth, map_merge fun _ _ => rfl, ← hwidth]

theorem filter_foldl_placeRow : ∀ {rows : List (List Cell)} {m : SlotMatrix}, (∀ row ∈ rows, ∀ c ∈ row, Q c.kind = false) →
    (rows.foldl placeRow m).cells.filter (fun c => Q c.kind) = m.cells.filter fun c => Q c.kind
  | [], _, _ => rfl
  | row :: rows, m, h => by
    have hnone : ((placeFrom m.columnCount 0 m.cells.length row).map Prod.snd).filter (fun c => Q c.kind) = [] := by
      refine List.filter_eq_nil_iff.2 fun c hc => ?_
      obtain ⟨p, hp, rfl⟩ := List.mem_map.1 hc
      obtain ⟨d, hd, hk⟩ := List.mem_map.1 (kind_mem_placeFrom _ _ _ _ p hp)
      rw [← hk, h row List.mem_cons_self d hd]
      exact Bool.false_ne_true
    rw [List.foldl_cons, filter_foldl_placeRow fun r hr => h r (List.mem_cons_of_mem _ hr), placeRow, List.filter_append,
      hnone, List.append_nil]

/-- **Kinds that only the first row holds take no more than the columns together.** -/
theorem width_filter_ofTexts_le {N : Nat} (hN : N ≤ Count.ceiling) (row : List Cell) {rows : List (List Cell)}
    (h : ∀ r ∈ rows, ∀ c ∈ r, Q c.kind = false) :
    width (((row :: rows).foldl placeRow (empty N)).merge.toLayout.cells.filter fun c => Q c.kind) ≤ N := by
  have hfirst : width (((empty N).placeRow row).cells.filter fun c => Q c.kind) ≤ N :=
    Nat.le_trans (width_le_of_sublist List.filter_sublist) (width_placeFrom_le hN row 0 0)
  refine Nat.le_trans (width_filter_toLayout_le _) ?_
  rw [width_filter_merge, List.foldl_cons, filter_foldl_placeRow h]
  exact hfirst

end SlotMatrix

/-! ## The rows that the pen writes -/

namespace GridPen

/-- The pen in its first row, where no sum is above the columns. -/
structure FirstRow (p : GridPen) : Prop where
  columns : p.columns = Count.ceiling
  merges : p.merges = []
  rows : p.rows = []

variable {p : GridPen}

/-- No cell is too wide for the row. -/
theorem FirstRow.putCell_eq (h : FirstRow p) (c : Cell) (text : Text) : p.putCell c text =
    { p with started := p.started ++ if 1 < c.rowSpan then [(⟨p.cursor, max c.columnSpan 1, c.rowSpan - 1, false⟩ : OpenMerge)]
      else [] }.put (max c.columnSpan 1) text c.kind.isContent := by
  have hdue : p.putDue = p := putDue_of_merges_nil h.merges
  have hroom : p.makeRoom (max c.columnSpan 1) = p := by
    rw [makeRoom_of_fits, hdue]
    rw [h.columns]
    exact Nat.min_le_right _ _
  unfold GridPen.putCell
  dsimp only
  rw [hroom]

theorem FirstRow.putCell (h : FirstRow p) (c : Cell) :
    FirstRow (p.putCell c (cellText c.kind)) ∧ (p.putCell c (cellText c.kind)).row ≠ [] := by
  rw [h.putCell_eq]
  exact ⟨⟨h.columns, h.merges, h.rows⟩, by simp [put]⟩

theorem FirstRow.foldl_putCell : ∀ {cs : List Cell} {p : GridPen}, FirstRow p → p.row ≠ [] ∨ cs ≠ [] →
    FirstRow (cs.foldl (fun p c => p.putCell c (cellText c.kind)) p) ∧
      (cs.foldl (fun p c => p.putCell c (cellText c.kind)) p).row ≠ []
  | [], _, h, hne => ⟨h, hne.resolve_right (absurd rfl)⟩
  | c :: _, _, h, _ => (h.putCell c).1.foldl_putCell (.inl (h.putCell c).2)

theorem FirstRow.started_foldl_putCell : ∀ {cs : List Cell} {p : GridPen}, FirstRow p → (∀ c ∈ cs, c.rowSpan = 1) →
    (cs.foldl (fun p c => p.putCell c (cellText c.kind)) p).started = p.started
  | [], _, _, _ => rfl
  | c :: cs, p, h, hc => by
    have hstarted : (p.putCell c (cellText c.kind)).started = p.started := by
      rw [h.putCell_eq, hc c List.mem_cons_self, if_neg (Nat.lt_irrefl 1), List.append_nil]
      rfl
    rw [List.foldl_cons, (h.putCell c).1.started_foldl_putCell fun d hd => hc d (List.mem_cons_of_mem _ hd), hstarted]

theorem FirstRow.closeRow (h : FirstRow p) (hne : p.row ≠ []) :
    p.closeRow.rows = [p.row] ∧ p.closeRow.merges = p.started := by
  have hsort : OpenMerge.sortByColumn p.merges = [] := by
    rw [h.merges]
    rfl
  rw [GridPen.closeRow, hsort]
  refine ⟨?_, rfl⟩
  show (if p.row.isEmpty then p.rows else p.rows ++ [p.row]) = _
  rw [if_neg (by simpa using hne), h.rows, List.nil_append]

def IsWord (t : Text) : Prop := t = RowCell.continueWord ∨ t = RowCell.spaceWord

/-- **Below the first row there is nothing but the pen's own words**, and nothing at all if no merge was started. -/
theorem FirstRow.exists_finish (h : FirstRow p) (hne : p.row ≠ []) : ∃ rows, p.finish = p.row :: rows ∧
    (∀ row ∈ rows, row ≠ [] ∧ ∀ c ∈ row, IsWord c.text) ∧ (p.started = [] → rows = []) := by
  obtain ⟨hrows, hmerges⟩ := h.closeRow hne
  have hclosed : p.closeRow.Texts IsWord [p.row] :=
    ⟨fun _ hc => (by cases hc), [], hrows, fun _ hr => (by cases hr)⟩
  obtain ⟨rows, hfinish, hall⟩ := (hclosed.closeAll ⟨.inl rfl, .inr rfl⟩).rows
  refine ⟨rows, hfinish, hall, fun hs => ?_⟩
  rw [closeAll_of_nil (hmerges.trans hs), hrows] at hfinish
  exact (List.cons.inj hfinish).2.symm

theorem exists_cell_of_isWord {c : PenCell} (h : IsWord c.text) : ∃ d : Cell, d.columnSpan = c.span ∧
    cellText d.kind = c.text ∧ d.kind.isContent = false ∧ ∀ shown last, CellKind.ReadsBack shown last d.kind := by
  rcases h with h | h
  · exact ⟨.ofKind .continuation c.span, rfl, h.symm, rfl, CellKind.readsBack_continuation⟩
  · exact ⟨.ofKind .empty c.span, rfl, h.symm, rfl, CellKind.readsBack_empty⟩

/-- **A row of the pen's own words reads as a row without content.** -/
theorem exists_read?_of_isWord {N : Nat} (h0 : 0 < N) (hN : N ≤ Count.ceiling) {row : List PenCell} (hne : row ≠ [])
    (h : ∀ c ∈ row, IsWord c.text) : ∃ inside, GridRow.read? (rowText N row) = some (N, inside) ∧
      ∀ c ∈ RowCell.resolve (RowCell.readRow inside) N, c.kind.isContent = false := by
  have hcell := fun c hc => exists_cell_of_isWord (h c hc)
  choose! f hspan htext hkind hback using hcell
  have hfragment : ∀ explicit, row.map (penCellText explicit) = (row.map f).map (fragment explicit) := by
    intro explicit
    rw [List.map_map]
    refine List.map_congr_left fun c hc => ?_
    rw [Function.comp_apply, fragment, shows, hspan c hc, htext c hc]
    rfl
  have hlegible : ∀ explicit, RowLegible explicit (row.map f) := fun explicit => rowLegible_of_readsBack fun d hd => by
    obtain ⟨c, hc, rfl⟩ := List.mem_map.1 hd
    exact hback c hc
  generalize hx : decide ((row.map PenCell.span).foldl Count.add 0 < N) = explicit
  have hrow : rowText N row = bracketed N ++ '\x7b' ::
      (' ' :: (joinWith [',', ' '] ((row.map f).map (fragment explicit)) ++ [' ']) ++ ['\x7d']) := by
    rw [rowText, hx, hfragment]
    simp
  refine ⟨_, by rw [hrow, GridRow.read?_bracketed h0 hN], fun c hc => ?_⟩
  have hk := List.mem_map_of_mem (f := Cell.kind) hc
  rw [RowCell.map_kind_resolve, RowCell.readRow, splitTop_fragments (by simpa using hne) (hlegible explicit),
    List.map_map, List.map_map, List.map_map] at hk
  obtain ⟨d, hd, hk⟩ := List.mem_map.1 hk
  obtain ⟨b, hb, rfl⟩ := List.mem_map.1 hd
  obtain ⟨last, hl⟩ := exists_readsBack (hlegible explicit) _ (List.mem_map_of_mem hb)
  have hread := kind_read_fragment hl
  rw [← hk]
  show (RowCell.read (trim (fragment explicit (f b)))).kind.isContent = false
  rw [hread, hkind b hb]

end GridPen

/-- **What is read of a grid with as many columns as there can be**: the row with its cells, and rows of `continue` and
`space` under it.  If no cell has more than one row there are none of these. -/
theorem Layout.exists_blocks_of_ceiling (o : ReadOptions) {l : Layout} (hN : l.columnCount = Count.ceiling) (hne : l.cells ≠ [])
    (hs : l.single? = none) : ∃ first rest, (Document.read o l.write).blocks = [Layout.ofRows Count.ceiling (first :: rest)] ∧
      (∀ row ∈ rest, ∀ c ∈ RowCell.resolve (RowCell.readRow row) Count.ceiling, c.kind.isContent = false) ∧
      ((∀ c ∈ l.cells, c.rowSpan = 1) → rest = []) := by
  have hcols : max l.columnCount 1 = Count.ceiling := by
    rw [hN]
    rfl
  have hstart : GridPen.FirstRow (GridPen.ofLayout l) := ⟨hcols, rfl, rfl⟩
  obtain ⟨hfirst, hrne⟩ : GridPen.FirstRow (GridPen.write l) ∧ (GridPen.write l).row ≠ [] := hstart.foldl_putCell (.inr hne)
  obtain ⟨rows, hfinish, hwords, hstarted⟩ := hfirst.exists_finish hrne
  have hread : ∀ row : List PenCell, ∃ inside,
      SourceLine.read o (GridPen.rowText Count.ceiling row) = .gridRow Count.ceiling inside ∧
        (row ∈ rows → ∀ c ∈ RowCell.resolve (RowCell.readRow inside) Count.ceiling, c.kind.isContent = false) := by
    intro row
    by_cases hr : row ∈ rows
    · obtain ⟨inside, hin, hno⟩ :=
        GridPen.exists_read?_of_isWord (by decide) (Nat.le_refl _) (hwords row hr).1 (hwords row hr).2
      exact ⟨inside, by rw [SourceLine.read, hin], fun _ => hno⟩
    · obtain ⟨inside, hin⟩ := GridPen.exists_read_rowText o (by decide) (Nat.le_refl _) row
      exact ⟨inside, hin, fun h => absurd h hr⟩
  choose inside hin hno using hread
  have hlines : (GridPen.write l).lines.flatMap SourceLine.ofSource =
      ((GridPen.write l).row :: rows).map (GridPen.rowText Count.ceiling) := by
    rw [GridPen.lines, hfinish, hfirst.columns]
    refine SourceLine.ofSource_lines fun t ht => ?_
    obtain ⟨row, hr, rfl⟩ := List.mem_map.1 ht
    exact ⟨GridPen.rowText_ne_nil _ _, GridPen.not_mem_rowText _ (GridPen.not_mem_finish_write l row (hfinish ▸ hr)),
      Picture.trimmed_rowText _ _⟩
  have hinsides : (((GridPen.write l).row :: rows).map (GridPen.rowText Count.ceiling)).map (SourceLine.read o) =
      (((GridPen.write l).row :: rows).map inside).map (.gridRow Count.ceiling) := by
    rw [List.map_map, List.map_map]
    exact List.map_congr_left fun row _ => hin row
  refine ⟨inside (GridPen.write l).row, rows.map inside, ?_, List.forall_mem_map.2 hno, fun hrow => ?_⟩
  · rw [Document.read_eq, Layout.ofText_write hs, hlines, hinsides, Run.ofLines_gridRows _ (by simp)]
    rfl
  · rw [hstarted (hstart.started_foldl_putCell hrow), List.map_nil]

/-- **A grid with as many columns as there can be loses what its first row cannot hold**: content always, and any cell if no
cell has more than one row. -/
theorem Layout.read_write_ne_of_ceiling (o : ReadOptions) {l : Layout} (hN : l.columnCount = Count.ceiling)
    (hs : l.single? = none)
    (hw : (∀ c ∈ l.cells, c.rowSpan = 1) ∧ l.columnCount < width l.cells ∨
      l.columnCount < width (l.cells.filter fun c => c.kind.isContent)) : (Document.read o l.write).blocks ≠ [l] := by
  have hne : l.cells ≠ [] := by
    intro he
    rw [he] at hw
    rcases hw with ⟨-, hw⟩ | hw <;> exact absurd hw (Nat.not_lt_zero _)
  obtain ⟨first, rest, hblocks, hno, hnil⟩ := Layout.exists_blocks_of_ceiling o hN hne hs
  rw [hblocks]
  intro he
  have hl := (List.cons.inj he).1
  rw [Layout.ofRows_eq, ofTexts, List.map_cons, ← ofTexts] at hl
  have hle : ∀ Q : CellKind → Bool, (∀ row ∈ rest, ∀ c ∈ RowCell.resolve (RowCell.readRow row) Count.ceiling,
      Q c.kind = false) → width (l.cells.filter fun c => Q c.kind) ≤ Count.ceiling := by
    intro Q hQ
    rw [← hl]
    refine SlotMatrix.width_filter_ofTexts_le (Nat.le_refl _) _ fun r hr => ?_
    obtain ⟨row, hrow, rfl⟩ := List.mem_map.1 hr
    exact hQ row hrow
  rw [hN] at hw
  rcases hw with ⟨hrow, hw⟩ | hw
  · have := hle (fun _ => true) (by simp [hnil hrow])
    rw [List.filter_true] at this
    omega
  · have := hle CellKind.isContent hno
    omega

end Gridmark
