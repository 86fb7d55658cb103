import Gridmark.Proofs.Placement
import Gridmark.Proofs.RowText
import Gridmark.Proofs.Runs
/-!
# GridText — a layout reads back from its grid rows

A layout is shown by a picture when the picture's cells are the layout's, each new cell of the picture is too wide for the
row above it and every cell reads back from its own text (`Shows`).  Then the pen writes the rows of the picture, each row
reads back as the row it was, and the slot matrix finds the cells again: the rows make one run, whose layout is the one
they were written from (`Shows.exists_run`).
-/
namespace Gridmark

open Picture
open Text (joinWith)

theorem Layout.ofText_write {l : Layout} (h : l.single? = none) (o : ReadOptions) :
    SourceLine.ofText o l.write = ((GridPen.write l).lines.flatMap SourceLine.ofSource).map (SourceLine.read o) := by
  rw [SourceLine.ofText, Layout.write, SourceLine.ofSource_joinWith, Snapshot.blockLines, h]

/-! ## No line feed in a row -/

theorem Text.not_mem_of_mem_lines {t l : Text} (h : l ∈ lines t) : '\n' ∉ l := by
  fun_induction lines t generalizing l with
  | case1 => cases h
  | case2 t ih =>
    rcases List.mem_cons.1 h with rfl | h
    · exact List.not_mem_nil
    · exact ih h
  | case3 t ih =>
    rcases List.mem_cons.1 h with rfl | h
    · exact List.not_mem_nil
    · exact ih h
  | case4 c t hn _ hl ih =>
    rw [List.mem_singleton.1 h, List.mem_singleton]
    exact fun hc => hn hc.symm
  | case5 c t hn _ l' ls hl ih =>
    rw [hl] at ih
    rcases List.mem_cons.1 h with rfl | h
    · rw [List.mem_cons, not_or]
      exact ⟨fun hc => hn hc.symm, ih List.mem_cons_self⟩
    · exact ih (List.mem_cons_of_mem _ h)

namespace GridPen

theorem not_mem_cellText (k : CellKind) : '\n' ∉ cellText k := by
  cases k with
  | empty => decide
  | continuation => decide
  | content e => exact Text.not_mem_joinWith (by decide) fun _ hl => Text.not_mem_of_mem_lines hl

theorem not_mem_bracketed (n : Nat) : '\n' ∉ bracketed n := by
  have hd : '\n' ∉ Text.ofNat n := fun h => absurd (Count.isDigit_of_mem_ofNat h) (by decide)
  simpa [bracketed] using hd

theorem not_mem_penRow (row : List Cell) : ∀ c ∈ penRow row, '\n' ∉ c.text := by
  intro c hc
  obtain ⟨q, -, rfl⟩ := List.mem_map.1 hc
  exact not_mem_cellText _

theorem not_mem_rowText (N : Nat) {row : List PenCell} (h : ∀ c ∈ row, '\n' ∉ c.text) : '\n' ∉ rowText N row := by
  have hcell : ∀ explicit, ∀ t ∈ row.map (penCellText explicit), '\n' ∉ t := by
    intro explicit t ht
    obtain ⟨c, hc, rfl⟩ := List.mem_map.1 ht
    rw [penCellText]
    split
    · rw [List.mem_append, not_or]
      exact ⟨not_mem_bracketed _, h c hc⟩
    · exact h c hc
  rw [rowText]
  simp only [List.mem_append, not_or]
  exact ⟨⟨⟨not_mem_bracketed N, by decide⟩, Text.not_mem_joinWith (by decide) (hcell _)⟩, by decide⟩

theorem exists_read_rowText (o : ReadOptions) {N : Nat} (h0 : 0 < N) (hN : N ≤ Count.ceiling) (row : List PenCell) :
    ∃ inside, SourceLine.read o (rowText N row) = .gridRow N inside := by
  have h : ∃ inside, rowText N row = bracketed N ++ '\x7b' :: (inside ++ ['\x7d']) := by
    refine ⟨' ' :: (joinWith [',', ' '] (row.map (penCellText
      (decide ((row.map PenCell.span).foldl Count.add 0 < N)))) ++ [' ']), ?_⟩
    rw [rowText]
    simp
  obtain ⟨inside, h⟩ := h
  exact ⟨inside, by rw [SourceLine.read, h, GridRow.read?_bracketed h0 hN]⟩

theorem rowText_ne_nil (N : Nat) (row : List PenCell) : rowText N row ≠ [] := List.cons_ne_nil _ _

/-- The pen has written some rows before, and since then no row without cells and only texts of one sort. -/
structure Texts (Q : Text → Prop) (before : List (List PenCell)) (p : GridPen) : Prop where
  row : ∀ c ∈ p.row, Q c.text
  rows : ∃ rows, p.rows = before ++ rows ∧ ∀ row ∈ rows, row ≠ [] ∧ ∀ c ∈ row, Q c.text

namespace Texts

variable {Q : Text → Prop} {before : List (List PenCell)} {p : GridPen}

theorem put (h : p.Texts Q before) (span : Nat) {text : Text} (ht : Q text) (absorbs : Bool) :
    (p.put span text absorbs).Texts Q before := by
  refine ⟨fun c hc => ?_, h.rows⟩
  rcases List.mem_append.1 hc with hc | hc
  · exact h.row c hc
  · rw [List.mem_singleton.1 hc]
    exact ht

theorem foldl_put : ∀ {fs : List (Nat × Text)} {p : GridPen}, p.Texts Q before → (∀ f ∈ fs, Q f.2) →
    (fs.foldl (fun p f => p.put f.1 f.2 false) p).Texts Q before
  | [], _, h, _ => h
  | f :: fs, _, h, hf => by
    rw [List.foldl_cons]
    exact (h.put f.1 (hf f List.mem_cons_self) false).foldl_put fun g hg => hf g (List.mem_cons_of_mem _ hg)

/-! What the pen writes on its own is one of two words. -/

variable (hQ : Q RowCell.continueWord ∧ Q RowCell.spaceWord)
include hQ

theorem putDue (h : p.Texts Q before) : p.putDue.Texts Q before := by
  fun_induction GridPen.putDue p with
  | case1 p m merges _ ih =>
    have hm : Texts Q before { p with merges := merges } := ⟨h.row, h.rows⟩
    exact ih (hm.put _ hQ.1 _)
  | case2 p _ => exact h

theorem of_mem_filler (above : List PenCell) (cursor gap : Nat) : ∀ f ∈ filler above cursor gap, Q f.2 := by
  fun_induction filler above cursor gap with
  | case1 => simp
  | case2 => simpa using hQ.2
  | case3 _ _ _ _ _ ih => exact List.forall_mem_cons.2 ⟨hQ.1, ih⟩
  | case4 => simpa using hQ.1

theorem settle (h : p.Texts Q before) (m : OpenMerge) : (p.settle m).Texts Q before := by
  rw [GridPen.settle]
  split
  · exact h
  · exact (h.foldl_put (of_mem_filler hQ _ _ _)).put _ hQ.1 _

theorem foldl_settle : ∀ {ms : List OpenMerge} {p : GridPen}, p.Texts Q before →
    (ms.foldl GridPen.settle p).Texts Q before
  | [], _, h => h
  | m :: ms, _, h => by
    rw [List.foldl_cons]
    exact foldl_settle (h.settle hQ m)

theorem closeRow (h : p.Texts Q before) : p.closeRow.Texts Q before := by
  have hs : ((OpenMerge.sortByColumn p.merges).foldl GridPen.settle p).Texts Q before := h.foldl_settle hQ
  obtain ⟨rows, hrows, hall⟩ := h.rows
  refine ⟨fun _ hc => (by cases hc), ?_⟩
  rw [GridPen.closeRow]
  dsimp only
  split
  · exact ⟨rows, hrows, hall⟩
  · rename_i hne
    refine ⟨rows ++ [((OpenMerge.sortByColumn p.merges).foldl GridPen.settle p).row], by rw [hrows, List.append_assoc], ?_⟩
    intro row hr
    rcases List.mem_append.1 hr with hr | hr
    · exact hall row hr
    · rw [List.mem_singleton.1 hr]
      exact ⟨by simpa using hne, hs.row⟩

theorem makeRoom (h : p.Texts Q before) (span : Nat) : (p.makeRoom span).Texts Q before := by
  fun_induction GridPen.makeRoom p span with
  | case1 p _ ih => exact ih ((h.putDue hQ).closeRow hQ)
  | case2 p _ => exact h.putDue hQ

theorem putCell (h : p.Texts Q before) {c : Cell} (hc : Q (cellText c.kind)) :
    (p.putCell c (cellText c.kind)).Texts Q before := by
  have hroom := h.makeRoom hQ (max c.columnSpan 1)
  rw [GridPen.putCell]
  refine Texts.put ?_ _ hc _
  exact ⟨hroom.row, hroom.rows⟩

theorem foldl_putCell : ∀ {cs : List Cell} {p : GridPen}, p.Texts Q before → (∀ c ∈ cs, Q (cellText c.kind)) →
    (cs.foldl (fun p c => p.putCell c (cellText c.kind)) p).Texts Q before
  | [], _, h, _ => h
  | c :: cs, _, h, hcs => by
    rw [List.foldl_cons]
    exact foldl_putCell (h.putCell hQ (hcs c List.mem_cons_self)) fun d hd => hcs d (List.mem_cons_of_mem _ hd)

theorem closeAll (h : p.Texts Q before) : p.closeAll.Texts Q before := by
  fun_induction GridPen.closeAll p with
  | case1 p _ => exact h
  | case2 p _ ih => exact ih (h.closeRow hQ)

end Texts

theorem not_mem_finish_write (l : Layout) : ∀ row ∈ (write l).finish, ∀ c ∈ row, '\n' ∉ c.text := by
  have hQ : '\n' ∉ RowCell.continueWord ∧ '\n' ∉ RowCell.spaceWord := by decide
  have hstart : (ofLayout l).Texts (fun t => '\n' ∉ t) [] := ⟨fun _ hc => (by cases hc), [], rfl, fun _ hr => (by cases hr)⟩
  have hwrite := hstart.foldl_putCell hQ fun c (_ : c ∈ l.cells) => not_mem_cellText c.kind
  obtain ⟨rows, hrows, hall⟩ := ((hwrite.closeRow hQ).closeAll hQ).rows
  rw [List.nil_append] at hrows
  rw [finish, write, hrows]
  exact fun row hr => (hall row hr).2

/-- **Any layout is written as grid rows of its columns.** -/
theorem exists_insides (o : ReadOptions) {l : Layout} (hN : l.columnCount ≤ Count.ceiling) :
    ∃ insides : List Text, ((write l).lines.flatMap SourceLine.ofSource).map (SourceLine.read o) =
      insides.map (.gridRow (max l.columnCount 1)) := by
  have hread := exists_read_rowText o (Nat.le_max_right l.columnCount 1) (Nat.max_le.2 ⟨hN, by decide⟩)
  choose inside hin using hread
  refine ⟨(write l).finish.map inside, ?_⟩
  rw [lines, columns_write, SourceLine.ofSource_lines, List.map_map, List.map_map]
  · exact List.map_congr_left fun row _ => hin row
  · intro t ht
    obtain ⟨row, hr, rfl⟩ := List.mem_map.1 ht
    exact ⟨rowText_ne_nil _ _, not_mem_rowText _ (not_mem_finish_write l row hr), Picture.trimmed_rowText _ _⟩

end GridPen

/-! ## Full rows -/

/-- The pen finds that a full row is full, or the cells need no more than one row. -/
def Layout.Closes (l : Layout) : Prop := l.columnCount < Count.ceiling ∨ Picture.width l.cells ≤ l.columnCount

namespace Picture

theorem width_filterMap_grown? {below : List (List Cell)} : ∀ {row : List Cell} {s : Nat},
    (∀ c ∈ row, c.kind.isContinuation = false) → width ((placed s row).filterMap (grown? below)) = width row
  | [], _, _ => rfl
  | c :: row, s, h => by
    have hg : grown? below (s, c) = some { c with rowSpan := c.rowSpan + depth s below } := by
      rw [grown?, h c List.mem_cons_self]
      rfl
    rw [placed, List.filterMap_cons_some hg, width_cons, width_cons,
      width_filterMap_grown? fun d hd => h d (List.mem_cons_of_mem _ hd)]

theorem tight_of_width {N : Nat} (hN : N ≤ Count.ceiling) : ∀ {rows : List (List Cell)}, (∀ row ∈ rows, width row = N) →
    (∀ c ∈ cells rows, 0 < c.columnSpan) → (N < Count.ceiling ∨ cells rows.tail = []) → Tight N rows
  | [], _, _, _ => trivial
  | row :: rows, hw, hpos, hroom => by
    have hrows : ∀ c ∈ cells rows, 0 < c.columnSpan := fun c hc => hpos c (List.mem_append_right _ hc)
    refine ⟨fun c hc => ?_, tight_of_width hN (fun r hr => hw r (List.mem_cons_of_mem _ hr)) hrows ?_⟩
    · rcases hroom with hroom | hroom
      · have := hrows c (List.mem_of_mem_head? hc)
        rw [hw row List.mem_cons_self, Count.add]
        omega
      · rw [List.tail_cons] at hroom
        rw [hroom] at hc
        cases hc
    · refine hroom.imp_right fun hnil => ?_
      cases rows with
      | nil => rfl
      | cons row' rows => exact (List.append_eq_nil_iff.1 hnil).2

/-- **Full rows are tight** below the ceiling, and under the ceiling if the cells need no more than one row. -/
theorem IsPicture.tight_of_width {N : Nat} (hN : N ≤ Count.ceiling) {rows : List (List Cell)} (h : IsPicture N rows)
    (hw : ∀ row ∈ rows, width row = N) (hroom : N < Count.ceiling ∨ width (cells rows) ≤ N) : Tight N rows := by
  have hpos := GridPen.span_pos_of_mem_cells h.fits
  refine Picture.tight_of_width hN hw hpos (hroom.imp_right fun hle => ?_)
  cases rows with
  | nil => rfl
  | cons row rows =>
    have htop : ∀ c ∈ row, c.kind.isContinuation = false := fun c hc => by
      obtain ⟨q, hq, rfl⟩ : ∃ q ∈ placed 0 row, q.2 = c := List.mem_map.1 (by rwa [map_snd_placed])
      cases hk : q.2.kind.isContinuation with
      | false => rfl
      | true =>
        obtain ⟨d, hd, -⟩ := (List.isChain_cons_cons.1 h.aligned).1 q hq hk
        cases hd
    rw [cells, width_append, width_filterMap_grown? htop, hw row List.mem_cons_self] at hle
    refine List.eq_nil_iff_forall_not_mem.2 fun c hc => ?_
    have h1 := columnSpan_le_width hc
    have h2 := hpos c (List.mem_append_right _ hc)
    rw [List.tail_cons] at h1
    omega

end Picture

/-! ## The run of a picture -/

/-- The rows that the insides of grid rows write. -/
def Picture.ofTexts (N : Nat) (rows : List Text) : List (List Cell) :=
  rows.map fun row => RowCell.resolve (RowCell.readRow row) N

theorem SlotMatrix.foldl_placeText {N : Nat} : ∀ {rows : List Text} {m : SlotMatrix}, m.columnCount = N →
    rows.foldl placeText m = (ofTexts N rows).foldl placeRow m
  | [], _, _ => rfl
  | row :: rows, m, h => by
    have hm : (m.placeText row).columnCount = N := h
    rw [List.foldl_cons, ofTexts, List.map_cons, List.foldl_cons, foldl_placeText hm, placeText, h]
    rfl

theorem Layout.ofRows_eq (N : Nat) (rows : List Text) :
    Layout.ofRows N rows = ((ofTexts N rows).foldl SlotMatrix.placeRow (.empty N)).merge.toLayout := by
  rw [Layout.ofRows, SlotMatrix.foldl_placeText (N := N) rfl]

theorem Run.continueWith_gridRows (N : Nat) : ∀ rows before : List Text,
    continueWith (.grid N before) (rows.map (.gridRow N)) = [.grid N (before ++ rows)]
  | [], before => by rw [List.append_nil]; rfl
  | row :: rows, before => by
    rw [List.map_cons, continueWith, extend?, if_pos rfl]
    dsimp only
    rw [continueWith_gridRows N rows, List.append_assoc]
    rfl

theorem Run.ofLines_gridRows (N : Nat) {rows : List Text} (h : rows ≠ []) :
    ofLines (rows.map (.gridRow N)) = [.grid N rows] := by
  obtain ⟨row, rows, rfl⟩ := List.exists_cons_of_ne_nil h
  exact continueWith_gridRows N rows [row]

namespace Picture

/-- The picture of a layout that the pen finds again and whose cells all read back. -/
structure Shows (l : Layout) (rows : List (List Cell)) : Prop where
  nonempty : rows ≠ []
  cells_eq : cells rows = l.cells
  picture : IsPicture l.columnCount rows
  tight : Tight l.columnCount rows
  legible : ∀ row ∈ rows, RowLegible (decide (width row < l.columnCount)) row

variable {l : Layout} {rows : List (List Cell)}

theorem Shows.columnCount_pos (h : Shows l rows) : 0 < l.columnCount := by
  obtain ⟨row, hrow⟩ := List.exists_mem_of_ne_nil rows h.nonempty
  have hfit := h.picture.fits row hrow
  obtain ⟨c, hc⟩ := List.exists_mem_of_ne_nil row hfit.nonempty
  have h1 := hfit.span_pos c hc
  have h2 := columnSpan_le_width hc
  have h3 := hfit.width_le
  omega

theorem Shows.lines_write (h : Shows l rows) (hN : l.columnCount ≤ Count.ceiling) :
    (GridPen.write l).lines = rows.map fun row => GridPen.rowText l.columnCount (GridPen.penRow row) := by
  have hl : l = ⟨l.columnCount, cells rows⟩ := by rw [h.cells_eq]
  have hf := GridPen.finish_write hN h.columnCount_pos h.picture h.tight h.nonempty
  rw [← hl] at hf
  rw [GridPen.lines, hf, List.map_map, GridPen.columns_write, Nat.max_eq_left h.columnCount_pos]
  rfl

/-- Rows of cells that read back each from its own text read back from the lines that the pen makes of them. -/
theorem exists_ofTexts {N : Nat} (h0 : 0 < N) (hN : N ≤ Count.ceiling) {rows : List (List Cell)}
    (hfits : ∀ row ∈ rows, Fits N row) (hlegible : ∀ row ∈ rows, RowLegible (decide (width row < N)) row) (o : ReadOptions) :
    ∃ insides, ((rows.map fun row => GridPen.rowText N (GridPen.penRow row)).flatMap SourceLine.ofSource).map
        (SourceLine.read o) = insides.map (.gridRow N) ∧ ofTexts N insides = rows := by
  have hread : ∀ row ∈ rows, ∃ inside,
      GridRow.read? (GridPen.rowText N (GridPen.penRow row)) = some (N, inside) ∧
        RowCell.resolve (RowCell.readRow inside) N = row := fun row hrow =>
    exists_read?_rowText h0 hN (hfits row hrow) (hlegible row hrow)
  choose! inside hin hrow using hread
  refine ⟨rows.map inside, ?_, ?_⟩
  · rw [SourceLine.ofSource_lines, List.map_map, List.map_map]
    · refine List.map_congr_left fun row hr => ?_
      simp only [Function.comp_apply, SourceLine.read, hin row hr]
    · intro t ht
      obtain ⟨row, -, rfl⟩ := List.mem_map.1 ht
      exact ⟨GridPen.rowText_ne_nil _ _, GridPen.not_mem_rowText _ (GridPen.not_mem_penRow row), trimmed_rowText _ _⟩
  · rw [ofTexts, List.map_map]
    exact (List.map_congr_left fun row hr => hrow row hr).trans (List.map_id _)

/-- **The grid rows of a picture make one run, and its layout is the one they were written from.** -/
theorem Shows.exists_run (h : Shows l rows) (hN : l.columnCount ≤ Count.ceiling) (o : ReadOptions) :
    ∃ insides, (((GridPen.write l).lines.flatMap SourceLine.ofSource).map (SourceLine.read o) =
        insides.map (.gridRow l.columnCount)) ∧ insides ≠ [] ∧ (Run.grid l.columnCount insides).toLayout = l := by
  obtain ⟨insides, hlines, hrows⟩ := exists_ofTexts h.columnCount_pos hN h.picture.fits h.legible o
  refine ⟨insides, by rw [h.lines_write hN, hlines], ?_, ?_⟩
  · rintro rfl
    exact h.nonempty hrows.symm
  · rw [Run.toLayout, Layout.ofRows_eq, hrows, SlotMatrix.toLayout_of_isPicture hN h.picture, h.cells_eq]

/-- **A layout that a picture shows reads back from its text.** -/
theorem Shows.read_write (h : Shows l rows) (hN : l.columnCount ≤ Count.ceiling) (hs : l.single? = none) (o : ReadOptions) :
    (Document.read o l.write).blocks = [l] := by
  obtain ⟨insides, hlines, hne, hl⟩ := h.exists_run hN o
  rw [Document.read_eq, Layout.ofText_write hs, hlines, Run.ofLines_gridRows _ hne, List.map_singleton, hl]

end Picture
end Gridmark
