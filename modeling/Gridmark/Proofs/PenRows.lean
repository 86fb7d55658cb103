import Gridmark.Proofs.OpenMerges
/-!
# PenRows — a picture is what the pen writes

The pen is given the cells of a picture and has to find its rows again.  Half way through a row it stands behind the cells
it has written, owes the row's continuations and the merges of the cells that are new in the row (`Midway`).  It writes the
continuations that come next, then the next new cell; when none is left in the row and the next one does not fit, it closes
the row.  So the rows come back just when every new cell is too wide for the row above it (`Tight`).
-/
namespace Gridmark

open Picture

/-- The first cell that is new below a row does not fit into the row. -/
def Picture.Tight (columns : Nat) : List (List Cell) → Prop
  | [] => True
  | row :: rows => (∀ c ∈ (cells rows).head?, columns < Count.add (width row) c.columnSpan) ∧ Tight columns rows

namespace GridPen

open OpenMerge

def penCell (q : Nat × Cell) : PenCell := ⟨q.1, q.2.columnSpan, cellText q.2.kind, q.2.kind ≠ .empty⟩

def penRow (row : List Cell) : List PenCell := (placed 0 row).map penCell

/-- The pen behind the cells `done` of a row whose other cells are `rem`, the rows `before` being closed and the rows
`below` being still to come. -/
structure Midway (N : Nat) (p : GridPen) (before : List (List PenCell)) (done rem : List Cell)
    (below : List (List Cell)) : Prop where
  columns : p.columns = N
  cursor : p.cursor = width done
  row : p.row = penRow done
  rows : p.rows = before
  merges : p.merges.Perm ((placed 0 done).filterMap (ofContinuation below true) ++
    (placed (width done) rem).filterMap (ofContinuation below false))
  started : p.started = (placed 0 done).filterMap (starting below)

variable {N : Nat} {p : GridPen} {before : List (List PenCell)} {done rem conts : List Cell} {below : List (List Cell)}

theorem penRow_concat (done : List Cell) (c : Cell) : penRow (done ++ [c]) = penRow done ++ [penCell (width done, c)] := by
  rw [penRow, placed_append, List.map_append, Nat.zero_add]
  rfl

theorem putDue_of_some {m : OpenMerge} {ms : List OpenMerge} (h : takeDue? p.cursor p.merges = some (m, ms)) :
    p.putDue = ({ p with merges := ms }.put m.span RowCell.continueWord true).putDue := by
  rw [putDue]
  split
  · rename_i m' ms' h'
    rw [h] at h'
    cases h'
    rfl
  · rename_i h'
    rw [h] at h'
    cases h'

theorem putDue_of_none (h : takeDue? p.cursor p.merges = none) : p.putDue = p := by
  rw [putDue]
  split
  · rename_i h'
    rw [h] at h'
    cases h'
  · rfl

theorem add_eq {a b : Nat} (h : a + b ≤ Count.ceiling) : Count.add a b = a + b := Nat.min_eq_left h

/-! ## The columns stay -/

@[simp] theorem columns_putDue (p : GridPen) : p.putDue.columns = p.columns := by
  fun_induction GridPen.putDue p with
  | case1 p m merges _ ih => exact ih
  | case2 p _ => rfl

@[simp] theorem columns_closeRow (p : GridPen) : p.closeRow.columns = p.columns := rfl

@[simp] theorem columns_makeRoom (p : GridPen) (span : Nat) : (p.makeRoom span).columns = p.columns := by
  fun_induction GridPen.makeRoom p span with
  | case1 p _ ih => rw [ih, columns_closeRow, columns_putDue]
  | case2 p _ => exact columns_putDue p

@[simp] theorem columns_putCell (p : GridPen) (c : Cell) (text : Text) : (p.putCell c text).columns = p.columns :=
  columns_makeRoom p _

theorem columns_foldl_putCell : ∀ (cs : List Cell) (p : GridPen),
    (cs.foldl (fun p c => p.putCell c (cellText c.kind)) p).columns = p.columns
  | [], _ => rfl
  | c :: cs, p => by rw [List.foldl_cons, columns_foldl_putCell cs, columns_putCell]

theorem columns_write (l : Layout) : (write l).columns = max l.columnCount 1 := columns_foldl_putCell l.cells (ofLayout l)

/-- No continuation is due where a new cell comes next, nor at the end of the row. -/
theorem Midway.putDue_eq (h : Midway N p before done rem below) (hpos : ∀ c ∈ done ++ rem, 0 < c.columnSpan)
    (hrem : ∀ c ∈ rem.head?, c.kind.isContinuation = false) : p.putDue = p := by
  refine putDue_of_none (takeDue?_eq_none fun m hm => ?_)
  rcases List.mem_append.1 (h.merges.mem_iff.1 hm) with hm | hm
  · exact .inl (written_of_mem hm)
  · obtain ⟨q, hq, hm⟩ := List.mem_filterMap.1 hm
    rw [h.cursor, column_ofContinuation hm]
    right
    cases rem with
    | nil => cases hq
    | cons c rem =>
      rcases List.mem_cons.1 hq with rfl | hq
      · rw [ofContinuation_of_new (hrem c rfl)] at hm
        cases hm
      · have h1 := (bounds_of_mem_placed hq).2.1
        have h2 := hpos c (by simp)
        omega

theorem Midway.exists_putDue {c : Cell} (h : Midway N p before done (c :: rem) below) (hc : c.kind = .continuation)
    (hpos : ∀ d ∈ done ++ c :: rem, 0 < d.columnSpan) (hw : width (done ++ c :: rem) ≤ Count.ceiling) :
    ∃ q : GridPen, p.putDue = q.putDue ∧ Midway N q before (done ++ [c]) rem below := by
  have hm := h.merges
  have hoc : ∀ written, ofContinuation below written (width done, c) =
      some ⟨width done, c.columnSpan, depth (width done) below + 1, written⟩ := ofContinuation_of_continuation hc
  rw [placed, List.filterMap_cons_some (hoc false)] at hm
  -- what stands behind the pen is written, and what comes after the cell stands further right
  obtain ⟨ms, hms, hp⟩ := takeDue?_of_perm hm rfl (by
    intro n hn
    rcases List.mem_append.1 hn with hn | hn
    · exact .inl (written_of_mem hn)
    · obtain ⟨q, hq, hn⟩ := List.mem_filterMap.1 hn
      rw [column_ofContinuation hn]
      have h1 := (bounds_of_mem_placed hq).2.1
      have h2 := hpos c (by simp)
      right
      show q.1 ≠ width done
      omega)
  rw [show (⟨width done, c.columnSpan, depth (width done) below + 1, false⟩ : OpenMerge).column = p.cursor from
    h.cursor.symm] at hms
  refine ⟨_, putDue_of_some hms, h.columns, ?_, ?_, h.rows, ?_, ?_⟩
  · rw [width_append, width_cons] at hw
    show Count.add p.cursor c.columnSpan = _
    rw [h.cursor, add_eq (by omega), width_append, width_cons, width_nil]
    rfl
  · show p.row ++ [_] = _
    rw [h.row, penRow_concat, h.cursor, penCell, hc]
    rfl
  · have h1 : (placed 0 (done ++ [c])).filterMap (ofContinuation below true) =
        (placed 0 done).filterMap (ofContinuation below true) ++
          [⟨width done, c.columnSpan, depth (width done) below + 1, true⟩] := by
      rw [placed_append, List.filterMap_append, Nat.zero_add, placed, placed, List.filterMap_cons_some (hoc true)]
      rfl
    rw [h1, List.append_assoc, width_append, width_cons, width_nil]
    exact hp
  · have h1 : starting below (0 + width done, c) = none := by rw [starting, hc]; rfl
    show p.started = _
    rw [h.started, placed_append, List.filterMap_append, placed, placed, List.filterMap_cons_none h1]
    exact (List.append_nil _).symm

/-- **All continuations that come next are written.** -/
theorem Midway.putDue : ∀ {conts : List Cell} {p : GridPen} {done : List Cell},
    Midway N p before done (conts ++ rem) below → (∀ c ∈ conts, c.kind = .continuation) →
    (∀ c ∈ rem.head?, c.kind.isContinuation = false) → (∀ c ∈ done ++ (conts ++ rem), 0 < c.columnSpan) →
    width (done ++ (conts ++ rem)) ≤ Count.ceiling → Midway N p.putDue before (done ++ conts) rem below
  | [], p, done, h, _, hrem, hpos, _ => by
    rw [List.append_nil, h.putDue_eq hpos hrem]
    exact h
  | c :: conts, p, done, h, hc, hrem, hpos, hw => by
    obtain ⟨q, hq, hm⟩ := h.exists_putDue (hc c List.mem_cons_self) hpos hw
    rw [hq, List.append_cons]
    rw [List.cons_append, List.append_cons] at hpos hw
    exact Midway.putDue hm (fun d hd => hc d (List.mem_cons_of_mem _ hd)) hrem hpos hw

/-! ## Closing a row -/

theorem padTo_cursor (p : GridPen) : p.padTo p.cursor = p := by
  rw [padTo, Nat.sub_self, filler, if_pos rfl, List.foldl_nil]

theorem foldl_settle_written : ∀ {ms : List OpenMerge} (p : GridPen), (∀ m ∈ ms, m.written = true) → ms.foldl settle p = p
  | [], _, _ => rfl
  | m :: ms, p, h => by
    rw [List.foldl_cons, settle, if_pos (h m List.mem_cons_self)]
    exact foldl_settle_written p fun n hn => h n (List.mem_cons_of_mem _ hn)

theorem row_foldl_settle : ∀ {rem : List Cell} {p : GridPen} {s : Nat}, p.cursor = s →
    (∀ c ∈ rem, c.kind = .continuation) → s + width rem ≤ Count.ceiling →
    (((placed s rem).filterMap (ofContinuation below false)).foldl settle p).row = p.row ++ (placed s rem).map penCell
  | [], p, _, _, _, _ => (List.append_nil _).symm
  | c :: rem, p, s, hs, hc, hw => by
    rw [width_cons] at hw
    have hk := hc c List.mem_cons_self
    have hoc : ofContinuation below false (s, c) = some ⟨s, c.columnSpan, depth s below + 1, false⟩ :=
      ofContinuation_of_continuation hk false
    have hset : settle p ⟨s, c.columnSpan, depth s below + 1, false⟩ = p.put c.columnSpan RowCell.continueWord true := by
      rw [settle, if_neg Bool.false_ne_true, ← hs, padTo_cursor]
    have hcur : (p.put c.columnSpan RowCell.continueWord true).cursor = s + c.columnSpan := by
      show Count.add p.cursor c.columnSpan = _
      rw [hs, add_eq (by omega)]
    rw [placed, List.filterMap_cons_some hoc, List.foldl_cons, hset,
      row_foldl_settle hcur (fun d hd => hc d (List.mem_cons_of_mem _ hd)) (by omega)]
    show p.row ++ [_] ++ _ = _
    rw [List.append_assoc, List.map_cons, penCell, hk, hs]
    rfl

theorem Midway.sortByColumn_merges (h : Midway N p before done rem below) (hpos : ∀ c ∈ done ++ rem, 0 < c.columnSpan) :
    sortByColumn p.merges = (placed 0 done).filterMap (ofContinuation below true) ++
      (placed (width done) rem).filterMap (ofContinuation below false) :=
  sortByColumn_eq_of_perm h.merges (pairwise_ofContinuation hpos)

/-- Settling writes the continuations that the row lacks. -/
theorem Midway.row_settled (h : Midway N p before done rem below) (hrem : ∀ c ∈ rem, c.kind = .continuation)
    (hpos : ∀ c ∈ done ++ rem, 0 < c.columnSpan) (hw : width (done ++ rem) ≤ Count.ceiling) :
    ((sortByColumn p.merges).foldl settle p).row = penRow (done ++ rem) := by
  rw [width_append] at hw
  rw [h.sortByColumn_merges hpos, List.foldl_append, foldl_settle_written p fun m hm => written_of_mem hm,
    row_foldl_settle h.cursor hrem hw, h.row, penRow, penRow, placed_append, List.map_append, Nat.zero_add]

theorem filterMap_nextRow? (written : Bool) (ps : List (Nat × Cell)) :
    (ps.filterMap (ofContinuation below written)).filterMap nextRow? =
      ps.filterMap fun q => if q.2.kind.isContinuation then going below q else none := by
  rw [List.filterMap_filterMap]
  exact List.filterMap_congr fun q _ => nextRow?_ofContinuation written q

/-- Each cell of a row owes the next row what its merge or its start owes. -/
theorem Midway.perm_nextRow (h : Midway N p before done rem below) (hrem : ∀ c ∈ rem, c.kind = .continuation)
    (hpos : ∀ c ∈ done ++ rem, 0 < c.columnSpan) :
    ((sortByColumn p.merges).filterMap nextRow? ++ p.started).Perm ((placed 0 (done ++ rem)).filterMap (going below)) := by
  have hstart : p.started = (placed 0 (done ++ rem)).filterMap (starting below) := by
    have hnil : (placed (0 + width done) rem).filterMap (starting below) = [] :=
      List.filterMap_eq_nil_iff.2 fun q hq => by
        rw [starting, hrem q.2 (bounds_of_mem_placed hq).1]
        rfl
    rw [placed_append, List.filterMap_append, hnil, List.append_nil, h.started]
  have hnext : (sortByColumn p.merges).filterMap nextRow? =
      (placed 0 (done ++ rem)).filterMap fun q => if q.2.kind.isContinuation then going below q else none := by
    rw [h.sortByColumn_merges hpos, List.filterMap_append, filterMap_nextRow?, filterMap_nextRow?, placed_append,
      List.filterMap_append, Nat.zero_add]
  rw [hnext, hstart]
  refine perm_filterMap_append fun q _ => ?_
  cases hk : q.2.kind.isContinuation with
  | true => exact .inl ⟨rfl, by rw [starting, hk]; rfl⟩
  | false => exact .inr ⟨rfl, by rw [starting, hk]; rfl⟩

/-- **A row that lacks only continuations is closed as the row of the picture**, and what it owes is owed. -/
theorem Midway.closeRow (h : Midway N p before done rem below) (hrem : ∀ c ∈ rem, c.kind = .continuation)
    (hfit : Fits N (done ++ rem)) (hN : N ≤ Count.ceiling) :
    p.closeRow.columns = N ∧ p.closeRow.cursor = 0 ∧ p.closeRow.row = [] ∧ p.closeRow.started = [] ∧
      p.closeRow.rows = before ++ [penRow (done ++ rem)] ∧
      p.closeRow.merges.Perm ((placed 0 (done ++ rem)).filterMap (going below)) := by
  have hrow := h.row_settled hrem hfit.span_pos (Nat.le_trans hfit.width_le hN)
  have hne : (penRow (done ++ rem)).isEmpty = false := by
    rw [List.isEmpty_eq_false_iff, penRow, Ne, List.map_eq_nil_iff]
    intro he
    have := map_snd_placed 0 (done ++ rem)
    rw [he] at this
    exact hfit.nonempty this.symm
  refine ⟨h.columns, rfl, rfl, rfl, ?_, h.perm_nextRow hrem hfit.span_pos⟩
  show (if ((sortByColumn p.merges).foldl settle p).row.isEmpty then p.rows
    else p.rows ++ [((sortByColumn p.merges).foldl settle p).row]) = _
  rw [hrow, hne, if_neg Bool.false_ne_true, h.rows]

theorem Midway.next {row : List Cell} (h : Midway N p before done rem (row :: below))
    (hrem : ∀ c ∈ rem, c.kind = .continuation) (hfit : Fits N (done ++ rem)) (hrow : Fits N row)
    (ha : Aligned (done ++ rem) row) (hN : N ≤ Count.ceiling) :
    Midway N p.closeRow (before ++ [penRow (done ++ rem)]) [] row below := by
  obtain ⟨h1, h2, h3, h4, h5, h6⟩ := h.closeRow hrem hfit hN
  exact ⟨h1, h2, h3, h5, h6.trans (perm_going hfit.span_pos hrow.span_pos ha), h4⟩

/-! ## Writing cells -/

theorem makeRoom_of_fits {span : Nat} (h : Count.add p.putDue.cursor span ≤ p.columns) : p.makeRoom span = p.putDue := by
  rw [makeRoom, if_neg]
  omega

theorem makeRoom_of_full {span : Nat} (h0 : 0 < p.putDue.cursor) (h : p.columns < Count.add p.putDue.cursor span) :
    p.makeRoom span = p.putDue.closeRow.makeRoom span := by
  rw [makeRoom, if_pos ⟨h0, h⟩]

/-- A cell that fits behind the cells `done` is put there, and starts the merge that its rows below ask for. -/
theorem putCell_eq {c : Cell} (hcolumns : p.columns = N) (hcur : p.putDue.cursor = width done)
    (hc : c.kind.isContinuation = false) (hpos : 0 < c.columnSpan) (hspan : c.rowSpan = 1)
    (hle : width done + c.columnSpan ≤ N) (hN : N ≤ Count.ceiling) :
    p.putCell { c with rowSpan := c.rowSpan + depth (width done) below } (cellText c.kind) =
      { p.putDue with
        row := p.putDue.row ++ [⟨width done, c.columnSpan, cellText c.kind, c.kind.isContent⟩]
        cursor := width done + c.columnSpan
        started := p.putDue.started ++ (starting below (width done, c)).toList } := by
  have hadd : Count.add p.putDue.cursor c.columnSpan = width done + c.columnSpan := by
    rw [hcur, add_eq (Nat.le_trans hle hN)]
  have hroom : p.makeRoom c.columnSpan = p.putDue := makeRoom_of_fits (by rw [hadd, hcolumns]; exact hle)
  have hstart : (if 1 < c.rowSpan + depth (width done) below then
      [(⟨p.putDue.cursor, c.columnSpan, c.rowSpan + depth (width done) below - 1, false⟩ : OpenMerge)] else []) =
        (starting below (width done, c)).toList := by
    rw [starting, hc, if_neg Bool.false_ne_true, going, hspan, hcur, Nat.add_sub_cancel_left]
    by_cases hd : 0 < depth (width done) below
    · rw [if_pos hd, if_pos (by omega)]
      rfl
    · rw [if_neg hd, if_neg (by omega)]
      rfl
  unfold GridPen.putCell
  dsimp only
  rw [Nat.max_eq_left hpos, hroom, hstart, put, hadd, hcur]

/-- The pen behind one more cell that is new in the row. -/
theorem Midway.concat {c : Cell} (h : Midway N p before done (c :: rem) below) (hc : c.kind.isContinuation = false) :
    Midway N { p with
      row := p.row ++ [⟨width done, c.columnSpan, cellText c.kind, c.kind.isContent⟩]
      cursor := width done + c.columnSpan
      started := p.started ++ (starting below (width done, c)).toList } before (done ++ [c]) rem below := by
  have hnew : width (done ++ [c]) = width done + c.columnSpan := by
    rw [width_append, width_cons, width_nil, Nat.add_zero]
  have hoc : ∀ written, ofContinuation below written (width done, c) = none := ofContinuation_of_new hc
  refine ⟨h.columns, hnew.symm, ?_, h.rows, ?_, ?_⟩
  · show p.row ++ [_] = _
    rw [h.row, penRow_concat, penCell]
    cases hk : c.kind with
    | empty => rfl
    | continuation => rw [hk] at hc; cases hc
    | content e => rfl
  · have hmerges := h.merges
    rw [placed, List.filterMap_cons_none (hoc false)] at hmerges
    rw [placed_append, List.filterMap_append, placed, placed, Nat.zero_add, List.filterMap_cons_none (hoc true),
      List.filterMap_nil, List.append_nil, hnew]
    exact hmerges
  · show p.started ++ _ = _
    rw [h.started, placed_append, List.filterMap_append, placed, placed, Nat.zero_add]
    cases hs : starting below (width done, c) with
    | none => rw [List.filterMap_cons_none hs]; rfl
    | some m => rw [List.filterMap_cons_some hs]; rfl

/-- **A new cell of the row is written** behind the continuations before it. -/
theorem Midway.putCell {c : Cell} (h : Midway N p before done (conts ++ c :: rem) below)
    (hconts : ∀ d ∈ conts, d.kind = .continuation) (hc : c.kind.isContinuation = false)
    (hfit : Fits N (done ++ (conts ++ c :: rem))) (hN : N ≤ Count.ceiling) :
    Midway N (p.putCell { c with rowSpan := c.rowSpan + depth (width (done ++ conts)) below } (cellText c.kind)) before
      (done ++ conts ++ [c]) rem below := by
  have hw := hfit.width_le
  have hcm : c ∈ done ++ (conts ++ c :: rem) := by simp
  have hm := h.putDue hconts (by simp [hc]) hfit.span_pos (Nat.le_trans hw hN)
  have hle : width (done ++ conts) + c.columnSpan ≤ N := by
    simp only [width_append, width_cons] at hw ⊢
    omega
  rw [putCell_eq h.columns hm.cursor hc (hfit.span_pos c hcm) (hfit.rowSpan_eq c hcm) hle hN]
  exact hm.concat hc

/-! ## All rows -/

def write1 (p : GridPen) (c : Cell) : GridPen := p.putCell c (cellText c.kind)

theorem eq_continuation {k : CellKind} (h : k.isContinuation = true) : k = .continuation := by
  cases k with
  | continuation => rfl
  | empty => cases h
  | content e => cases h

theorem grown?_of_continuation {q : Nat × Cell} (h : q.2.kind = .continuation) : grown? below q = none := by
  rw [grown?, h]
  rfl

theorem conts_of_cells_eq_nil {row : List Cell} (h : cells (row :: below) = []) :
    (∀ c ∈ row, c.kind = .continuation) ∧ cells below = [] := by
  obtain ⟨h1, h2⟩ := List.append_eq_nil_iff.1 h
  refine ⟨fun c hc => ?_, h2⟩
  rw [← map_snd_placed 0 row] at hc
  obtain ⟨q, hq, rfl⟩ := List.mem_map.1 hc
  have hg := List.filterMap_eq_nil_iff.1 h1 q hq
  unfold grown? at hg
  split at hg
  · rename_i hk
    exact eq_continuation hk
  · cases hg

/-- **The new cells of a row are written into the row**, up to the continuations it ends with. -/
theorem Midway.exists_foldl_write1 (hN : N ≤ Count.ceiling) : ∀ (rem conts : List Cell) {done : List Cell} {p : GridPen},
    Midway N p before done (conts ++ rem) below → (∀ c ∈ conts, c.kind = .continuation) →
    Fits N (done ++ (conts ++ rem)) →
    ∃ done' conts', done ++ (conts ++ rem) = done' ++ conts' ∧ (∀ c ∈ conts', c.kind = .continuation) ∧
      Midway N (((placed (width (done ++ conts)) rem).filterMap (grown? below)).foldl write1 p) before done' conts' below
  | [], conts, done, p, h, hconts, _ => by
    rw [List.append_nil] at h ⊢
    exact ⟨done, conts, rfl, hconts, h⟩
  | c :: rem, conts, done, p, h, hconts, hfit => by
    cases hk : c.kind.isContinuation with
    | true =>
      have hcont := eq_continuation hk
      have hconts' : ∀ d ∈ conts ++ [c], d.kind = .continuation := by
        intro d hd
        rcases List.mem_append.1 hd with hd | hd
        · exact hconts d hd
        · rw [List.mem_singleton.1 hd, hcont]
      rw [List.append_cons] at h hfit ⊢
      obtain ⟨done', conts', he, hc', hm⟩ := Midway.exists_foldl_write1 hN rem (conts ++ [c]) h hconts' hfit
      refine ⟨done', conts', he, hc', ?_⟩
      rw [placed, List.filterMap_cons_none (grown?_of_continuation hcont)]
      rwa [← List.append_assoc, width_append (done ++ conts), width_cons, width_nil, Nat.add_zero] at hm
    | false =>
      have hg : grown? below (width (done ++ conts), c) =
          some { c with rowSpan := c.rowSpan + depth (width (done ++ conts)) below } := by
        rw [grown?, hk]
        rfl
      have hsplit : done ++ (conts ++ c :: rem) = done ++ conts ++ [c] ++ ([] ++ rem) := by simp
      obtain ⟨done', conts', he, hc', hm⟩ := Midway.exists_foldl_write1 hN rem []
        (h.putCell hconts hk hfit hN) (by simp) (hsplit ▸ hfit)
      refine ⟨done', conts', hsplit.trans he, hc', ?_⟩
      rw [placed, List.filterMap_cons_some hg, List.foldl_cons]
      rwa [List.append_nil, width_append (done ++ conts), width_cons, width_nil, Nat.add_zero] at hm

theorem closeAll_of_nil (h : p.merges = []) : p.closeAll = p := by
  rw [closeAll, if_pos h]

theorem closeAll_of_ne_nil (h : p.merges ≠ []) : p.closeAll = p.closeRow.closeAll := by
  rw [closeAll, if_neg h]

/-- A row of continuations alone owes merges. -/
theorem Midway.merges_ne_nil {row : List Cell} (h : Midway N p before [] row below) (hrow : Fits N row)
    (hconts : ∀ c ∈ row, c.kind = .continuation) : p.merges ≠ [] := by
  intro he
  obtain ⟨c, cs, rfl⟩ := List.exists_cons_of_ne_nil hrow.nonempty
  have hm := h.merges
  rw [he, placed, placed, List.filterMap_nil, List.nil_append,
    List.filterMap_cons_some (ofContinuation_of_continuation (hconts c List.mem_cons_self) false)] at hm
  exact absurd hm.symm.eq_nil (by simp)

/-- **Rows of continuations alone are written** while merges are owed. -/
theorem Midway.rows_finish_of_nil (hN : N ≤ Count.ceiling) : ∀ {below : List (List Cell)} {p : GridPen}
    {before : List (List PenCell)} {done conts : List Cell}, Midway N p before done conts below →
    (∀ c ∈ conts, c.kind = .continuation) → cells below = [] → (∀ r ∈ (done ++ conts) :: below, Fits N r) →
    ((done ++ conts) :: below).IsChain Aligned → p.finish = before ++ ((done ++ conts) :: below).map penRow
  | [], p, before, done, conts, h, hconts, _, hfit, _ => by
    obtain ⟨-, -, -, -, h5, h6⟩ := h.closeRow hconts (hfit _ List.mem_cons_self) hN
    rw [going_nil] at h6
    show p.closeRow.closeAll.rows = _
    rw [closeAll_of_nil h6.eq_nil, h5]
    rfl
  | row :: below, p, before, done, conts, h, hconts, hnil, hfit, hc => by
    obtain ⟨hrow, hnil⟩ := conts_of_cells_eq_nil hnil
    obtain ⟨ha, hc⟩ := List.isChain_cons_cons.1 hc
    have hfit' := fun r hr => hfit r (List.mem_cons_of_mem _ hr)
    have hnext := h.next hconts (hfit _ List.mem_cons_self) (hfit' row List.mem_cons_self) ha hN
    show p.closeRow.closeAll.rows = _
    rw [closeAll_of_ne_nil (hnext.merges_ne_nil (hfit' row List.mem_cons_self) hrow)]
    refine (hnext.rows_finish_of_nil hN hrow hnil hfit' hc).trans ?_
    rw [List.append_assoc]
    rfl

/-- Everything that a row lacks is due. -/
theorem Midway.putDue_all (h : Midway N p before done conts below) (hconts : ∀ d ∈ conts, d.kind = .continuation)
    (hfit : Fits N (done ++ conts)) (hN : N ≤ Count.ceiling) : Midway N p.putDue before (done ++ conts) [] below := by
  have hpos := hfit.span_pos
  have hle := Nat.le_trans hfit.width_le hN
  rw [← List.append_nil conts] at h hpos hle
  exact h.putDue hconts (by simp) hpos hle

/-- The first new cell below a row closes the row, where it does not fit behind it. -/
theorem Midway.exists_write1 {c : Cell} {row : List Cell} (h : Midway N p before done conts (row :: below))
    (hconts : ∀ d ∈ conts, d.kind = .continuation) (hfit : Fits N (done ++ conts)) (hrow : Fits N row)
    (ha : Aligned (done ++ conts) row) (hN : N ≤ Count.ceiling) (hpos : 0 < c.columnSpan)
    (hc : N < Count.add (width (done ++ conts)) c.columnSpan) :
    ∃ q : GridPen, p.write1 c = q.write1 c ∧ Midway N q (before ++ [penRow (done ++ conts)]) [] row below := by
  have hm := h.putDue_all hconts hfit hN
  have hnext := hm.next (by simp) (by rwa [List.append_nil]) hrow (by rwa [List.append_nil]) hN
  rw [List.append_nil] at hnext
  have h0 : 0 < p.putDue.cursor := by
    rw [hm.cursor]
    obtain ⟨d, ds, hd⟩ := List.exists_cons_of_ne_nil hfit.nonempty
    have := hfit.span_pos d (by rw [hd]; exact List.mem_cons_self)
    rw [hd, width_cons]
    omega
  have hroom : p.makeRoom (max c.columnSpan 1) = p.putDue.closeRow.makeRoom (max c.columnSpan 1) := by
    rw [Nat.max_eq_left hpos]
    exact makeRoom_of_full h0 (by rw [hm.cursor, h.columns]; exact hc)
  refine ⟨p.putDue.closeRow, ?_, hnext⟩
  unfold write1 GridPen.putCell
  dsimp only
  rw [hroom]

theorem span_pos_of_mem_cells {rows : List (List Cell)} (hfit : ∀ r ∈ rows, Fits N r) (c : Cell) (hc : c ∈ cells rows) :
    0 < c.columnSpan := by
  obtain ⟨row, hrow, d, hd, hspan, -⟩ := exists_of_mem_cells hc
  have := (hfit row hrow).span_pos d hd
  omega

/-- **The rows of a picture come back** from its cells, at the start of any of its rows. -/
theorem Midway.rows_finish (hN : N ≤ Count.ceiling) : ∀ {below : List (List Cell)} {p : GridPen}
    {before : List (List PenCell)} {row : List Cell}, Midway N p before [] row below → (∀ r ∈ row :: below, Fits N r) →
    (row :: below).IsChain Aligned → Tight N (row :: below) →
    ((cells (row :: below)).foldl write1 p).finish = before ++ (row :: below).map penRow
  | below, p, before, row, h, hfit, hc, ht => by
    have hrow := hfit row List.mem_cons_self
    obtain ⟨done, conts, he, hconts, hm⟩ := Midway.exists_foldl_write1 hN row [] h (by simp) hrow
    obtain rfl : row = done ++ conts := he
    rw [cells, List.foldl_append]
    change Midway N (((placed 0 (done ++ conts)).filterMap (grown? below)).foldl write1 p) before done conts below at hm
    generalize ((placed 0 (done ++ conts)).filterMap (grown? below)).foldl write1 p = q at hm ⊢
    cases below with
    | nil => exact hm.rows_finish_of_nil hN hconts rfl hfit hc
    | cons row' below =>
      cases hcells : cells (row' :: below) with
      | nil => exact hm.rows_finish_of_nil hN hconts hcells hfit hc
      | cons c cs =>
        obtain ⟨ha, hc⟩ := List.isChain_cons_cons.1 hc
        have hfit' := fun r hr => hfit r (List.mem_cons_of_mem _ hr)
        have hpos := span_pos_of_mem_cells hfit' c (hcells ▸ List.mem_cons_self)
        have hfull : N < Count.add (width (done ++ conts)) c.columnSpan := ht.1 c (by rw [hcells]; rfl)
        obtain ⟨r, hr, hnext⟩ := hm.exists_write1 hconts hrow (hfit' row' List.mem_cons_self) ha hN hpos hfull
        rw [List.foldl_cons, hr, ← List.foldl_cons, ← hcells, hnext.rows_finish hN hfit' hc ht.2, List.append_assoc]
        rfl

/-- **The rows of a picture come back**: a picture is what the pen writes of its cells. -/
theorem finish_write {rows : List (List Cell)} (hN : N ≤ Count.ceiling) (h1 : 0 < N) (h : IsPicture N rows)
    (ht : Tight N rows) (hne : rows ≠ []) : (write ⟨N, cells rows⟩).finish = rows.map penRow := by
  obtain ⟨row, below, rfl⟩ := List.exists_cons_of_ne_nil hne
  obtain ⟨ha, hc⟩ := List.isChain_cons_cons.1 h.aligned
  have hstart : Midway N (ofLayout ⟨N, cells (row :: below)⟩) [] [] row below := by
    refine ⟨Nat.max_eq_left h1, rfl, rfl, rfl, ?_, rfl⟩
    have hnil : (placed (width []) row).filterMap (ofContinuation below false) = [] := by
      refine List.filterMap_eq_nil_iff.2 fun q hq => ?_
      rw [ofContinuation, if_neg]
      intro hk
      obtain ⟨c, hc, -⟩ := ha q hq hk
      cases hc
    rw [hnil]
    exact List.Perm.refl _
  exact hstart.rows_finish hN h.fits hc ht

end GridPen
end Gridmark
