import Gridmark.Proofs.GridText
import Gridmark.Proofs.PenLoops
import Gridmark.Proofs.Tally
/-!
# Accounts — what the pen writes adds up

The pen keeps a tally: each of its steps is one of the ledger's, with the filler that goes in front of a marker.  When it has
finished no merge is open, so the rows of a layout hold every cell once and in order, a marker for each further row of a
cell, and filler, and nothing else (`Account`).  Their texts are the cells with commas between them (`IsRowText`).
-/
namespace Gridmark
namespace GridPen

open OpenMerge

variable {cs : List Cell} {row count : Nat} {ts us : List Stroke} {as bs ms ns ss : List (Nat × OpenMerge)}
  {i j : Nat} {m : OpenMerge}

/-! ## The pen -/

theorem rowOf_append (ts us : List Stroke) (j : Nat) : rowOf (ts ++ us) j = rowOf ts j ++ rowOf us j := by
  rw [rowOf, List.filter_append, List.map_append, rowOf, rowOf]

theorem rowOf_eq_map (h : ∀ t ∈ us, t.row = row) : rowOf us row = us.map Stroke.pen := by
  rw [rowOf, List.filter_eq_self.2 (by simpa using h)]

theorem rowOf_eq_nil_iff : rowOf ts j = [] ↔ ∀ t ∈ ts, t.row ≠ j := by simp [rowOf]

/-- A pen that has written a trace, of which the cells of started merges are known. -/
structure Follows (cs : List Cell) (row count : Nat) (ts : List Stroke) (ms ss : List (Nat × OpenMerge)) (p : GridPen) :
    Prop where
  tally : Tally cs row count ts ms ss
  rows : p.rows = (List.range row).map (rowOf ts)
  row : p.row = rowOf ts row
  started : p.started = ss.map Prod.snd

variable {p q : GridPen}

/-- Strokes to the row being written leave the rows before it as they are. -/
theorem Follows.append {n : Nat} {ss' : List (Nat × OpenMerge)} (h : Follows cs row count ts ms ss p)
    (hus : ∀ t ∈ us, t.row = row) (ht : Tally cs row n (ts ++ us) ns ss') (hrows : q.rows = p.rows) (hrow : q.row = p.row ++ us.map Stroke.pen)
    (hstarted : q.started = ss'.map Prod.snd) : Follows cs row n (ts ++ us) ns ss' q where
  tally := ht
  rows := by
    rw [hrows, h.rows]
    refine List.map_congr_left fun j hj => ?_
    have hnil : rowOf us j = [] := rowOf_eq_nil_iff.2 fun t ht => by
      rw [hus t ht]
      exact Nat.ne_of_gt (List.mem_range.1 hj)
    rw [rowOf_append, hnil, List.append_nil]
  row := by rw [hrow, h.row, rowOf_append, rowOf_eq_map hus]
  started := hstarted

theorem Follows.perm (h : Follows cs row count ts ms ss p) (hp : ns.Perm ms) : Follows cs row count ts ns ss p :=
  { h with tally := h.tally.perm hp }

def markWritten (q : Nat × OpenMerge) : Nat × OpenMerge := (q.1, { q.2 with written := true })

theorem Follows.mark (h : Follows cs row count ts (as ++ (i, m) :: bs) ss p) (hm : m.written = false) {ks : List PenCell}
    (hks : ∀ k ∈ ks, k.absorbs = false ∧ (k.text = RowCell.continueWord ∨ k.text = RowCell.spaceWord)) (start : Nat)
    (hrows : q.rows = p.rows) (hrow : q.row = p.row ++ (ks ++ [⟨start, m.span, RowCell.continueWord, true⟩]))
    (hstarted : q.started = p.started) :
    ∃ ts', Follows cs row count ts' (as ++ markWritten (i, m) :: bs) ss q := by
  have hfs : ∀ t ∈ ks.map (Stroke.mk row .filler), t.cause = .filler ∧ t.row = row ∧ t.Shows cs :=
    List.forall_mem_map.2 fun k hk => ⟨rfl, rfl, hks k hk⟩
  refine ⟨_, h.append ?_ (h.tally.mark hm hfs start) hrows ?_ (hstarted.trans h.started)⟩
  · simp only [List.forall_mem_append, List.forall_mem_singleton]
    exact ⟨fun t ht => (hfs t ht).2.1, rfl⟩
  · simp [hrow, Stroke.marker, Function.comp_def]

/-! ## Closing a row with the pen -/

theorem exists_foldl_put : ∀ (fs : List (Nat × Text)) (p : GridPen), ∃ ks cursor,
    fs.foldl (fun p f => p.put f.1 f.2 false) p = { p with row := p.row ++ ks, cursor := cursor } ∧
      ∀ k ∈ ks, k.absorbs = false ∧ ∃ f ∈ fs, k.text = f.2
  | [], p => ⟨[], p.cursor, by simp, by simp⟩
  | f :: fs, p => by
    obtain ⟨ks, cursor, hfold, hks⟩ := exists_foldl_put fs (p.put f.1 f.2 false)
    refine ⟨⟨p.cursor, f.1, f.2, false⟩ :: ks, cursor, by rw [List.foldl_cons, hfold]; simp [put], ?_⟩
    refine List.forall_mem_cons.2 ⟨⟨rfl, f, List.mem_cons_self, rfl⟩, fun k hk => ?_⟩
    obtain ⟨habsorbs, g, hg, htext⟩ := hks k hk
    exact ⟨habsorbs, g, List.mem_cons_of_mem _ hg, htext⟩

theorem exists_padTo (p : GridPen) (column : Nat) : ∃ ks cursor,
    p.padTo column = { p with row := p.row ++ ks, cursor := cursor } ∧
      ∀ k ∈ ks, k.absorbs = false ∧ (k.text = RowCell.continueWord ∨ k.text = RowCell.spaceWord) := by
  obtain ⟨ks, cursor, hfold, hks⟩ := exists_foldl_put (filler p.above p.cursor (column - p.cursor)) p
  refine ⟨ks, cursor, hfold, fun k hk => ?_⟩
  obtain ⟨habsorbs, f, hf, htext⟩ := hks k hk
  rw [htext]
  exact ⟨habsorbs, Texts.of_mem_filler (Q := fun t => t = _ ∨ t = _) ⟨.inl rfl, .inr rfl⟩ _ _ _ f hf⟩

@[simp] theorem rows_settle (p : GridPen) (m : OpenMerge) : (p.settle m).rows = p.rows := by
  rw [settle]
  split
  · rfl
  · obtain ⟨ks, cursor, hpad, -⟩ := exists_padTo p m.column
    rw [hpad]
    rfl

theorem rows_foldl_settle : ∀ (ms : List OpenMerge) (p : GridPen), (ms.foldl settle p).rows = p.rows
  | [], _ => rfl
  | m :: ms, p => by rw [List.foldl_cons, rows_foldl_settle ms, rows_settle]

theorem Follows.settle (h : Follows cs row count ts (as ++ (i, m) :: bs) ss p) :
    ∃ ts', Follows cs row count ts' (as ++ markWritten (i, m) :: bs) ss (p.settle m) := by
  rw [GridPen.settle]
  split
  · next hm =>
    have hsame : markWritten (i, m) = (i, m) := by rw [markWritten, ← hm]
    rw [hsame]
    exact ⟨ts, h⟩
  · next hm =>
    obtain ⟨ks, cursor, hpad, hks⟩ := exists_padTo p m.column
    rw [hpad]
    exact h.mark (by simpa using hm) hks cursor rfl (by simp [put]) rfl

/-- The merges to settle go over to the front one by one. -/
theorem Follows.foldl_settle : ∀ {bs as : List (Nat × OpenMerge)} {ts : List Stroke} {p : GridPen},
    Follows cs row count ts (as ++ bs) ss p →
    ∃ ts', Follows cs row count ts' (as ++ bs.map markWritten) ss ((bs.map Prod.snd).foldl GridPen.settle p)
  | [], _, ts, _, h => ⟨ts, h⟩
  | (i, m) :: bs, as, ts, p, h => by
    obtain ⟨us, hus⟩ := h.settle
    have hnext : Follows cs row count us ((as ++ [markWritten (i, m)]) ++ bs) ss (p.settle m) := by simpa using hus
    obtain ⟨vs, hvs⟩ := hnext.foldl_settle
    exact ⟨vs, by simpa using hvs⟩

theorem exists_perm_insertByColumn (q : Nat × OpenMerge) : ∀ ms : List (Nat × OpenMerge),
    ∃ ns : List (Nat × OpenMerge), ns.Perm (q :: ms) ∧ ns.map Prod.snd = insertByColumn q.2 (ms.map Prod.snd)
  | [] => ⟨[q], List.Perm.refl _, rfl⟩
  | r :: ms => by
    by_cases hle : q.2.column ≤ r.2.column
    · exact ⟨q :: r :: ms, List.Perm.refl _, by simp [insertByColumn, hle]⟩
    · obtain ⟨ns, hperm, hmap⟩ := exists_perm_insertByColumn q ms
      exact ⟨r :: ns, (hperm.cons r).trans (List.Perm.swap q r ms), by simp [insertByColumn, hle, hmap]⟩

theorem exists_perm_sortByColumn : ∀ ms : List (Nat × OpenMerge),
    ∃ ns : List (Nat × OpenMerge), ns.Perm ms ∧ ns.map Prod.snd = sortByColumn (ms.map Prod.snd)
  | [] => ⟨[], List.Perm.refl _, rfl⟩
  | q :: ms => by
    obtain ⟨ns, hperm, hmap⟩ := exists_perm_sortByColumn ms
    obtain ⟨ns', hperm', hmap'⟩ := exists_perm_insertByColumn q ns
    refine ⟨ns', hperm'.trans (hperm.cons q), ?_⟩
    rw [hmap', hmap]
    rfl

/-- A pen that has written the first cells of a layout and can account for its open merges. -/
def Tallied (cs : List Cell) (count : Nat) (p : GridPen) : Prop :=
  ∃ row ts ms ss, Follows cs row count ts ms ss p ∧ p.merges = ms.map Prod.snd

theorem Tallied.closeRow (h : Tallied cs count p) : Tallied cs count p.closeRow := by
  obtain ⟨row, ts, ms, ss, h, hmerges⟩ := h
  obtain ⟨ns, hperm, hsorted⟩ := exists_perm_sortByColumn ms
  rw [← hmerges] at hsorted
  -- the pen settles its merges in order without marking them, so only the tally says that all are written
  have hns : Follows cs row count ts ([] ++ ns) ss p := h.perm hperm
  obtain ⟨us, hus⟩ := hns.foldl_settle
  rw [hsorted, List.nil_append] at hus
  have hrows : p.rows = (List.range row).map (rowOf us) := by rw [← hus.rows, rows_foldl_settle]
  by_cases hrow : ∃ t ∈ us, t.row = row
  · have hwritten : ∀ q ∈ ns.map markWritten, q.2.written = true := List.forall_mem_map.2 fun _ _ => rfl
    have hne : rowOf us row ≠ [] := fun hnil => by
      obtain ⟨t, ht, hr⟩ := hrow
      exact rowOf_eq_nil_iff.1 hnil t ht hr
    refine ⟨row + 1, us, _, [], ⟨hus.tally.close hwritten hrow, ?_, ?_, rfl⟩, ?_⟩
    · simp only [GridPen.closeRow, hus.row, List.isEmpty_iff, hne, if_false, hrows]
      rw [List.range_succ, List.map_append]
      rfl
    · exact (rowOf_eq_nil_iff.2 fun t ht => Nat.ne_of_lt (Nat.lt_succ_of_le (hus.tally.upTo t ht))).symm
    · have hmarked : ((ns.map markWritten).map Prod.snd).filterMap nextRow? = (ns.map Prod.snd).filterMap nextRow? := by
        simp only [List.filterMap_map, Function.comp_def]
        rfl
      rw [List.map_append, map_snd_filterMap_nextOwned?, hmarked, hsorted, ← h.started]
      rfl
  · -- a row without strokes is none: had a merge been open, its marker would stand here
    have hidle : ∀ t ∈ us, t.row ≠ row := fun t ht hr => hrow ⟨t, ht, hr⟩
    obtain ⟨rfl, hwritten⟩ := hus.tally.idle hidle
    have hnil : ns = [] := List.eq_nil_iff_forall_not_mem.2 fun q hq => by
      cases hwritten _ (List.mem_map_of_mem (f := markWritten) hq)
    subst hnil
    have hempty := rowOf_eq_nil_iff.2 hidle
    refine ⟨row, us, [], [], ⟨hus.tally, ?_, hempty.symm, rfl⟩, ?_⟩
    · simp only [GridPen.closeRow, hus.row, hempty, List.isEmpty_nil, if_true, hrows]
    · simp only [GridPen.closeRow, ← hsorted, h.started, List.map_nil, List.filterMap_nil, List.append_nil]

/-! ## The run -/

theorem Tallied.putDue (h : Tallied cs count p) : Tallied cs count p.putDue := by
  fun_induction GridPen.putDue p with
  | case1 p m merges hdue ih =>
    refine ih ?_
    obtain ⟨row, ts, ms, ss, h, hmerges⟩ := h
    rcases takeDue?_cases p.cursor p.merges with ⟨ks, k, ls, hk, hwritten, -, htake⟩ | ⟨hnone, -⟩
    · rw [htake] at hdue
      cases hdue
      obtain ⟨as, bs', rfl, rfl, hbs⟩ := List.map_eq_append_iff.1 (hmerges.symm.trans hk)
      obtain ⟨⟨i, k⟩, bs, rfl, rfl, rfl⟩ := List.map_eq_cons_iff.1 hbs
      let q : GridPen := { p with merges := as.map Prod.snd ++ { k with written := true } :: bs.map Prod.snd }
      obtain ⟨us, hus⟩ := h.mark (q := q.put k.span RowCell.continueWord true) hwritten (List.forall_mem_nil _) p.cursor
        rfl rfl rfl
      exact ⟨row, us, _, ss, hus, by simp [put, markWritten]⟩
    · rw [hnone] at hdue
      cases hdue
  | case2 p _ => exact h

theorem Tallied.makeRoom (h : Tallied cs count p) (span : Nat) : Tallied cs count (p.makeRoom span) := by
  fun_induction GridPen.makeRoom p span with
  | case1 p _ ih => exact ih h.putDue.closeRow
  | case2 p _ => exact h.putDue

theorem Tallied.write1 {c : Cell} (h : Tallied cs count p) (hc : cs[count]? = some c) :
    Tallied cs (count + 1) (p.write1 c) := by
  obtain ⟨row, ts, ms, ss, h, hmerges⟩ := h.makeRoom (max c.columnSpan 1)
  have hcell := h.tally.cell hc (p.makeRoom (max c.columnSpan 1)).cursor
  refine ⟨row, _, ms, _, h.append (List.forall_mem_singleton.2 rfl) hcell rfl rfl ?_, hmerges⟩
  rw [GridPen.write1, putCell]
  simp only [put, h.started, List.map_append]
  split <;> rfl

theorem Tallied.foldl_write1 : ∀ (done : List Cell) {rest : List Cell} {p : GridPen}, Tallied (done ++ rest) done.length p →
    Tallied (done ++ rest) (done ++ rest).length (rest.foldl GridPen.write1 p)
  | done, [], p, h => by simpa using h
  | done, c :: rest, p, h => by
    have hnext : Tallied ((done ++ [c]) ++ rest) (done ++ [c]).length (p.write1 c) := by
      simpa using h.write1 (c := c) (by simp)
    have hrest := hnext.foldl_write1 (done ++ [c])
    rw [List.append_assoc] at hrest
    exact hrest

theorem Tallied.closeAll (h : Tallied cs count p) : Tallied cs count p.closeAll := by
  fun_induction GridPen.closeAll p with
  | case1 p _ => exact h
  | case2 p _ ih => exact ih h.closeRow

theorem tallied_ofLayout (l : Layout) : Tallied l.cells 0 (ofLayout l) := by
  refine ⟨0, [], [], [], ⟨?_, rfl, rfl, rfl⟩, rfl⟩
  constructor
  case toTrace => constructor <;> simp
  all_goals simp [marks, pledged, asked]

/-! ## The account of a layout -/

theorem row_closeAll (h : p.row = []) : p.closeAll.row = [] := by
  fun_induction GridPen.closeAll p with
  | case1 p _ => exact h
  | case2 p _ ih => exact ih rfl

theorem merges_closeAll (p : GridPen) : p.closeAll.merges = [] := by
  fun_induction GridPen.closeAll p with
  | case1 p h => exact h
  | case2 p _ ih => exact ih

theorem started_closeAll (h : p.started = []) : p.closeAll.started = [] := by
  fun_induction GridPen.closeAll p with
  | case1 p _ => exact h
  | case2 p _ ih => exact ih rfl

/-- In the end every stroke stands in a row, and no pledge is left. -/
theorem exists_tally_finish (l : Layout) : ∃ height ts, Tally l.cells height l.cells.length ts [] [] ∧
    (∀ t ∈ ts, t.row < height) ∧ (write l).finish = (List.range height).map (rowOf ts) := by
  have hwrite : Tallied l.cells l.cells.length (write l) := (tallied_ofLayout l).foldl_write1 []
  obtain ⟨height, ts, ms, ss, h, hmerges⟩ := hwrite.closeRow.closeAll
  rw [merges_closeAll] at hmerges
  have hstarted := h.started
  rw [started_closeAll rfl] at hstarted
  obtain rfl := List.map_eq_nil_iff.1 hmerges.symm
  obtain rfl := List.map_eq_nil_iff.1 hstarted.symm
  have hrow := h.row
  rw [row_closeAll rfl] at hrow
  exact ⟨height, ts, h.tally, fun t ht => Nat.lt_of_le_of_ne (h.tally.upTo t ht) (rowOf_eq_nil_iff.1 hrow.symm t ht), h.rows⟩

/-- What the rows of a layout hold: each of its cells once and in order, the markers that its row spans ask for and no others,
and filler. -/
structure Account (l : Layout) (ts : List Stroke) (rows : List (List PenCell)) : Prop where
  byRow : rows = (List.range rows.length).map (rowOf ts)
  inRows : ∀ t ∈ ts, t.row < rows.length
  inOrder : ts.Pairwise fun s t => s.row ≤ t.row
  shows : ∀ t ∈ ts, t.Shows l.cells
  cells : ts.filterMap Stroke.cell? = List.range l.cells.length
  /-- A cell has one marker in each row that it covers under its own. -/
  markers : ∀ t ∈ ts, ∀ i c, t.cause = .cell i → l.cells[i]? = some c →
    ∀ j, marks ts i j = if t.row < j ∧ j < t.row + c.rowSpan then 1 else 0
  nonempty : ∀ row ∈ rows, row ≠ []
  height : rows.length ≤ (l.cells.map fun c => max 1 c.rowSpan).sum

/-- A cell of a row as it is written: behind its span, unless the row is full and the span is one. -/
def shownCell (full : Bool) (k : PenCell) : Text :=
  if full = true ∧ k.span ≤ 1 then k.text else ['['] ++ Text.ofNat k.span ++ [']', ':', ' '] ++ k.text

/-- The text of a row: the number of its columns, and its cells in order with commas between them.  A row is full if its spans
add up to the columns, so far as there are counts. -/
def IsRowText (columns : Nat) (row : List PenCell) (text : Text) : Prop :=
  text = ['['] ++ Text.ofNat columns ++ [']', ':', ' ', '\x7b', ' '] ++
    Text.joinWith [',', ' '] (row.map (shownCell (columns ≤ min (row.map PenCell.span).sum Count.ceiling))) ++ [' ', '\x7d']

theorem penCellText_eq (columns width : Nat) (k : PenCell) :
    penCellText (width < columns) k = shownCell (columns ≤ width) k := by
  by_cases hfull : columns ≤ width
  · by_cases hspan : k.span ≤ 1
    · simp [penCellText, shownCell, hfull, hspan, Nat.not_lt.2 hfull, Nat.not_lt.2 hspan]
    · simp [penCellText, shownCell, bracketed, hspan, Nat.lt_of_not_le hspan]
  · simp [penCellText, shownCell, bracketed, hfull, Nat.lt_of_not_le hfull]

theorem isRowText_rowText (columns : Nat) (row : List PenCell) : IsRowText columns row (rowText columns row) := by
  have hsum : (row.map PenCell.span).foldl Count.add 0 = min (row.map PenCell.span).sum Count.ceiling := by
    simpa using Count.foldl_add_eq_min (row.map PenCell.span) 0
  rw [IsRowText, rowText, hsum, List.map_congr_left fun k _ => penCellText_eq columns _ k]
  simp [bracketed]

/-- **The pen writes every layout and accounts for it**: its loops end without a difference that does not exist, its rows hold
what the cells and their row spans ask for, and what is written are the texts of these rows. -/
theorem write_accounts (l : Layout) :
    writeLoop l = Part.some ((write l).finish.map (rowText (max l.columnCount 1))) ∧
      (∀ row, IsRowText (max l.columnCount 1) row (rowText (max l.columnCount 1) row)) ∧
      ∃ ts, Account l ts (write l).finish := by
  refine ⟨by rw [writeLoop_eq, lines, columns_write], isRowText_rowText _, ?_⟩
  obtain ⟨height, ts, h, hrows, hfinish⟩ := exists_tally_finish l
  have hlen : (write l).finish.length = height := by rw [hfinish, List.length_map, List.length_range]
  refine ⟨ts, ?_⟩
  constructor
  case byRow => rw [hlen, hfinish]
  case inRows => rwa [hlen]
  case inOrder => exact h.inOrder
  case shows => exact h.shows
  case cells => exact h.cells
  case markers =>
    intro t ht i c hi hc j
    have hspan : rowSpanAt l.cells i = c.rowSpan := by simp [rowSpanAt, hc]
    have hbalance := h.balance i j
    rw [h.asked_eq ht hi, hspan] at hbalance
    exact hbalance
  case nonempty =>
    rw [hfinish]
    refine List.forall_mem_map.2 fun j hj hnil => ?_
    obtain ⟨t, ht, hrow⟩ := h.dense j (List.mem_range.1 hj)
    exact rowOf_eq_nil_iff.1 hnil t ht hrow
  case height =>
    rw [hlen, ← map_rowSpanAt]
    exact h.row_le_sum

end GridPen
end Gridmark
