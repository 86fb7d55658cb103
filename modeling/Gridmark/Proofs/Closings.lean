import Gridmark.Proofs.Accounts
/-!
# Closings — the rows that the pen closes

Writing a layout is a run of the pen, and each of its steps is a relation here: the pens between two cells (`Writes`), those
behind the last cell (`Finishes`), and among them those of which the row is closed next (`Closes`).  Every row of a layout
is closed in this way (`exists_closes_of_mem_finish`).  What all of these pens have in common is an invariant of one step
(`Ready`): the cells of a row stand one behind the other, and the row above is the one written last.
-/
namespace Gridmark

/-- A cell ends before the other starts.  At the ceiling both may start. -/
def PenCell.Before (a b : PenCell) : Prop := Count.add a.start a.span ≤ b.start

namespace GridPen

open OpenMerge

def Full (p : GridPen) (c : Cell) : Prop :=
  0 < p.putDue.cursor ∧ p.columns < Count.add p.putDue.cursor (max c.columnSpan 1)

instance (p : GridPen) (c : Cell) : Decidable (p.Full c) := inferInstanceAs (Decidable (_ ∧ _))

/-- The pens that come up while the cells of a layout are written, with the cells that are left. -/
inductive Writes (l : Layout) : List Cell → GridPen → Prop
  | start : Writes l l.cells (ofLayout l)
  | close {c : Cell} {cs : List Cell} {p : GridPen} : Writes l (c :: cs) p → p.Full c → Writes l (c :: cs) p.putDue.closeRow
  | put {c : Cell} {cs : List Cell} {p : GridPen} : Writes l (c :: cs) p → ¬p.Full c → Writes l cs (p.write1 c)

/-- The pens behind the last row that has cells of its own. -/
inductive Finishes (l : Layout) : GridPen → Prop
  | last {p : GridPen} : Writes l [] p → Finishes l p.closeRow
  | owed {p : GridPen} : Finishes l p → p.merges ≠ [] → Finishes l p.closeRow

/-- The pens of which the row is closed. -/
inductive Closes (l : Layout) : GridPen → Prop
  | full {c : Cell} {cs : List Cell} {p : GridPen} : Writes l (c :: cs) p → p.Full c → Closes l p.putDue
  | last {p : GridPen} : Writes l [] p → Closes l p
  | owed {p : GridPen} : Finishes l p → p.merges ≠ [] → Closes l p

variable {l : Layout} {c : Cell} {cs : List Cell} {p : GridPen}

/-! ## The run -/

theorem write1_of_full (h : p.Full c) : p.write1 c = p.putDue.closeRow.write1 c := by
  rw [write1, write1, putCell, putCell, makeRoom_of_full h.1 h.2]

theorem makeRoom_of_not_full (h : ¬p.Full c) : p.makeRoom (max c.columnSpan 1) = p.putDue := by
  rw [makeRoom]
  exact if_neg h

theorem Writes.write1 (h : Writes l (c :: cs) p) : Writes l cs (p.write1 c) := by
  fun_induction GridPen.makeRoom p (max c.columnSpan 1) with
  | case1 p hfull ih =>
    rw [write1_of_full hfull]
    exact ih (h.close hfull)
  | case2 p hfits => exact h.put hfits

theorem Writes.foldl_write1 : ∀ {cs : List Cell} {p : GridPen}, Writes l cs p → Writes l [] (cs.foldl GridPen.write1 p)
  | [], _, h => h
  | _ :: _, _, h => h.write1.foldl_write1

theorem writes_write (l : Layout) : Writes l [] (write l) := Writes.start.foldl_write1

theorem Finishes.closeAll (h : Finishes l p) : Finishes l p.closeAll := by
  fun_induction GridPen.closeAll p with
  | case1 p _ => exact h
  | case2 p hne ih => exact ih (h.owed hne)

/-! ## Rows come from closings -/

@[simp] theorem rows_putDue (p : GridPen) : p.putDue.rows = p.rows := by
  fun_induction GridPen.putDue p with
  | case1 p m merges _ ih => exact ih
  | case2 p _ => rfl

def settledRow (p : GridPen) : List PenCell := ((sortByColumn p.merges).foldl settle p).row

theorem mem_rows_closeRow {row : List PenCell} (h : row ∈ p.closeRow.rows) : row ∈ p.rows ∨ row = p.settledRow := by
  rw [closeRow] at h
  simp only at h
  split at h
  · exact .inl h
  · exact (List.mem_append.1 h).imp_right List.mem_singleton.1

theorem Writes.exists_closes (h : Writes l cs p) : ∀ row ∈ p.rows, ∃ q, Closes l q ∧ row = q.settledRow := by
  induction h with
  | start => simp [ofLayout, ofColumns]
  | @close c cs p hw hfull ih =>
    intro row hrow
    rcases mem_rows_closeRow hrow with hrow | rfl
    · exact ih row (by rwa [rows_putDue] at hrow)
    · exact ⟨p.putDue, .full hw hfull, rfl⟩
  | @put c cs p _ hfits ih =>
    have hrows : (p.write1 c).rows = p.rows := by
      rw [GridPen.write1, putCell, makeRoom_of_not_full hfits]
      exact rows_putDue p
    rwa [hrows]

theorem Finishes.exists_closes (h : Finishes l p) : ∀ row ∈ p.rows, ∃ q, Closes l q ∧ row = q.settledRow := by
  induction h with
  | @last p hw =>
    intro row hrow
    rcases mem_rows_closeRow hrow with hrow | rfl
    · exact hw.exists_closes row hrow
    · exact ⟨p, .last hw, rfl⟩
  | @owed p hf hne ih =>
    intro row hrow
    rcases mem_rows_closeRow hrow with hrow | rfl
    · exact ih row hrow
    · exact ⟨p, .owed hf hne, rfl⟩

/-- **Every row of a layout is written when a pen closes it.** -/
theorem exists_closes_of_mem_finish {row : List PenCell} (h : row ∈ (write l).finish) :
    ∃ p, Closes l p ∧ row = p.settledRow :=
  (Finishes.last (writes_write l)).closeAll.exists_closes row h

/-! ## Cells one behind the other -/

/-- The cells of a row stand one behind the other, and so do those of the row above, which is the row written last. -/
structure Queued (p : GridPen) : Prop where
  cursor : p.cursor ≤ Count.ceiling
  row : p.row.Pairwise PenCell.Before
  behind : ∀ a ∈ p.row, Count.add a.start a.span ≤ p.cursor
  above : p.above.Pairwise PenCell.Before
  last : p.above = [] ∨ p.rows.getLast? = some p.above

theorem Queued.put (h : p.Queued) (span : Nat) (text : Text) (absorbs : Bool) : (p.put span text absorbs).Queued where
  cursor := add_le_ceiling _ _
  row := by
    refine List.pairwise_append.2 ⟨h.row, List.pairwise_singleton _ _, fun a ha b hb => ?_⟩
    rw [List.mem_singleton.1 hb]
    exact h.behind a ha
  behind a ha := by
    have hcursor := h.cursor
    rcases List.mem_append.1 ha with ha | ha
    · have hle := h.behind a ha
      show _ ≤ min (p.cursor + span) Count.ceiling
      omega
    · rw [List.mem_singleton.1 ha]
      exact Nat.le_refl _
  above := h.above
  last := h.last

theorem Queued.putDue (h : p.Queued) : p.putDue.Queued := by
  fun_induction GridPen.putDue p with
  | case1 p m merges _ ih =>
    have hm : Queued { p with merges := merges } := ⟨h.cursor, h.row, h.behind, h.above, h.last⟩
    exact ih (hm.put _ _ _)
  | case2 p _ => exact h

theorem Queued.foldl_put : ∀ (fs : List (Nat × Text)) {p : GridPen}, p.Queued →
    (fs.foldl (fun p f => p.put f.1 f.2 false) p).Queued
  | [], _, h => h
  | f :: fs, _, h => (h.put f.1 f.2 false).foldl_put fs

theorem Queued.settle (h : p.Queued) (m : OpenMerge) : (p.settle m).Queued := by
  rw [GridPen.settle]
  split
  · exact h
  · exact (h.foldl_put _).put _ _ _

theorem Queued.foldl_settle : ∀ (ms : List OpenMerge) {p : GridPen}, p.Queued → (ms.foldl GridPen.settle p).Queued
  | [], _, h => h
  | m :: ms, _, h => (h.settle m).foldl_settle ms

theorem Queued.closeRow (h : p.Queued) : p.closeRow.Queued where
  cursor := Nat.zero_le _
  row := List.Pairwise.nil
  behind := List.forall_mem_nil _
  above := (h.foldl_settle _).row
  last := by
    rw [GridPen.closeRow]
    by_cases hrow : ((sortByColumn p.merges).foldl GridPen.settle p).row = []
    · exact .inl hrow
    · exact .inr (by simp [hrow])

theorem Queued.makeRoom (h : p.Queued) (span : Nat) : (p.makeRoom span).Queued := by
  fun_induction GridPen.makeRoom p span with
  | case1 p _ ih => exact ih h.putDue.closeRow
  | case2 p _ => exact h.putDue

theorem Queued.putCell (h : p.Queued) (c : Cell) (text : Text) : (p.putCell c text).Queued := by
  have hroom := h.makeRoom (max c.columnSpan 1)
  have hstarted (started : List OpenMerge) : Queued { p.makeRoom (max c.columnSpan 1) with started := started } :=
    ⟨hroom.cursor, hroom.row, hroom.behind, hroom.above, hroom.last⟩
  exact (hstarted _).put _ _ _

theorem above_settle (p : GridPen) (m : OpenMerge) : (p.settle m).above = p.above := by
  rw [GridPen.settle]
  split
  · rfl
  · obtain ⟨ks, cursor, hpad, -⟩ := exists_padTo p m.column
    rw [hpad]
    rfl

theorem above_foldl_settle : ∀ (ms : List OpenMerge) (p : GridPen), (ms.foldl GridPen.settle p).above = p.above
  | [], _ => rfl
  | m :: ms, p => by rw [List.foldl_cons, above_foldl_settle ms, above_settle]

/-! ## What the pens of a layout have in common -/

/-- A pen with cells left to write: its merges are sound, its cells stand one behind the other, and its rows are told. -/
structure Ready (l : Layout) (cs : List Cell) (p : GridPen) : Prop where
  sound : p.Sound
  queued : p.Queued
  told : ∃ done, done ++ cs = l.cells ∧ Tallied l.cells done.length p

theorem ready_ofLayout (l : Layout) : Ready l l.cells (ofLayout l) where
  sound := sound_ofLayout l
  queued := ⟨Nat.zero_le _, List.Pairwise.nil, List.forall_mem_nil _, List.Pairwise.nil, .inl rfl⟩
  told := ⟨[], rfl, tallied_ofLayout l⟩

theorem Ready.putDue (h : Ready l cs p) : Ready l cs p.putDue where
  sound := h.sound.putDue
  queued := h.queued.putDue
  told := h.told.imp fun _ hdone => hdone.imp_right Tallied.putDue

theorem Ready.closeRow (h : Ready l cs p) : Ready l cs p.closeRow where
  sound := h.sound.closeRow
  queued := h.queued.closeRow
  told := h.told.imp fun _ hdone => hdone.imp_right Tallied.closeRow

theorem Ready.write1 (h : Ready l (c :: cs) p) : Ready l cs (p.write1 c) where
  sound := h.sound.putCell c _
  queued := h.queued.putCell c _
  told := by
    obtain ⟨done, hcells, htold⟩ := h.told
    have hc : l.cells[done.length]? = some c := by simp [← hcells]
    exact ⟨done ++ [c], by simpa using hcells, by simpa using htold.write1 hc⟩

theorem Writes.ready (h : Writes l cs p) : Ready l cs p := by
  induction h with
  | start => exact ready_ofLayout l
  | close _ _ ih => exact ih.putDue.closeRow
  | put _ _ ih => exact ih.write1

theorem Finishes.ready (h : Finishes l p) : Ready l [] p := by
  induction h with
  | last hw => exact hw.ready.closeRow
  | owed _ _ ih => exact ih.closeRow

theorem Closes.ready (h : Closes l p) : ∃ cs, Ready l cs p := by
  cases h with
  | full hw _ => exact ⟨_, hw.ready.putDue⟩
  | last hw => exact ⟨_, hw.ready⟩
  | owed hf _ => exact ⟨_, hf.ready⟩

/-- The row above holds cells of the layout, their markers and filler. -/
theorem Ready.exists_strokes (h : Ready l cs p) : ∃ ts : List Stroke, (∀ t ∈ ts, t.Shows l.cells) ∧ p.above = ts.map Stroke.pen := by
  obtain ⟨done, -, height, ts, ms, ss, hts, -⟩ := h.told
  rcases h.queued.last with hnil | hlast
  · exact ⟨[], List.forall_mem_nil _, hnil⟩
  · have hmem := List.mem_of_getLast? hlast
    rw [hts.rows] at hmem
    obtain ⟨j, -, hj⟩ := List.mem_map.1 hmem
    exact ⟨ts.filter fun t => t.row = j, fun t ht => hts.tally.shows t (List.mem_filter.1 ht).1, hj.symm⟩

end GridPen
end Gridmark
