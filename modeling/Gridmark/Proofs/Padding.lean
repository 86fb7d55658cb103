import Gridmark.Proofs.Closings
/-!
# Padding — what gaps are filled with

In front of a marker the pen fills the columns that have nothing to write.  The filler takes these columns and no others, and
none of its `continue` merges into the row above (`Filled`).  A `space` adds a cell to what is read back, and there are two
reasons for one: the gap has no division into `continue` cells that all read back as nothing, which happens in gaps of one or
two columns only (`not_divisible_iff`), or the pen, which looks at no more than one cell of the row above at a time, does not
find the division that there is.
-/
namespace Gridmark
namespace GridPen

open OpenMerge

/-- A `continue` would merge: the cell above that covers its first column takes merges and is of its span. -/
def Merges (above : List PenCell) (column span : Nat) : Prop :=
  ∃ a ∈ above, a.absorbs = true ∧ (a.start ≤ column ∧ column < a.start + a.span) ∧ a.span = span

/-- One `continue` of each span, from a column on, and none of them merges. -/
def Hidden (above : List PenCell) : Nat → List Nat → Prop
  | _, [] => True
  | column, n :: ns => 0 < n ∧ ¬Merges above column n ∧ Hidden above (column + n) ns

/-- A gap can be filled with nothing to read back. -/
def Divisible (above : List PenCell) (column gap : Nat) : Prop := ∃ spans, spans.sum = gap ∧ Hidden above column spans

/-- The cells take the columns from the first to the last, and each takes one or more. -/
def Covers : Nat → List PenCell → Nat → Prop
  | start, [], stop => start = stop
  | start, k :: ks, stop => k.start = start ∧ 0 < k.span ∧ Covers (start + k.span) ks stop

/-- The filler of a gap under a row. -/
structure Filled (above : List PenCell) (column gap : Nat) (ks : List PenCell) : Prop where
  covers : Covers column ks (column + gap)
  words : ∀ k ∈ ks, k.absorbs = false ∧ (k.text = RowCell.continueWord ∨ k.text = RowCell.spaceWord ∧ k.span = 1)
  hidden : ∀ k ∈ ks, k.text = RowCell.continueWord → ¬Merges above k.start k.span
  /-- A wide gap that starts under one cell and ends under another of one column gets a `space` without need. -/
  space_iff : (∃ k ∈ ks, k.text = RowCell.spaceWord) ↔
    ¬Divisible above column gap ∨ 3 ≤ gap ∧ Merges above column gap ∧ Merges above (column + (gap - 1)) 1
  wide : 3 ≤ gap → Divisible above column gap

/-- The pen has a gap to fill up to a column, in front of the marker of a merge whose turn it is. -/
def Pads (l : Layout) (q : GridPen) (column : Nat) : Prop :=
  ∃ p, Closes l p ∧ ∃ ms m ns, sortByColumn p.merges = ms ++ m :: ns ∧ m.written = false ∧ q = ms.foldl settle p ∧
    column = m.column

variable {above : List PenCell} {column gap m n : Nat}

/-! ## The cell above a column -/

theorem find?_of_covers (h : above.Pairwise PenCell.Before) (hceiling : column < Count.ceiling) {a : PenCell} (ha : a ∈ above)
    (hcovers : a.start ≤ column ∧ column < a.start + a.span) :
    (above.find? fun c => c.start ≤ column && column - c.start < c.span) = some a := by
  induction above with
  | nil => cases ha
  | cons c cs ih =>
    obtain ⟨hc, hcs⟩ := List.pairwise_cons.1 h
    rcases List.mem_cons.1 ha with rfl | ha
    · rw [List.find?_cons_of_pos]
      simp
      omega
    · have hbefore : min (c.start + c.span) Count.ceiling ≤ a.start := hc a ha
      rw [List.find?_cons_of_neg, ih hcs ha]
      simp
      omega

/-- Below the ceiling one cell at most covers a column. -/
theorem merges_iff (h : above.Pairwise PenCell.Before) (hceiling : column < Count.ceiling) :
    Merges above column n ↔ spanAbove? above column = some n := by
  rw [spanAbove?_eq]
  constructor
  · rintro ⟨a, ha, habsorbs, hcovers, rfl⟩
    rw [find?_of_covers h hceiling ha hcovers]
    simp [Option.filter, habsorbs]
  · intro hspan
    obtain ⟨a, ha, rfl⟩ := Option.map_eq_some_iff.1 hspan
    obtain ⟨hfind, habsorbs⟩ := Option.filter_eq_some_iff.1 ha
    have hcovers := List.find?_some hfind
    simp at hcovers
    exact ⟨a, List.mem_of_find?_eq_some hfind, habsorbs, by omega, rfl⟩

theorem Merges.unique (h : above.Pairwise PenCell.Before) (hceiling : column < Count.ceiling) (hm : Merges above column m)
    (hn : Merges above column n) : m = n :=
  Option.some_inj.1 (((merges_iff h hceiling).1 hm).symm.trans ((merges_iff h hceiling).1 hn))

/-- A cell that takes a merge under the next column only goes on to the column after its span. -/
theorem Merges.last (h : Merges above (column + 1) n) (hnot : ¬Merges above column n) : Merges above (column + n) n := by
  obtain ⟨a, ha, habsorbs, ⟨hstart, hstop⟩, rfl⟩ := h
  have hnext : ¬a.start ≤ column := fun hle => hnot ⟨a, ha, habsorbs, ⟨hle, by omega⟩, rfl⟩
  exact ⟨a, ha, habsorbs, ⟨by omega, by omega⟩, rfl⟩

/-! ## Gaps that can be divided -/

theorem hidden_singleton : Hidden above column [n] ↔ 0 < n ∧ ¬Merges above column n := by simp [Hidden]

theorem hidden_pair : Hidden above column [m, n] ↔
    (0 < m ∧ ¬Merges above column m) ∧ 0 < n ∧ ¬Merges above (column + m) n := by simp [Hidden, and_assoc]

theorem divisible_of_three_le (h : above.Pairwise PenCell.Before) (hceiling : column + gap ≤ Count.ceiling) (hgap : 3 ≤ gap) :
    Divisible above column gap := by
  by_cases hwhole : Merges above column gap
  · have hother : ∀ n, Merges above column n → n = gap := fun n hn => hn.unique h (by omega) hwhole
    have hshort : ¬Merges above column (gap - 1) := fun hm => by have := hother _ hm; omega
    by_cases hrest : Merges above (column + 1) (gap - 1)
    · -- the second column starts a cell that goes on to the end of the gap
      have hlast : ¬Merges above (column + (gap - 1)) 1 := fun hm => by
        have := hm.unique h (by omega) (hrest.last hshort)
        omega
      exact ⟨[gap - 1, 1], by simp; omega, hidden_pair.2 ⟨⟨by omega, hshort⟩, Nat.one_pos, hlast⟩⟩
    · have hone : ¬Merges above column 1 := fun hm => by have := hother _ hm; omega
      exact ⟨[1, gap - 1], by simp; omega, hidden_pair.2 ⟨⟨Nat.one_pos, hone⟩, by omega, hrest⟩⟩
  · exact ⟨[gap], by simp, hidden_singleton.2 ⟨by omega, hwhole⟩⟩

/-- A gap has no division just when it is short and both ways to fill it merge. -/
theorem not_divisible_iff (h : above.Pairwise PenCell.Before) (hceiling : column + gap ≤ Count.ceiling) :
    ¬Divisible above column gap ↔
      (0 < gap ∧ gap ≤ 2) ∧ Merges above column gap ∧ Merges above (column + (gap - 1)) 1 := by
  constructor
  · intro hnot
    have hpos : 0 < gap := Nat.pos_of_ne_zero fun h0 => hnot ⟨[], h0.symm, trivial⟩
    have hshort : gap ≤ 2 := by
      by_contra hwide
      exact hnot (divisible_of_three_le h hceiling (by omega))
    have hwhole : Merges above column gap := by
      by_contra hm
      exact hnot ⟨[gap], by simp, hidden_singleton.2 ⟨hpos, hm⟩⟩
    refine ⟨⟨hpos, hshort⟩, hwhole, ?_⟩
    by_contra hlast
    obtain rfl | rfl : gap = 1 ∨ gap = 2 := by omega
    · exact hlast hwhole
    · have hone : ¬Merges above column 1 := fun hm => by cases hm.unique h (by omega) hwhole
      exact hnot ⟨[1, 1], rfl, hidden_pair.2 ⟨⟨Nat.one_pos, hone⟩, Nat.one_pos, hlast⟩⟩
  · rintro ⟨⟨hpos, hshort⟩, hwhole, hlast⟩ ⟨spans, hsum, hhidden⟩
    match spans, hsum, hhidden with
    | [], hsum, _ => simp at hsum; omega
    | [n], hsum, hhidden =>
      obtain rfl : n = gap := by simpa using hsum
      exact (hidden_singleton.1 hhidden).2 hwhole
    | m :: n :: ns, hsum, ⟨hm, _, hn, hmerge, _⟩ =>
      simp at hsum
      obtain rfl : m = 1 := by omega
      obtain rfl : n = 1 := by omega
      obtain rfl : gap = 2 := by omega
      exact hmerge hlast

/-! ## Filler -/

/-- What a gap is filled with: one `continue`, or one short of the gap and the last column besides, if the first would merge. -/
theorem filler_eq (above : List PenCell) (column : Nat) {gap : Nat} (hgap : 0 < gap) : filler above column gap =
    if spanAbove? above column = some gap then
      (if gap = 1 then [] else [(gap - 1, RowCell.continueWord)]) ++
        [(1, if spanAbove? above (column + (gap - 1)) = some 1 then RowCell.spaceWord else RowCell.continueWord)]
    else [(gap, RowCell.continueWord)] := by
  by_cases hwhole : spanAbove? above column = some gap
  · rw [filler_eq_cons above column hgap, fill, if_pos hwhole, if_pos hwhole]
    by_cases hone : gap = 1
    · subst hone
      simp [hwhole, filler_zero]
    · have hrest : gap - (gap - 1) = 1 := by omega
      rw [if_neg hone, if_neg hone, hrest, filler_eq_cons above _ Nat.one_pos, fill]
      by_cases hlast : spanAbove? above (column + (gap - 1)) = some 1 <;> simp [hlast, filler_zero]
  · rw [filler_eq_cons above column hgap, fill, if_neg hwhole, if_neg hwhole, Nat.sub_self, filler_zero]

def layOut : Nat → List (Nat × Text) → List PenCell
  | _, [] => []
  | start, f :: fs => ⟨start, f.1, f.2, false⟩ :: layOut (start + f.1) fs

theorem foldl_put_eq : ∀ (fs : List (Nat × Text)) (p : GridPen), p.cursor + (fs.map Prod.fst).sum ≤ Count.ceiling →
    fs.foldl (fun p f => p.put f.1 f.2 false) p =
      { p with row := p.row ++ layOut p.cursor fs, cursor := p.cursor + (fs.map Prod.fst).sum }
  | [], p, _ => by simp [layOut]
  | f :: fs, p, h => by
    rw [List.map_cons, List.sum_cons] at h
    have hcursor : (p.put f.1 f.2 false).cursor = p.cursor + f.1 := add_eq (by omega)
    rw [List.foldl_cons, foldl_put_eq fs _ (by rw [hcursor]; omega), hcursor]
    simp [put, layOut, Nat.add_assoc]

theorem continueWord_ne_spaceWord : RowCell.continueWord ≠ RowCell.spaceWord := by decide

theorem filled_nil (above : List PenCell) (column : Nat) : Filled above column 0 [] where
  covers := rfl
  words := by simp
  hidden := by simp
  space_iff := by
    have hnone : Divisible above column 0 := ⟨[], rfl, trivial⟩
    simp [hnone]
  wide := by omega

/-- The pen needs a `space`, or takes it that it does, when both ways to fill the gap that it tries merge. -/
theorem needs_space_iff (h : above.Pairwise PenCell.Before) (hceiling : column + gap ≤ Count.ceiling) (hgap : 0 < gap) :
    (¬Divisible above column gap ∨ 3 ≤ gap ∧ Merges above column gap ∧ Merges above (column + (gap - 1)) 1) ↔
      Merges above column gap ∧ Merges above (column + (gap - 1)) 1 := by
  rw [not_divisible_iff h hceiling, ← or_and_right]
  exact and_iff_right_of_imp fun _ => by omega

theorem Filled.of_space_iff {ks : List PenCell} (h : above.Pairwise PenCell.Before) (hceiling : column + gap ≤ Count.ceiling)
    (hgap : 0 < gap) (hcovers : Covers column ks (column + gap))
    (hwords : ∀ k ∈ ks, k.absorbs = false ∧ (k.text = RowCell.continueWord ∨ k.text = RowCell.spaceWord ∧ k.span = 1))
    (hhidden : ∀ k ∈ ks, k.text = RowCell.continueWord → ¬Merges above k.start k.span)
    (hspace : (∃ k ∈ ks, k.text = RowCell.spaceWord) ↔ Merges above column gap ∧ Merges above (column + (gap - 1)) 1) :
    Filled above column gap ks where
  covers := hcovers
  words := hwords
  hidden := hhidden
  space_iff := hspace.trans (needs_space_iff h hceiling hgap).symm
  wide := divisible_of_three_le h hceiling

theorem filled_filler (h : above.Pairwise PenCell.Before) (hceiling : column + gap ≤ Count.ceiling) :
    Filled above column gap (layOut column (filler above column gap)) := by
  by_cases hgap : gap = 0
  · rw [hgap, filler_zero]
    exact filled_nil above column
  have hpos : 0 < gap := Nat.pos_of_ne_zero hgap
  have hne := continueWord_ne_spaceWord
  have hfirst : Merges above column gap ↔ spanAbove? above column = some gap := merges_iff h (by omega)
  have hsecond : Merges above (column + (gap - 1)) 1 ↔ spanAbove? above (column + (gap - 1)) = some 1 :=
    merges_iff h (by omega)
  rw [filler_eq above column hpos]
  by_cases hwhole : Merges above column gap
  · rw [if_pos (hfirst.1 hwhole)]
    by_cases hone : gap = 1
    · -- the first column is the last one too
      subst hone
      have hlast : Merges above (column + (1 - 1)) 1 := hwhole
      rw [if_pos rfl, if_pos (hsecond.1 hlast)]
      refine .of_space_iff h hceiling hpos ?_ ?_ ?_ ?_
      · simp [layOut, Covers]
      · simp [layOut]
      · simp [layOut, hne.symm]
      · simp [layOut, hwhole]
    · have hshort : ¬Merges above column (gap - 1) := fun hm => by
        have := hm.unique h (by omega) hwhole
        omega
      have hcovers : ∀ t, Covers column (layOut column [(gap - 1, RowCell.continueWord), (1, t)]) (column + gap) := fun t => by
        simp [layOut, Covers]
        omega
      rw [if_neg hone]
      by_cases hlast : Merges above (column + (gap - 1)) 1
      · rw [if_pos (hsecond.1 hlast)]
        refine .of_space_iff h hceiling hpos (hcovers _) ?_ ?_ ?_
        · simp [layOut]
        · simp [layOut, hne.symm, hshort]
        · simp [layOut, hwhole, hlast]
      · rw [if_neg fun hs => hlast (hsecond.2 hs)]
        refine .of_space_iff h hceiling hpos (hcovers _) ?_ ?_ ?_
        · simp [layOut]
        · simp [layOut, hshort, hlast]
        · simp [layOut, hlast, hne]
  · rw [if_neg fun hs => hwhole (hfirst.2 hs)]
    refine .of_space_iff h hceiling hpos ?_ ?_ ?_ ?_
    · simp [layOut, Covers, hpos]
    · simp [layOut]
    · simp [layOut, hwhole]
    · simp [layOut, hwhole, hne]

theorem stop_of_covers : ∀ {fs : List (Nat × Text)} {start stop : Nat}, Covers start (layOut start fs) stop →
    start + (fs.map Prod.fst).sum = stop
  | [], _, _, h => h
  | f :: fs, start, stop, ⟨_, _, h⟩ => by
    rw [List.map_cons, List.sum_cons, ← Nat.add_assoc]
    exact stop_of_covers h

/-! ## Gaps of a layout -/

/-- **What the pen fills a gap with** while it writes a layout: the columns of the gap are taken, nothing merges, and a `space`
stands where the gap cannot be divided, or where it is wide and the pen has missed how.  The gaps are those of every row,
for every row is written by a pen that settles what it owes and pads to each marker that it has still to write. -/
theorem Pads.exists_filled (l : Layout) :
    (∀ row ∈ (write l).finish, ∃ p, Closes l p ∧ row = p.settledRow) ∧
    ∀ {q : GridPen} {column : Nat}, Pads l q column →
      (q.above = [] ∨ q.rows.getLast? = some q.above) ∧
      (∃ ts : List Stroke, (∀ t ∈ ts, t.Shows l.cells) ∧ q.above = ts.map Stroke.pen) ∧
      ∃ ks, q.padTo column = { q with row := q.row ++ ks, cursor := max q.cursor column } ∧
        Filled q.above q.cursor (column - q.cursor) ks := by
  refine ⟨fun _ => exists_closes_of_mem_finish, fun {q column} h => ?_⟩
  obtain ⟨p, hp, ms, m, ns, hsort, -, rfl, rfl⟩ := h
  obtain ⟨cs, hready⟩ := hp.ready
  have hqueued := hready.queued.foldl_settle ms
  have hstrokes := hready.exists_strokes
  rw [← above_foldl_settle ms] at hstrokes
  have hmem : m ∈ p.merges := (perm_sortByColumn p.merges).mem_iff.1 (hsort ▸ by simp)
  have hcolumn : m.column ≤ Count.ceiling := (hready.sound.merges m hmem).2
  generalize ms.foldl settle p = q at *
  have hstop : q.cursor + (m.column - q.cursor) = max q.cursor m.column := by omega
  have hceiling : q.cursor + (m.column - q.cursor) ≤ Count.ceiling := by
    have := hqueued.cursor
    omega
  have hfilled := filled_filler hqueued.above hceiling
  have hsum := stop_of_covers hfilled.covers
  refine ⟨hqueued.last, hstrokes, _, ?_, hfilled⟩
  rw [padTo, foldl_put_eq _ _ (by omega), hsum, hstop]

end GridPen

/-- Five columns and two rows.  In the second row the gap between a cell and the marker of a tall one starts under the middle
of a wide cell. -/
def Layout.shelf : Layout where
  columnCount := 5
  cells := [⟨.content (.prose ['x']), 3, 1⟩, ⟨.content (.prose ['y']), 1, 1⟩, ⟨.content (.prose ['m']), 1, 2⟩,
    ⟨.content (.prose ['z']), 1, 1⟩]

namespace GridPen

theorem exists_filled_shelf : ∃ q, Pads Layout.shelf q 4 ∧ Divisible q.above 1 3 ∧
    (q.padTo 4).row = q.row ++ [⟨1, 2, RowCell.continueWord, false⟩, ⟨3, 1, RowCell.spaceWord, false⟩] := by
  let x : Cell := ⟨.content (.prose ['x']), 3, 1⟩
  let y : Cell := ⟨.content (.prose ['y']), 1, 1⟩
  let m : Cell := ⟨.content (.prose ['m']), 1, 2⟩
  let z : Cell := ⟨.content (.prose ['z']), 1, 1⟩
  let p : GridPen := (((ofLayout Layout.shelf).write1 x).write1 y).write1 m
  let q : GridPen := p.putDue.closeRow.write1 z
  have hp : Writes Layout.shelf [z] p := (Writes.start.write1 (c := x)).write1.write1
  have hq : Writes Layout.shelf [] q := (hp.close (by decide +kernel)).write1
  have hpads : Pads Layout.shelf q 4 :=
    ⟨q, .last hq, [], ⟨4, 1, 1, false⟩, [], by decide +kernel, rfl, rfl, rfl⟩
  obtain ⟨-, -, ks, -, hfilled⟩ := (Pads.exists_filled Layout.shelf).2 hpads
  have hcursor : q.cursor = 1 := by decide +kernel
  rw [hcursor] at hfilled
  exact ⟨q, hpads, hfilled.wide (by decide), by decide +kernel⟩

end GridPen
end Gridmark
