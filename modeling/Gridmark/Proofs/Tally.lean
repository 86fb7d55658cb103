import Gridmark.Proofs.OpenMerges
/-!
# Tally — markers written and pledged

Every written cell has a cause: a cell of the layout, a further row of one, or a gap.  A trace lists what is written with row
and cause, and the merges that are open are pledges of markers to rows to come.  For every cell and every row, the markers
written and the markers pledged are together as many as the row span of the cell asks for (`Tally`).  Writing a marker
redeems a pledge (`Tally.mark`), a new cell of several rows makes one (`Tally.cell`), and closing a row passes all of them
on (`Tally.close`).  Without pledges the markers are those asked for, and so no row lies below all cells that reach down to
it (`Tally.row_le_sum`).
-/
namespace Gridmark
namespace GridPen

open OpenMerge

/-- Why a cell is written: for a cell of the layout, for a further row of one, or to fill a gap. -/
inductive Cause where
  | cell (i : Nat)
  | marker (i : Nat)
  | filler
deriving DecidableEq

/-- A written cell with its row and its cause. -/
structure Stroke where
  row : Nat
  cause : Cause
  pen : PenCell
deriving DecidableEq

/-- A `continue` under a cell of the layout. -/
def Stroke.marker (row i start span : Nat) : Stroke := ⟨row, .marker i, ⟨start, span, RowCell.continueWord, true⟩⟩

def Stroke.cell (row i start : Nat) (c : Cell) : Stroke :=
  ⟨row, .cell i, ⟨start, max c.columnSpan 1, cellText c.kind, c.kind.isContent⟩⟩

/-- The cell of the layout that a stroke writes. -/
def Stroke.cell? (t : Stroke) : Option Nat :=
  match t.cause with
  | .cell i => some i
  | _ => none

/-- That a stroke looks as its cause asks. -/
def Stroke.Shows (cs : List Cell) (t : Stroke) : Prop :=
  match t.cause with
  | .cell i => ∃ c, cs[i]? = some c ∧ t.pen.span = max c.columnSpan 1 ∧ t.pen.text = cellText c.kind ∧
      t.pen.absorbs = c.kind.isContent
  | .marker i => ∃ c, cs[i]? = some c ∧ t.pen.span = max c.columnSpan 1 ∧ t.pen.text = RowCell.continueWord ∧
      t.pen.absorbs = true
  | .filler => t.pen.absorbs = false ∧ (t.pen.text = RowCell.continueWord ∨ t.pen.text = RowCell.spaceWord)

/-- The cells of a row of a trace. -/
def rowOf (ts : List Stroke) (j : Nat) : List PenCell := (ts.filter fun t => t.row = j).map Stroke.pen

def rowSpanAt (cs : List Cell) (i : Nat) : Nat := (cs[i]?.map Cell.rowSpan).getD 0

def marks (ts : List Stroke) (i j : Nat) : Nat := ts.countP fun t => t.cause = .marker i ∧ t.row = j

/-- The number of markers that a cell is to have in a row. -/
def asked (cs : List Cell) (ts : List Stroke) (i j : Nat) : Nat :=
  ts.countP fun t => t.cause = .cell i ∧ t.row < j ∧ j < t.row + rowSpanAt cs i

/-- The number of markers of a cell in a row that open merges, listed with their cells, have still to write. -/
def pledged (row : Nat) (ms : List (Nat × OpenMerge)) (i j : Nat) : Nat :=
  ms.countP fun q => q.1 = i ∧ (if q.2.written then row < j else row ≤ j) ∧ j < row + q.2.rowsLeft

/-- Strokes up to a row, for the first cells of a layout. -/
structure Trace (cs : List Cell) (row count : Nat) (ts : List Stroke) : Prop where
  shows : ∀ t ∈ ts, t.Shows cs
  cells : ts.filterMap Stroke.cell? = List.range count
  inOrder : ts.Pairwise fun s t => s.row ≤ t.row
  upTo : ∀ t ∈ ts, t.row ≤ row
  dense : ∀ j < row, ∃ t ∈ ts, t.row = j
  lively : ∀ t ∈ ts, ∃ u ∈ ts, u.row = t.row ∧ u.cause ≠ .filler

/-- A trace with the merges that are open and those that start in its last row, each with its cell. -/
structure Tally (cs : List Cell) (row count : Nat) (ts : List Stroke) (ms ss : List (Nat × OpenMerge)) : Prop
    extends Trace cs row count ts where
  balance : ∀ i j, marks ts i j + (pledged row ms i j + pledged (row + 1) ss i j) = asked cs ts i j
  pledges : ∀ q ∈ ms ++ ss, 0 < q.2.rowsLeft ∧ ∃ c, cs[q.1]? = some c ∧ q.2.span = max c.columnSpan 1
  started : ∀ q ∈ ss, q.2.written = false
  /-- In a row without strokes nothing has started and nothing is written. -/
  idle : (∀ t ∈ ts, t.row ≠ row) → ss = [] ∧ ∀ q ∈ ms, q.2.written = false

variable {cs : List Cell} {row count : Nat} {ts us fs : List Stroke} {as bs ms ns ss : List (Nat × OpenMerge)}
  {i j : Nat} {m : OpenMerge}

/-! ## Counting -/

theorem marks_append (ts us : List Stroke) (i j : Nat) : marks (ts ++ us) i j = marks ts i j + marks us i j :=
  List.countP_append

theorem asked_append (cs : List Cell) (ts us : List Stroke) (i j : Nat) :
    asked cs (ts ++ us) i j = asked cs ts i j + asked cs us i j := List.countP_append

theorem pledged_append (row : Nat) (ms ns : List (Nat × OpenMerge)) (i j : Nat) :
    pledged row (ms ++ ns) i j = pledged row ms i j + pledged row ns i j := List.countP_append

theorem pledged_cons (row : Nat) (q : Nat × OpenMerge) (ms : List (Nat × OpenMerge)) (i j : Nat) :
    pledged row (q :: ms) i j = pledged row ms i j + pledged row [q] i j := by
  simp [pledged, List.countP_cons]

theorem pledged_perm (hp : ns.Perm ms) : pledged row ns i j = pledged row ms i j := hp.countP_eq _

theorem marks_eq_zero (h : ∀ t ∈ fs, t.cause = .filler) : marks fs i j = 0 := by
  simp only [marks, List.countP_eq_zero, decide_eq_true_eq]
  rintro t ht ⟨hcause, -⟩
  rw [h t ht] at hcause
  cases hcause

theorem cell?_eq_some_iff {t : Stroke} : t.cell? = some i ↔ t.cause = .cell i := by
  unfold Stroke.cell?
  cases t.cause <;> simp

theorem asked_eq_zero (h : i ∉ us.filterMap Stroke.cell?) : asked cs us i j = 0 := by
  simp only [asked, List.countP_eq_zero, decide_eq_true_eq]
  rintro t ht ⟨hcause, -⟩
  exact h (List.mem_filterMap.2 ⟨t, ht, cell?_eq_some_iff.2 hcause⟩)

/-- An unwritten merge with a row to go pledges a marker to the row, and the others when it is written. -/
theorem pledged_unwritten (hm : m.written = false) (hleft : 0 < m.rowsLeft) (start i' : Nat) :
    pledged row [(i, m)] i' j =
      marks [.marker row i start m.span] i' j + pledged row [(i, { m with written := true })] i' j := by
  by_cases hi : i = i'
  · by_cases hj : row = j
    · subst hi hj
      simp [pledged, marks, Stroke.marker, hm, hleft]
    · have hle : row ≤ j ↔ row < j := by omega
      simp [pledged, marks, Stroke.marker, hi, hj, hle]
  · simp [pledged, marks, Stroke.marker, hi]

/-- A cell asks for a marker in each row under its own, and a merge that starts with it pledges them. -/
theorem asked_cell {c : Cell} (hc : cs[i]? = some c) (start i' : Nat) :
    asked cs [.cell row i start c] i' j =
      pledged (row + 1) (if 1 < c.rowSpan then [(i, ⟨start, max c.columnSpan 1, c.rowSpan - 1, false⟩)] else []) i' j := by
  by_cases hi : i = i'
  · subst hi
    have hspan : rowSpanAt cs i = c.rowSpan := by simp [rowSpanAt, hc]
    by_cases hrows : 1 < c.rowSpan
    · have hiff : (row < j ∧ j < row + c.rowSpan) ↔ (row + 1 ≤ j ∧ j < row + 1 + (c.rowSpan - 1)) := by omega
      simp [asked, pledged, Stroke.cell, hspan, hrows, hiff]
    · have hnone : ¬(row < j ∧ j < row + c.rowSpan) := by omega
      simp [asked, pledged, Stroke.cell, hspan, hrows, hnone]
  · by_cases hrows : 1 < c.rowSpan <;> simp [asked, pledged, Stroke.cell, hi, hrows]

/-! ## Writing to the row -/

theorem Trace.append {n : Nat} (h : Trace cs row count ts) (hus : ∀ t ∈ us, t.row = row ∧ t.Shows cs)
    (hcells : List.range count ++ us.filterMap Stroke.cell? = List.range n) (hlively : ∃ u ∈ us, u.cause ≠ .filler) :
    Trace cs row n (ts ++ us) where
  shows t ht := (List.mem_append.1 ht).elim (h.shows t) fun ht => (hus t ht).2
  cells := by rw [List.filterMap_append, h.cells, hcells]
  inOrder := by
    refine List.pairwise_append.2 ⟨h.inOrder, ?_, fun s hs t ht => ?_⟩
    · exact List.pairwise_iff_forall_sublist.2 fun {s t} hst => by
        rw [(hus s (hst.subset (by simp))).1, (hus t (hst.subset (by simp))).1]
    · rw [(hus t ht).1]
      exact h.upTo s hs
  upTo t ht := (List.mem_append.1 ht).elim (h.upTo t) fun ht => Nat.le_of_eq (hus t ht).1
  dense j hj := by
    obtain ⟨t, ht, hrow⟩ := h.dense j hj
    exact ⟨t, List.mem_append_left _ ht, hrow⟩
  lively t ht := by
    rcases List.mem_append.1 ht with ht | ht
    · obtain ⟨u, hu, hrow⟩ := h.lively t ht
      exact ⟨u, List.mem_append_left _ hu, hrow⟩
    · obtain ⟨u, hu, hcause⟩ := hlively
      exact ⟨u, List.mem_append_right _ hu, by rw [(hus u hu).1, (hus t ht).1], hcause⟩

theorem Tally.perm (h : Tally cs row count ts ms ss) (hp : ns.Perm ms) : Tally cs row count ts ns ss where
  toTrace := h.toTrace
  balance i j := by rw [pledged_perm hp, h.balance]
  pledges q hq := h.pledges q (by simpa [hp.mem_iff] using hq)
  started := h.started
  idle hidle := ⟨(h.idle hidle).1, fun q hq => (h.idle hidle).2 q (hp.mem_iff.1 hq)⟩

/-- **A marker redeems a pledge**, and the filler in front of it changes nothing. -/
theorem Tally.mark (h : Tally cs row count ts (as ++ (i, m) :: bs) ss) (hm : m.written = false)
    (hfs : ∀ t ∈ fs, t.cause = .filler ∧ t.row = row ∧ t.Shows cs) (start : Nat) :
    Tally cs row count (ts ++ (fs ++ [.marker row i start m.span])) (as ++ (i, { m with written := true }) :: bs) ss := by
  obtain ⟨hleft, c, hc, hspan⟩ := h.pledges (i, m) (by simp)
  have hmem : Stroke.marker row i start m.span ∈ fs ++ [.marker row i start m.span] := by simp
  have hcells : (fs ++ [Stroke.marker row i start m.span]).filterMap Stroke.cell? = [] := by
    simp only [List.filterMap_eq_nil_iff, List.forall_mem_append, List.forall_mem_singleton]
    exact ⟨fun t ht => by rw [Stroke.cell?, (hfs t ht).1], rfl⟩
  constructor
  case toTrace =>
    refine h.toTrace.append ?_ (by rw [hcells, List.append_nil]) ⟨_, hmem, by simp [Stroke.marker]⟩
    simp only [List.forall_mem_append, List.forall_mem_singleton]
    exact ⟨fun t ht => (hfs t ht).2, rfl, c, hc, hspan, rfl, rfl⟩
  case balance =>
    intro i' j
    have hbalance := h.balance i' j
    rw [pledged_append, pledged_cons, pledged_unwritten hm hleft start] at hbalance
    have hasked : asked cs (fs ++ [.marker row i start m.span]) i' j = 0 :=
      asked_eq_zero (hcells ▸ List.not_mem_nil)
    rw [pledged_append, pledged_cons, marks_append, marks_append, asked_append, marks_eq_zero fun t ht => (hfs t ht).1, hasked]
    omega
  case pledges =>
    intro q hq
    simp only [List.mem_append, List.mem_cons] at hq
    obtain (hq | rfl | hq) | hq := hq
    · exact h.pledges q (by simp [hq])
    · exact ⟨hleft, c, hc, hspan⟩
    · exact h.pledges q (by simp [hq])
    · exact h.pledges q (by simp [hq])
  case started => exact h.started
  case idle => exact fun hidle => absurd rfl (hidle _ (List.mem_append_right _ hmem))

/-- **A new cell makes a pledge** if it has more than one row. -/
theorem Tally.cell {c : Cell} (h : Tally cs row count ts ms ss) (hc : cs[count]? = some c) (start : Nat) :
    Tally cs row (count + 1) (ts ++ [.cell row count start c]) ms
      (ss ++ if 1 < c.rowSpan then [(count, ⟨start, max c.columnSpan 1, c.rowSpan - 1, false⟩)] else []) := by
  have hmem : Stroke.cell row count start c ∈ [Stroke.cell row count start c] := List.mem_singleton_self _
  constructor
  case toTrace =>
    refine h.toTrace.append ?_ List.range_succ.symm ⟨_, hmem, by simp [Stroke.cell]⟩
    exact List.forall_mem_singleton.2 ⟨rfl, c, hc, rfl, rfl, rfl⟩
  case balance =>
    intro i j
    have hbalance := h.balance i j
    have hmarks : marks [.cell row count start c] i j = 0 := by simp [marks, Stroke.cell]
    rw [marks_append, asked_append, pledged_append, asked_cell hc, hmarks]
    omega
  case pledges =>
    intro q hq
    rw [← List.append_assoc] at hq
    rcases List.mem_append.1 hq with hq | hq
    · exact h.pledges q hq
    · split at hq
      · rw [List.mem_singleton.1 hq]
        exact ⟨by simp only; omega, c, hc, rfl⟩
      · cases hq
  case started =>
    intro q hq
    rcases List.mem_append.1 hq with hq | hq
    · exact h.started q hq
    · split at hq
      · rw [List.mem_singleton.1 hq]
      · cases hq
  case idle => exact fun hidle => absurd rfl (hidle _ (List.mem_append_right _ hmem))

/-! ## Closing a row -/

/-- The open merges of the next row, each with its cell. -/
def nextOwned? (q : Nat × OpenMerge) : Option (Nat × OpenMerge) := (nextRow? q.2).map fun m => (q.1, m)

theorem map_snd_filterMap_nextOwned? (ms : List (Nat × OpenMerge)) :
    (ms.filterMap nextOwned?).map Prod.snd = (ms.map Prod.snd).filterMap nextRow? := by
  rw [List.map_filterMap, List.filterMap_map]
  congr 1
  funext q
  simp [nextOwned?, Function.comp_def]

theorem nextOwned?_eq {q : Nat × OpenMerge} (h : 1 < q.2.rowsLeft) :
    nextOwned? q = some (q.1, { q.2 with rowsLeft := q.2.rowsLeft - 1, written := false }) := by
  rw [nextOwned?, nextRow?, if_pos h, Option.map_some]

theorem nextOwned?_eq_none {q : Nat × OpenMerge} (h : ¬1 < q.2.rowsLeft) : nextOwned? q = none := by
  rw [nextOwned?, nextRow?, if_neg h, Option.map_none]

theorem of_nextOwned? {q r : Nat × OpenMerge} (h : nextOwned? r = some q) :
    q.1 = r.1 ∧ q.2.span = r.2.span ∧ 0 < q.2.rowsLeft ∧ q.2.written = false := by
  by_cases hleft : 1 < r.2.rowsLeft
  · rw [nextOwned?_eq hleft] at h
    cases h
    exact ⟨rfl, rfl, by simp only; omega, rfl⟩
  · rw [nextOwned?_eq_none hleft] at h
    cases h

/-- What a written merge pledges is what it pledges in the next row. -/
theorem pledged_filterMap_nextOwned? : ∀ {ms : List (Nat × OpenMerge)}, (∀ q ∈ ms, q.2.written = true) →
    pledged (row + 1) (ms.filterMap nextOwned?) i j = pledged row ms i j
  | [], _ => rfl
  | q :: ms, h => by
    obtain ⟨hq, hms⟩ := List.forall_mem_cons.1 h
    have ih := pledged_filterMap_nextOwned? hms
    rw [pledged_cons row q]
    by_cases hleft : 1 < q.2.rowsLeft
    · have hiff : j < row + 1 + (q.2.rowsLeft - 1) ↔ j < row + q.2.rowsLeft := by omega
      rw [List.filterMap_cons_some (nextOwned?_eq hleft), pledged_cons, ih]
      simp [pledged, hq, hiff]
    · have hnone : ¬(row < j ∧ j < row + q.2.rowsLeft) := by omega
      rw [List.filterMap_cons_none (nextOwned?_eq_none hleft), ih]
      simp [pledged, hq, hnone]

/-- **Closing a row passes the pledges on.** -/
theorem Tally.close (h : Tally cs row count ts ms ss) (hms : ∀ q ∈ ms, q.2.written = true) (hrow : ∃ t ∈ ts, t.row = row) :
    Tally cs (row + 1) count ts (ms.filterMap nextOwned? ++ ss) [] where
  shows := h.shows
  cells := h.cells
  inOrder := h.inOrder
  upTo t ht := Nat.le_succ_of_le (h.upTo t ht)
  dense j hj := by
    by_cases hlt : j < row
    · exact h.dense j hlt
    · obtain rfl : j = row := by omega
      exact hrow
  lively := h.lively
  balance i j := by
    rw [pledged_append, pledged_filterMap_nextOwned? hms]
    exact h.balance i j
  pledges q hq := by
    rw [List.append_nil] at hq
    rcases List.mem_append.1 hq with hq | hq
    · obtain ⟨r, hr, hnext⟩ := List.mem_filterMap.1 hq
      obtain ⟨-, hcell⟩ := h.pledges r (List.mem_append_left _ hr)
      obtain ⟨howner, hspan, hleft, -⟩ := of_nextOwned? hnext
      exact ⟨hleft, by rwa [howner, hspan]⟩
    · exact h.pledges q (List.mem_append_right _ hq)
  started q hq := absurd hq List.not_mem_nil
  idle _ := by
    refine ⟨rfl, fun q hq => ?_⟩
    rcases List.mem_append.1 hq with hq | hq
    · obtain ⟨r, -, hnext⟩ := List.mem_filterMap.1 hq
      exact (of_nextOwned? hnext).2.2.2
    · exact h.started q hq

/-! ## Without pledges -/

/-- The one stroke that writes a cell asks for its markers. -/
theorem Trace.asked_eq (h : Trace cs row count ts) {t : Stroke} (ht : t ∈ ts) (hi : t.cause = .cell i) (j : Nat) :
    asked cs ts i j = if t.row < j ∧ j < t.row + rowSpanAt cs i then 1 else 0 := by
  obtain ⟨us, vs, rfl⟩ := List.append_of_mem ht
  have hnodup : ((us ++ t :: vs).filterMap Stroke.cell?).Nodup := by
    rw [h.cells]
    exact List.nodup_range
  rw [List.filterMap_append, List.filterMap_cons_some (cell?_eq_some_iff.2 hi)] at hnodup
  have hmem := (List.nodup_cons.1 (List.nodup_middle.1 hnodup)).1
  rw [List.mem_append, not_or] at hmem
  have hcons : asked cs (t :: vs) i j = asked cs [t] i j + asked cs vs i j := asked_append cs [t] vs i j
  rw [asked_append, hcons, asked_eq_zero hmem.1, asked_eq_zero hmem.2]
  simp [asked, hi]

/-- Every row has a cell that reaches down to it: its own, or the one that a marker in it belongs to. -/
theorem Tally.covers (h : Tally cs row count ts [] []) (hj : j < row) :
    ∃ t ∈ ts, ∃ i, t.cell? = some i ∧ t.row ≤ j ∧ j < t.row + max 1 (rowSpanAt cs i) := by
  obtain ⟨s, hs, rfl⟩ := h.dense j hj
  obtain ⟨u, hu, hrow, hcause⟩ := h.lively s hs
  cases hkind : u.cause with
  | cell i => exact ⟨u, hu, i, cell?_eq_some_iff.2 hkind, by omega, by omega⟩
  | marker i =>
    have hmarks : 0 < marks ts i s.row := List.countP_pos_iff.2 ⟨u, hu, by simp [hkind, hrow]⟩
    have hasked : 0 < asked cs ts i s.row := by
      rw [← h.balance]
      omega
    obtain ⟨t, ht, hcell⟩ := List.countP_pos_iff.1 hasked
    simp only [decide_eq_true_eq] at hcell
    exact ⟨t, ht, i, cell?_eq_some_iff.2 hcell.1, by omega, by omega⟩
  | filler => exact absurd hkind hcause

/-- The rows that a stroke reaches down to if it writes a cell. -/
def reach (cs : List Cell) (t : Stroke) : List Nat :=
  match t.cell? with
  | some i => List.range' t.row (max 1 (rowSpanAt cs i))
  | none => []

theorem length_flatMap_reach (cs : List Cell) : ∀ ts : List Stroke,
    (ts.flatMap (reach cs)).length = ((ts.filterMap Stroke.cell?).map fun i => max 1 (rowSpanAt cs i)).sum
  | [] => rfl
  | t :: ts => by
    rw [List.flatMap_cons, List.length_append, length_flatMap_reach cs ts, reach]
    cases ht : t.cell? with
    | none => simp [ht]
    | some i => simp [ht]

theorem Tally.row_le_sum (h : Tally cs row count ts [] []) :
    row ≤ ((List.range count).map fun i => max 1 (rowSpanAt cs i)).sum := by
  have hsub : List.range row ⊆ ts.flatMap (reach cs) := fun j hj => by
    obtain ⟨t, ht, i, hi, hle, hlt⟩ := h.covers (List.mem_range.1 hj)
    refine List.mem_flatMap.2 ⟨t, ht, ?_⟩
    rw [reach, hi]
    exact List.mem_range'_1.2 ⟨hle, hlt⟩
  have hlen := (List.nodup_range.subperm hsub).length_le
  rwa [List.length_range, length_flatMap_reach, h.cells] at hlen

theorem map_rowSpanAt (cs : List Cell) :
    (List.range cs.length).map (fun i => max 1 (rowSpanAt cs i)) = cs.map fun c => max 1 c.rowSpan := by
  refine List.ext_getElem (by simp) fun i hi _ => ?_
  have hlt : i < cs.length := by simpa using hi
  simp [rowSpanAt, hlt]

end GridPen
end Gridmark
