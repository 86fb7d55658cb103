import Mathlib.Data.PFun
import Gridmark.Proofs.PenRows
/-!
# PenLoops — the pen's loops end

The functions of the pen are total, and their subtractions stop at zero.  Here the same steps are loops that need not end,
with differences that need not exist: what they compute is a partial value, defined if every loop ends and every difference
exists.  A layout is written all the same (`writeLoop_eq`).  What carries the proof is that an open merge always has a row
to go and that no merge starts right of the ceiling (`Sound`).
-/
namespace Gridmark
namespace GridPen

open OpenMerge

/-! ## Partial steps -/

def minus (a b : Nat) : Part Nat := ⟨b ≤ a, fun _ => a - b⟩

def dueLoop : GridPen →. GridPen :=
  PFun.fix fun p => pure <|
    match takeDue? p.cursor p.merges with
    | some (m, merges) => .inr ({ p with merges := merges }.put m.span RowCell.continueWord true)
    | none => .inl p

def coverLoop (column : Nat) : List PenCell → Part (Option PenCell)
  | [] => pure none
  | c :: cs =>
    if c.start ≤ column then do
      let offset ← minus column c.start
      if offset < c.span then pure (some c) else coverLoop column cs
    else coverLoop column cs

/-- Writes cells that fill the row while the cursor is left of the column. -/
def padLoop (column : Nat) : GridPen →. GridPen :=
  PFun.fix fun p =>
    if p.cursor < column then do
      let gap ← minus column p.cursor
      let cover ← coverLoop p.cursor p.above
      if (cover.filter PenCell.absorbs).map PenCell.span = some gap then
        if gap = 1 then pure (.inr (p.put 1 RowCell.spaceWord false))
        else do
          let most ← minus gap 1
          pure (.inr (p.put most RowCell.continueWord false))
      else pure (.inr (p.put gap RowCell.continueWord false))
    else pure (.inl p)

def settleLoop (p : GridPen) (m : OpenMerge) : Part GridPen :=
  if m.written then pure p
  else do
    let p ← padLoop m.column p
    pure (p.put m.span RowCell.continueWord true)

/-- The merges that have a row to go after this one. -/
def retainLoop : List OpenMerge → Part (List OpenMerge)
  | [] => pure []
  | m :: ms => do
    let left ← minus m.rowsLeft 1
    let rest ← retainLoop ms
    pure (if 0 < left then { m with rowsLeft := left, written := false } :: rest else rest)

def closeLoop (p : GridPen) : Part GridPen := do
  let merges := sortByColumn p.merges
  let q ← merges.foldlM settleLoop p
  let retained ← retainLoop merges
  pure { p with
    cursor := 0
    row := []
    above := q.row
    merges := retained ++ p.started
    started := []
    rows := if q.row.isEmpty then p.rows else p.rows ++ [q.row] }

def roomLoop (span : Nat) : GridPen →. GridPen :=
  PFun.fix fun p => do
    let p ← dueLoop p
    if 0 < p.cursor ∧ p.columns < Count.add p.cursor span then do
      let p ← closeLoop p
      pure (.inr p)
    else pure (.inl p)

def pushLoop (p : GridPen) (c : Cell) : Part GridPen := do
  let span := max c.columnSpan 1
  let p ← roomLoop span p
  let started ← if 1 < c.rowSpan then do
      let left ← minus c.rowSpan 1
      pure [⟨p.cursor, span, left, false⟩]
    else pure []
  pure ({ p with started := p.started ++ started }.put span (cellText c.kind) c.kind.isContent)

def closeAllLoop : GridPen →. GridPen :=
  PFun.fix fun p =>
    if p.merges = [] then pure (.inl p)
    else do
      let p ← closeLoop p
      pure (.inr p)

/-- The lines of a layout, if every loop ends and every difference exists. -/
def writeLoop (l : Layout) : Part (List Text) := do
  let p ← l.cells.foldlM pushLoop (ofLayout l)
  let p ← closeLoop p
  let p ← closeAllLoop p
  pure (p.rows.map (rowText p.columns))

/-! ## One turn of a loop -/

theorem minus_of_le {a b : Nat} (h : b ≤ a) : minus a b = Part.some (a - b) := Part.eq_some_iff.2 ⟨h, rfl⟩

theorem fix_of_inl {α β : Type} {f : α →. β ⊕ α} {a : α} {b : β} (h : f a = Part.some (.inl b)) : f.fix a = Part.some b :=
  Part.eq_some_iff.2 (PFun.fix_stop (h ▸ Part.mem_some _))

theorem fix_of_inr {α β : Type} {f : α →. β ⊕ α} {a b : α} (h : f a = Part.some (.inr b)) : f.fix a = f.fix b :=
  PFun.fix_fwd_eq (h ▸ Part.mem_some _)

theorem dueLoop_eq (p : GridPen) : dueLoop p = Part.some p.putDue := by
  fun_induction GridPen.putDue p with
  | case1 p m merges h ih =>
    rw [← ih]
    exact fix_of_inr (by rw [h]; rfl)
  | case2 p h => exact fix_of_inl (by rw [h]; rfl)

theorem coverLoop_eq (column : Nat) : ∀ row : List PenCell,
    coverLoop column row = Part.some (row.find? fun c => c.start ≤ column && column - c.start < c.span)
  | [] => rfl
  | c :: cs => by
    have ih := coverLoop_eq column cs
    by_cases hstart : c.start ≤ column
    · by_cases hspan : column - c.start < c.span
      · simp [coverLoop, hstart, minus_of_le hstart, hspan]
      · simp [coverLoop, hstart, minus_of_le hstart, hspan, ih]
    · simp [coverLoop, hstart, ih]

theorem spanAbove?_eq (above : List PenCell) (column : Nat) : spanAbove? above column =
    ((above.find? fun c => c.start ≤ column && column - c.start < c.span).filter PenCell.absorbs).map PenCell.span := by
  rw [spanAbove?]
  split
  · next c hc =>
    rw [hc, Option.filter]
    split <;> simp_all
  · next hc => rw [hc]; rfl

/-! ## Padding -/

def fill (above : List PenCell) (cursor gap : Nat) : Nat × Text :=
  if spanAbove? above cursor = some gap then
    if gap = 1 then (1, RowCell.spaceWord) else (gap - 1, RowCell.continueWord)
  else (gap, RowCell.continueWord)

theorem filler_zero (above : List PenCell) (cursor : Nat) : filler above cursor 0 = [] := by rw [filler, if_pos rfl]

theorem fill_pos (above : List PenCell) (cursor : Nat) {gap : Nat} (h : 0 < gap) : 0 < (fill above cursor gap).1 := by
  unfold fill
  split_ifs
  · exact Nat.one_pos
  · show 0 < gap - 1
    omega
  · exact h

theorem fill_le (above : List PenCell) (cursor : Nat) {gap : Nat} (h : 0 < gap) : (fill above cursor gap).1 ≤ gap := by
  unfold fill
  split_ifs
  · exact h
  · exact Nat.sub_le _ _
  · exact Nat.le_refl _

theorem filler_eq_cons (above : List PenCell) (cursor : Nat) {gap : Nat} (h : 0 < gap) :
    filler above cursor gap = fill above cursor gap ::
      filler above (cursor + (fill above cursor gap).1) (gap - (fill above cursor gap).1) := by
  rw [filler, if_neg (by omega), fill]
  split_ifs with habove hone
  · rw [hone, Nat.sub_self, filler_zero]
  · have hrest : gap - (gap - 1) = 1 := by omega
    rw [hrest]
  · rw [Nat.sub_self, filler_zero]

variable {p : GridPen} {column : Nat}

theorem padTo_put (hceiling : column ≤ Count.ceiling) (hlt : p.cursor < column) {f : Nat × Text}
    (hf : f = fill p.above p.cursor (column - p.cursor)) : (p.put f.1 f.2 false).padTo column = p.padTo column := by
  have hgap : 0 < column - p.cursor := by omega
  have hle := fill_le p.above p.cursor hgap
  rw [← hf] at hle
  have hcursor : (p.put f.1 f.2 false).cursor = p.cursor + f.1 := add_eq (by omega)
  rw [padTo, hcursor, padTo, filler_eq_cons p.above p.cursor hgap, ← hf, List.foldl_cons, Nat.sub_add_eq]
  rfl

theorem padLoop_put (hlt : p.cursor < column) {f : Nat × Text} (hf : f = fill p.above p.cursor (column - p.cursor)) :
    padLoop column p = padLoop column (p.put f.1 f.2 false) := by
  have hgap : 1 ≤ column - p.cursor := by omega
  refine fix_of_inr ?_
  simp only [hlt, minus_of_le (Nat.le_of_lt hlt), coverLoop_eq, ← spanAbove?_eq, if_true, Part.bind_eq_bind, Part.bind_some]
  rw [hf, fill]
  split_ifs
  · rfl
  · rw [minus_of_le hgap, Part.bind_some]
    rfl
  · rfl

theorem padLoop_eq (hceiling : column ≤ Count.ceiling) (p : GridPen) : padLoop column p = Part.some (p.padTo column) := by
  induction hgap : column - p.cursor using Nat.strongRecOn generalizing p with
  | ind gap ih =>
    subst hgap
    by_cases hlt : p.cursor < column
    · have hgap : 0 < column - p.cursor := by omega
      have hpos := fill_pos p.above p.cursor hgap
      have hle := fill_le p.above p.cursor hgap
      rw [padLoop_put hlt rfl, ← padTo_put hceiling hlt rfl]
      refine ih _ ?_ _ rfl
      show column - Count.add p.cursor _ < column - p.cursor
      rw [add_eq (by omega)]
      omega
    · rw [padTo, Nat.sub_eq_zero_of_le (by omega), filler_zero]
      exact fix_of_inl (if_neg hlt)

/-! ## Closing a row -/

/-- What the open merges of a pen have in common: a row to go, and a column that a cursor can have. -/
structure Sound (p : GridPen) : Prop where
  cursor : p.cursor ≤ Count.ceiling
  merges : ∀ m ∈ p.merges, 0 < m.rowsLeft ∧ m.column ≤ Count.ceiling
  started : ∀ m ∈ p.started, 0 < m.rowsLeft ∧ m.column ≤ Count.ceiling

theorem foldlM_settleLoop : ∀ {ms : List OpenMerge} (p : GridPen), (∀ m ∈ ms, m.column ≤ Count.ceiling) →
    ms.foldlM settleLoop p = Part.some (ms.foldl settle p)
  | [], _, _ => rfl
  | m :: ms, p, h => by
    obtain ⟨hm, hms⟩ := List.forall_mem_cons.1 h
    have hsettle : settleLoop p m = Part.some (p.settle m) := by
      rw [settleLoop, settle]
      split_ifs
      · rfl
      · simp [padLoop_eq hm]
    rw [List.foldlM_cons, hsettle, List.foldl_cons]
    simp [foldlM_settleLoop _ hms]

theorem retainLoop_eq : ∀ {ms : List OpenMerge}, (∀ m ∈ ms, 0 < m.rowsLeft) → retainLoop ms = Part.some (ms.filterMap nextRow?)
  | [], _ => rfl
  | m :: ms, h => by
    obtain ⟨hm, hms⟩ := List.forall_mem_cons.1 h
    simp only [retainLoop, minus_of_le (show 1 ≤ m.rowsLeft from hm), retainLoop_eq hms, Part.bind_eq_bind, Part.bind_some]
    by_cases hleft : 1 < m.rowsLeft
    · have hnext : nextRow? m = some { m with rowsLeft := m.rowsLeft - 1, written := false } := if_pos hleft
      rw [if_pos (by omega), List.filterMap_cons_some hnext]
      rfl
    · have hnext : nextRow? m = none := if_neg hleft
      rw [if_neg (by omega), List.filterMap_cons_none hnext]
      rfl

theorem Sound.closeLoop_eq (h : p.Sound) : closeLoop p = Part.some p.closeRow := by
  have hmerges : ∀ m ∈ sortByColumn p.merges, 0 < m.rowsLeft ∧ m.column ≤ Count.ceiling := fun m hm =>
    h.merges m ((perm_sortByColumn p.merges).mem_iff.1 hm)
  rw [closeLoop]
  simp only [foldlM_settleLoop p fun m hm => (hmerges m hm).2, retainLoop_eq fun m hm => (hmerges m hm).1,
    Part.bind_eq_bind, Part.bind_some]
  rfl

/-! ## Open merges stay sound -/

theorem sound_ofLayout (l : Layout) : (ofLayout l).Sound :=
  ⟨Nat.zero_le _, by simp [ofLayout, ofColumns], by simp [ofLayout, ofColumns]⟩

theorem add_le_ceiling (a b : Nat) : Count.add a b ≤ Count.ceiling := Nat.min_le_right _ _

theorem of_mem_takeDue? {ms ms' : List OpenMerge} {m n : OpenMerge} (h : takeDue? column ms = some (m, ms')) (hn : n ∈ ms') :
    ∃ k ∈ ms, n.rowsLeft = k.rowsLeft ∧ n.column = k.column := by
  rcases takeDue?_cases column ms with ⟨as, k, bs, rfl, -, -, htake⟩ | ⟨hnone, -⟩
  · rw [htake] at h
    cases h
    rcases List.mem_append.1 hn with hn | hn
    · exact ⟨n, List.mem_append_left _ hn, rfl, rfl⟩
    · rcases List.mem_cons.1 hn with rfl | hn
      · exact ⟨m, List.mem_append_right _ List.mem_cons_self, rfl, rfl⟩
      · exact ⟨n, List.mem_append_right _ (List.mem_cons_of_mem _ hn), rfl, rfl⟩
  · rw [hnone] at h
    cases h

theorem Sound.putDue (h : p.Sound) : p.putDue.Sound := by
  fun_induction GridPen.putDue p with
  | case1 p m merges hdue ih =>
    refine ih ⟨add_le_ceiling _ _, fun n hn => ?_, h.started⟩
    obtain ⟨k, hk, hleft, hcolumn⟩ := of_mem_takeDue? hdue hn
    rw [hleft, hcolumn]
    exact h.merges k hk
  | case2 p _ => exact h

theorem Sound.closeRow (h : p.Sound) : p.closeRow.Sound := by
  refine ⟨Nat.zero_le _, fun n hn => ?_, fun n hn => absurd hn List.not_mem_nil⟩
  rcases List.mem_append.1 hn with hn | hn
  · obtain ⟨m, hm, hnext⟩ := List.mem_filterMap.1 hn
    have hsound := h.merges m ((perm_sortByColumn p.merges).mem_iff.1 hm)
    unfold nextRow? at hnext
    split at hnext
    · cases hnext
      exact ⟨by simp only; omega, hsound.2⟩
    · cases hnext
  · exact h.started n hn

theorem Sound.makeRoom (h : p.Sound) (span : Nat) : (p.makeRoom span).Sound := by
  fun_induction GridPen.makeRoom p span with
  | case1 p _ ih => exact ih h.putDue.closeRow
  | case2 p _ => exact h.putDue

theorem Sound.putCell (h : p.Sound) (c : Cell) (text : Text) : (p.putCell c text).Sound := by
  have hroom := h.makeRoom (max c.columnSpan 1)
  refine ⟨add_le_ceiling _ _, hroom.merges, fun n hn => ?_⟩
  rcases List.mem_append.1 hn with hn | hn
  · exact hroom.started n hn
  · by_cases hrows : 1 < c.rowSpan
    · rw [if_pos hrows, List.mem_singleton] at hn
      subst hn
      exact ⟨by simp only; omega, hroom.cursor⟩
    · rw [if_neg hrows] at hn
      cases hn

/-! ## The whole run -/

theorem Sound.roomLoop_eq (h : p.Sound) (span : Nat) : roomLoop span p = Part.some (p.makeRoom span) := by
  fun_induction GridPen.makeRoom p span with
  | case1 p hfull ih =>
    rw [← ih h.putDue.closeRow]
    exact fix_of_inr (by simp [dueLoop_eq, hfull, h.putDue.closeLoop_eq])
  | case2 p hfits => exact fix_of_inl (by simp [dueLoop_eq, hfits])

theorem Sound.pushLoop_eq (h : p.Sound) (c : Cell) : pushLoop p c = Part.some (p.write1 c) := by
  rw [pushLoop, write1, GridPen.putCell]
  simp only [h.roomLoop_eq, Part.bind_eq_bind, Part.bind_some]
  by_cases hrows : 1 < c.rowSpan
  · simp [hrows, minus_of_le (Nat.le_of_lt hrows)]
  · simp [hrows]

theorem Sound.foldlM_pushLoop : ∀ (cs : List Cell) {p : GridPen}, p.Sound →
    cs.foldlM pushLoop p = Part.some (cs.foldl write1 p) ∧ (cs.foldl write1 p).Sound
  | [], _, h => ⟨rfl, h⟩
  | c :: cs, p, h => by
    obtain ⟨hrun, hsound⟩ := foldlM_pushLoop cs (h.putCell c (cellText c.kind))
    rw [List.foldlM_cons, h.pushLoop_eq, Part.bind_eq_bind, Part.bind_some]
    exact ⟨hrun, hsound⟩

theorem Sound.closeAllLoop_eq (h : p.Sound) : closeAllLoop p = Part.some p.closeAll := by
  fun_induction GridPen.closeAll p with
  | case1 p hnil => exact fix_of_inl (if_pos hnil)
  | case2 p hne ih =>
    rw [← ih h.closeRow]
    exact fix_of_inr (by simp [hne, h.closeLoop_eq])

theorem columns_closeAll (p : GridPen) : p.closeAll.columns = p.columns := by
  fun_induction GridPen.closeAll p with
  | case1 p _ => rfl
  | case2 p _ ih => exact ih

/-- **Every layout is written**: all loops end, all differences exist, and the lines are those of the pen. -/
theorem writeLoop_eq (l : Layout) : writeLoop l = Part.some (write l).lines := by
  obtain ⟨hrun, hsound⟩ := (sound_ofLayout l).foldlM_pushLoop l.cells
  rw [writeLoop, hrun]
  simp only [Part.bind_eq_bind, Part.bind_some, hsound.closeLoop_eq, hsound.closeRow.closeAllLoop_eq, columns_closeAll]
  rfl

end GridPen
end Gridmark
