import Gridmark.Proofs.Weave
/-!
# PenRun — the rows of a pen that keeps off owed columns

A cell that is written where its row still owes a `continue` pushes this one off the column of its cell.  If no cell is
(`Clear`), the pen writes every `continue` under its cell, so what it writes is woven (`exists_woven_finish`).  The cells
that the rows announce are the ones given to the pen and empty ones besides, which fill gaps that no `continue` can
(`Padded`).
-/
namespace Gridmark

open Stitch

namespace Stitch

variable {N : Nat} {above cur : List Stitch} {x y : Stitch}

/-- Stitches that fill a gap. -/
structure Fills (x : Stitch) : Prop where
  kind : x.kind = .continuation ∨ x.kind = .empty
  absorbs : x.absorbs = false
  below : x.below = 0

theorem Fills.proper (h : x.Fills) : x.Proper := by
  constructor
  · intro hk
    rcases h.kind with hx | hx
    · simp [hx, CellKind.isContinuation] at hk
    · rw [h.absorbs, hx]
      rfl
  · intro hbelow
    rw [h.below] at hbelow
    cases hbelow

theorem follows_nil (N : Nat) (above : List Stitch) : Follows N above [] :=
  ⟨⟨trivial, Nat.zero_le _, by simp⟩, by simp, by simp⟩

theorem Follows.concat (h : Follows N above cur) (hstart : x.start = width cur) (hpos : 0 < x.span)
    (hfit : width cur + x.span ≤ N) (hproper : x.Proper)
    (howed : x.kind = .continuation → x.absorbs = true → ∃ y ∈ above, y.Carries x)
    (hstray : x.kind = .continuation → x.absorbs = false →
      GridPen.spanAbove? (above.map pen) x.start ≠ some x.span) : Follows N above (cur ++ [x]) := by
  have hmem : ∀ {P : Stitch → Prop}, (∀ z ∈ cur, P z) → P x → ∀ z ∈ cur ++ [x], P z := by
    intro P hcur hx z hz
    rcases List.mem_append.1 hz with hz | hz
    · exact hcur z hz
    · rw [List.mem_singleton.1 hz]
      exact hx
  refine ⟨⟨?_, ?_, hmem h.proper hproper⟩, hmem h.owed howed, hmem h.stray hstray⟩
  · refine (laid_append _ _).2 ⟨h.laid, ?_, hpos, trivial⟩
    rw [Nat.zero_add, hstart]
  · simpa using hfit

end Stitch

namespace GridPen

open OpenMerge

/-- The pen stands behind some stitches of a row. -/
structure Drawn (N : Nat) (p : GridPen) (above cur : List Stitch) : Prop where
  columns : p.columns = N
  under : p.above = above.map pen
  row : p.row = cur.map pen
  cursor : p.cursor = width cur
  follows : Follows N above cur

/-- A merge owes its rows to a stitch of the row above. -/
def Owes (above : List Stitch) (m : OpenMerge) : Prop :=
  ∃ y ∈ above, y.start = m.column ∧ y.span = m.span ∧ y.below = m.rowsLeft ∧ 0 < y.below

def due (m : OpenMerge) : Stitch := ⟨m.column, m.span, .continuation, true, m.rowsLeft - 1⟩

variable {N : Nat} {p : GridPen} {above cur : List Stitch} {x : Stitch} {m : OpenMerge}

theorem proper_due (m : OpenMerge) : (due m).Proper := ⟨fun hk => (by cases hk), fun _ => rfl⟩

theorem Drawn.put (h : Drawn N p above cur) (hN : N ≤ Count.ceiling) (hx : Follows N above (cur ++ [x]))
    (hstart : x.start = p.cursor) : Drawn N (p.put x.span (cellText x.kind) x.absorbs) above (cur ++ [x]) := by
  have hfit := hx.width_le
  rw [width_append, width_cons, width_nil, Nat.add_zero] at hfit
  refine ⟨h.columns, h.under, ?_, ?_, hx⟩
  · show p.row ++ [_] = _
    rw [h.row, List.map_append, ← hstart]
    rfl
  · show Count.add p.cursor x.span = _
    rw [h.cursor, add_eq (Nat.le_trans hfit hN), width_append, width_cons, width_nil, Nat.add_zero]

/-- A piece of filling that cannot merge. -/
theorem Drawn.put_fill (h : Drawn N p above cur) (hN : N ≤ Count.ceiling) {span : Nat} {k : CellKind} (hpos : 0 < span)
    (hfit : width cur + span ≤ N) (hk : k = .continuation ∨ k = .empty)
    (hstray : k = .continuation → spanAbove? p.above p.cursor ≠ some span) :
    Drawn N (p.put span (cellText k) false) above (cur ++ [⟨p.cursor, span, k, false, 0⟩]) := by
  have hfills : Fills ⟨p.cursor, span, k, false, 0⟩ := ⟨hk, rfl, rfl⟩
  refine h.put hN (x := ⟨p.cursor, span, k, false, 0⟩) (h.follows.concat h.cursor hpos hfit hfills.proper ?_ ?_) rfl
  · exact fun _ habs => by cases habs
  · exact fun hc _ => h.under ▸ hstray hc

/-- **Filling a gap** catches nothing. -/
theorem Drawn.foldl_filler (hN : N ≤ Count.ceiling) (gap : Nat) : ∀ {p : GridPen} {cur : List Stitch},
    Drawn N p above cur → width cur + gap ≤ N →
    ∃ ext, Drawn N ((filler p.above p.cursor gap).foldl (fun p f => p.put f.1 f.2 false) p) above (cur ++ ext) ∧
      width ext = gap ∧ ∀ x ∈ ext, x.Fills := by
  induction gap using Nat.strongRecOn with
  | ind gap ih =>
    intro p cur h hfit
    rw [filler]
    by_cases h0 : gap = 0
    · rw [if_pos h0]
      exact ⟨[], by rwa [List.append_nil], h0.symm, by simp⟩
    · rw [if_neg h0]
      by_cases hspan : spanAbove? p.above p.cursor = some gap
      · rw [if_pos hspan]
        by_cases h1 : gap = 1
        · rw [if_pos h1]
          subst h1
          refine ⟨_, h.put_fill hN (k := .empty) Nat.one_pos hfit (.inr rfl) (fun hc => by cases hc), by simp, ?_⟩
          simpa using ⟨.inr rfl, rfl, rfl⟩
        · -- one column short it cannot merge, and the column left over is filled the same way
          rw [if_neg h1, List.foldl_cons]
          have hput := h.put_fill hN (show 0 < gap - 1 by omega) (by omega) (.inl rfl) fun _ he => by
            have := Option.some.inj (hspan.symm.trans he)
            omega
          have hcursor : (p.put (gap - 1) (cellText .continuation) false).cursor = p.cursor + (gap - 1) := by
            rw [hput.cursor, width_append, h.cursor]
            rfl
          obtain ⟨ext, hext, hwidth, hfills⟩ := ih 1 (by omega) hput (by
            simp only [width_append, width_cons, width_nil]
            omega)
          rw [hcursor, List.append_assoc] at hext
          refine ⟨_, hext, ?_, List.forall_mem_cons.2 ⟨⟨.inl rfl, rfl, rfl⟩, hfills⟩⟩
          simp only [List.singleton_append, width_cons, hwidth]
          omega
      · rw [if_neg hspan]
        refine ⟨_, h.put_fill hN (Nat.pos_of_ne_zero h0) hfit (.inl rfl) fun _ => hspan, by simp, ?_⟩
        simpa using ⟨.inl rfl, rfl, rfl⟩

theorem Drawn.padTo (h : Drawn N p above cur) (hN : N ≤ Count.ceiling) {column : Nat} (hle : p.cursor ≤ column)
    (hcolumn : column ≤ N) : ∃ ext, Drawn N (p.padTo column) above (cur ++ ext) ∧ width (cur ++ ext) = column ∧
      ∀ x ∈ ext, x.Fills := by
  have hcursor := h.cursor
  obtain ⟨ext, hext, hwidth, hfills⟩ := h.foldl_filler hN (column - p.cursor) (by omega)
  refine ⟨ext, hext, ?_, hfills⟩
  rw [width_append, hwidth]
  omega

/-! ## What is owed -/

section Owed

variable (habove : Row N above)
include habove

theorem Owes.bounds (h : Owes above m) : 0 < m.span ∧ m.column + m.span ≤ N := by
  obtain ⟨y, hy, hstart, hspan, -⟩ := h
  have hbounds := habove.laid.bounds hy
  have hwidth := habove.width_le
  omega

theorem Owes.apart {n : OpenMerge} (hm : Owes above m) (hn : Owes above n) (hlt : m.column < n.column) :
    m.column + m.span ≤ n.column := by
  obtain ⟨y, hy, hstart, hspan, -⟩ := hm
  obtain ⟨z, hz, hzstart, -⟩ := hn
  have hpos := (habove.laid.bounds hz).2.1
  by_contra hshare
  obtain rfl := habove.laid.eq_of_shared hy hz (by omega) (by omega)
  omega

/-- **A `continue` that is owed** is written at its column. -/
theorem Drawn.put_due (h : Drawn N p above cur) (hN : N ≤ Count.ceiling) (hm : Owes above m) (hcolumn : p.cursor = m.column) :
    Drawn N (p.put m.span RowCell.continueWord true) above (cur ++ [due m]) := by
  have hbounds := hm.bounds habove
  obtain ⟨y, hy, hstart, hspan, hbelow, hpos⟩ := hm
  have hcursor := h.cursor
  refine h.put hN (x := due m) (h.follows.concat (hcolumn.symm.trans h.cursor) ?_ ?_ (proper_due m) ?_ ?_) hcolumn.symm
  · exact hbounds.1
  · show width cur + m.span ≤ N
    omega
  · intro _ _
    refine ⟨y, hy, hstart, hspan, (habove.proper y hy).of_below hpos, ?_⟩
    show y.below = m.rowsLeft - 1 + 1
    omega
  · exact fun _ habs => by cases habs

/-- **What the row still owes** is written in column order, with the gaps filled. -/
theorem Drawn.foldl_settle (hN : N ≤ Count.ceiling) : ∀ {ms : List OpenMerge} {p : GridPen} {cur : List Stitch},
    Drawn N p above cur → ms.Pairwise (fun a b => a.column < b.column) → (∀ m ∈ ms, Owes above m) →
    (∀ m ∈ ms, m.written = false → p.cursor ≤ m.column) →
    ∃ ext, Drawn N (ms.foldl settle p) above (cur ++ ext) ∧ (∀ m ∈ ms, m.written = false → due m ∈ ext) ∧
      ∀ x ∈ ext, x.Fills ∨ ∃ m, x = due m
  | [], p, cur, h, _, _, _ => ⟨[], by rwa [List.append_nil], by simp, by simp⟩
  | m :: ms, p, cur, h, hsort, howes, hopen => by
    obtain ⟨hm, hsort⟩ := List.pairwise_cons.1 hsort
    obtain ⟨hmowes, howes⟩ := List.forall_mem_cons.1 howes
    rw [List.foldl_cons]
    cases hw : m.written with
    | true =>
      have hsettle : settle p m = p := by rw [settle, if_pos hw]
      rw [hsettle]
      obtain ⟨ext, hext, hdue, hcases⟩ := Drawn.foldl_settle hN h hsort howes fun n hn => hopen n (List.mem_cons_of_mem _ hn)
      refine ⟨ext, hext, fun n hn hnw => ?_, hcases⟩
      rcases List.mem_cons.1 hn with rfl | hn
      · rw [hw] at hnw
        cases hnw
      · exact hdue n hn hnw
    | false =>
      have hsettle : settle p m = (p.padTo m.column).put m.span RowCell.continueWord true := by
        rw [settle, hw, if_neg Bool.false_ne_true]
      have hbounds := hmowes.bounds habove
      obtain ⟨pad, hpad, hpadw, hfills⟩ := h.padTo hN (hopen m List.mem_cons_self hw) (by omega)
      have hput := hpad.put_due habove hN hmowes (hpad.cursor.trans hpadw)
      rw [hsettle]
      obtain ⟨ext, hext, hdue, hcases⟩ := Drawn.foldl_settle hN hput hsort howes (by
        intro n hn _
        have hapart := hmowes.apart habove (howes n hn) (hm n hn)
        rw [hput.cursor, width_append, hpadw, width_cons, width_nil]
        exact hapart)
      refine ⟨pad ++ [due m] ++ ext, by simpa using hext, fun n hn hnw => ?_, fun x hx => ?_⟩
      · rcases List.mem_cons.1 hn with rfl | hn
        · simp
        · exact List.mem_append_right _ (hdue n hn hnw)
      · rcases List.mem_append.1 hx with hx | hx
        · rcases List.mem_append.1 hx with hx | hx
          · exact .inl (hfills x hx)
          · exact .inr ⟨m, List.mem_singleton.1 hx⟩
        · exact hcases x hx

end Owed

/-! ## The state of the pen -/

/-- The merge that a stitch with a new cell starts. -/
def starting? (x : Stitch) : Option OpenMerge :=
  if x.kind.isContinuation = false ∧ 0 < x.below then some ⟨x.start, x.span, x.below, false⟩ else none

/-- The cells that stitches announce. -/
def listing (xs : List Stitch) : List Cell := (xs.map whole).filter fun c => !c.kind.isContinuation

/-- The cells, with empty ones in between. -/
structure Padded (cs ds : List Cell) : Prop where
  sublist : cs.Sublist ds
  filter_eq : ds.filter (fun c => c.kind ≠ .empty) = cs.filter (fun c => c.kind ≠ .empty)

/-- The pen has written woven rows and stands behind some stitches of the next row.  It owes what the last row announces, a
merge for each cell that goes on, and has been given the cells that its stitches announce but for some empty ones. -/
structure Midrow (N : Nat) (p : GridPen) (cs : List Cell) (rows : List (List Stitch)) (cur : List Stitch) : Prop where
  chain : ([] :: rows).IsChain (Woven N)
  ne_nil : ∀ row ∈ rows, row ≠ []
  closed : p.rows = rows.map fun row => row.map pen
  drawn : Drawn N p (rows.getLast?.getD []) cur
  owes : ∀ m ∈ p.merges, Owes (rows.getLast?.getD []) m
  written : ∀ m ∈ p.merges, m.written = true → ∃ x ∈ cur, x.kind = .continuation ∧ x.absorbs = true ∧ x.start = m.column
  unwritten : ∀ m ∈ p.merges, m.written = false → p.cursor ≤ m.column
  goes : ∀ y ∈ rows.getLast?.getD [], 0 < y.below → ∃ m ∈ p.merges, m.column = y.start
  nodup : (p.merges.map OpenMerge.column).Nodup
  started : p.started = cur.filterMap starting?
  padded : Padded cs (listing (rows.flatten ++ cur))

variable {cs : List Cell} {rows : List (List Stitch)}

theorem row_of_isChain : ∀ {rows : List (List Stitch)} {above : List Stitch}, (above :: rows).IsChain (Woven N) →
    ∀ row ∈ rows, Row N row
  | [], _, _, _, hrow => by cases hrow
  | row :: rows, _, h, row', hrow' => by
    obtain ⟨hw, h⟩ := List.isChain_cons_cons.1 h
    rcases List.mem_cons.1 hrow' with rfl | hrow'
    · exact hw.toRow
    · exact row_of_isChain h row' hrow'

theorem Midrow.row_above (h : Midrow N p cs rows cur) : Row N (rows.getLast?.getD []) := by
  cases hl : rows.getLast? with
  | none => exact ⟨trivial, Nat.zero_le _, by simp⟩
  | some row => exact row_of_isChain h.chain row (List.mem_of_getLast? hl)

@[simp] theorem listing_append (xs ys : List Stitch) : listing (xs ++ ys) = listing xs ++ listing ys := by
  simp [listing]

theorem listing_due (m : OpenMerge) : listing [due m] = [] := rfl

theorem Padded.append_empty {cs ds es : List Cell} (h : Padded cs ds) (hes : ∀ c ∈ es, c.kind = .empty) :
    Padded cs (ds ++ es) := by
  refine ⟨h.sublist.trans (List.sublist_append_left _ _), ?_⟩
  have hnil : es.filter (fun c => c.kind ≠ .empty) = [] := List.filter_eq_nil_iff.2 fun c hc => by simp [hes c hc]
  rw [List.filter_append, hnil, List.append_nil, h.filter_eq]

theorem Padded.concat {cs ds : List Cell} (h : Padded cs ds) (c : Cell) : Padded (cs ++ [c]) (ds ++ [c]) :=
  ⟨h.sublist.append (List.Sublist.refl _), by rw [List.filter_append, List.filter_append, h.filter_eq]⟩

/-- A merge that is taken is marked as written, and all others stay as they are. -/
theorem mem_takeDue {column : Nat} {ms ms' : List OpenMerge} (hnodup : (ms.map OpenMerge.column).Nodup)
    (h : takeDue? column ms = some (m, ms')) : m ∈ ms ∧ m.column = column ∧
      ms'.map OpenMerge.column = ms.map OpenMerge.column ∧
      ∀ k ∈ ms', k = { m with written := true } ∨ k ∈ ms ∧ k.column ≠ m.column := by
  rcases takeDue?_cases column ms with ⟨as, n, bs, rfl, -, hcolumn, htake⟩ | ⟨hnone, -⟩
  · rw [h] at htake
    obtain ⟨rfl, rfl⟩ := Prod.mk.inj (Option.some.inj htake)
    rw [List.map_append, List.map_cons, List.nodup_middle, ← List.map_append] at hnodup
    have hne := (List.nodup_cons.1 hnodup).1
    refine ⟨List.mem_append_right _ List.mem_cons_self, hcolumn, by simp, fun k hk => ?_⟩
    rcases List.mem_cons.1 (List.perm_middle.mem_iff.1 hk) with rfl | hk
    · exact .inl rfl
    · refine .inr ⟨List.perm_middle.mem_iff.2 (List.mem_cons_of_mem _ hk), fun he => hne ?_⟩
      exact he ▸ List.mem_map_of_mem hk
  · rw [h] at hnone
    cases hnone

theorem Midrow.put_due (hN : N ≤ Count.ceiling) (h : Midrow N p cs rows cur) {merges : List OpenMerge}
    (htake : takeDue? p.cursor p.merges = some (m, merges)) :
    Midrow N (GridPen.put { p with merges := merges } m.span RowCell.continueWord true) cs rows (cur ++ [due m]) := by
  obtain ⟨hm, hcolumn, hcolumns, hcases⟩ := mem_takeDue h.nodup htake
  have hdrawn : Drawn N { p with merges := merges } (rows.getLast?.getD []) cur :=
    ⟨h.drawn.columns, h.drawn.under, h.drawn.row, h.drawn.cursor, h.drawn.follows⟩
  have hput := hdrawn.put_due h.row_above hN (h.owes m hm) hcolumn.symm
  refine ⟨h.chain, h.ne_nil, h.closed, hput, fun k hk => ?_, fun k hk hw => ?_, fun k hk hw => ?_,
    fun z hz hpos => ?_, hcolumns ▸ h.nodup, ?_, ?_⟩
  · rcases hcases k hk with rfl | ⟨hk, -⟩
    · exact h.owes m hm
    · exact h.owes k hk
  · rcases hcases k hk with rfl | ⟨hk, -⟩
    · exact ⟨due m, by simp, rfl, rfl, rfl⟩
    · obtain ⟨x, hx, hxk⟩ := h.written k hk hw
      exact ⟨x, List.mem_append_left _ hx, hxk⟩
  · rcases hcases k hk with rfl | ⟨hk, hne⟩
    · cases hw
    · have hle := h.unwritten k hk hw
      have hapart := (h.owes m hm).apart h.row_above (h.owes k hk) (by omega)
      rw [hput.cursor, width_append, ← hdrawn.cursor]
      show p.cursor + (m.span + 0) ≤ k.column
      omega
  · obtain ⟨k, hk, hkz⟩ := h.goes z hz hpos
    obtain ⟨k', hk', hcol⟩ := List.mem_map.1 (hcolumns.symm ▸ List.mem_map_of_mem hk)
    exact ⟨k', hk', hcol.trans hkz⟩
  · show p.started = _
    rw [List.filterMap_append, h.started]
    exact (List.append_nil _).symm
  · rw [← List.append_assoc, listing_append, listing_due, List.append_nil]
    exact h.padded

/-- **What is due at the cursor** is written. -/
theorem Midrow.putDue (hN : N ≤ Count.ceiling) (h : Midrow N p cs rows cur) :
    ∃ ext, Midrow N p.putDue cs rows (cur ++ ext) := by
  fun_induction GridPen.putDue p generalizing cur with
  | case1 p m merges htake ih =>
    obtain ⟨ext, hext⟩ := ih (h.put_due hN htake)
    exact ⟨[due m] ++ ext, by rwa [← List.append_assoc]⟩
  | case2 p _ => exact ⟨[], by rwa [List.append_nil]⟩

/-! ## Closing a row -/

theorem pairwise_sortByColumn_lt {ms : List OpenMerge} (h : (ms.map OpenMerge.column).Nodup) :
    (sortByColumn ms).Pairwise fun a b => a.column < b.column := by
  have hnodup : ((sortByColumn ms).map OpenMerge.column).Nodup :=
    ((perm_sortByColumn ms).map OpenMerge.column).nodup_iff.2 h
  refine ((pairwise_sortByColumn ms).and (List.pairwise_map.1 hnodup)).imp fun {a b} hab => ?_
  exact Nat.lt_of_le_of_ne hab.1 hab.2

theorem listing_fills {ext : List Stitch} (h : ∀ x ∈ ext, x.Fills ∨ ∃ m, x = due m) : ∀ c ∈ listing ext, c.kind = .empty := by
  intro c hc
  obtain ⟨hc, hk⟩ := List.mem_filter.1 hc
  obtain ⟨x, hx, rfl⟩ := List.mem_map.1 hc
  rcases h x hx with hfills | ⟨m, rfl⟩
  · rcases hfills.kind with hkind | hkind
    · simp [whole, hkind, CellKind.isContinuation] at hk
    · exact hkind
  · cases hk

theorem of_starting? {y : OpenMerge} (h : starting? x = some y) : x.kind.isContinuation = false ∧ y.column = x.start ∧
    y.span = x.span ∧ y.rowsLeft = x.below ∧ 0 < x.below ∧ y.written = false := by
  unfold starting? at h
  split at h
  · rename_i hx
    cases h
    exact ⟨hx.1, rfl, rfl, rfl, hx.2, rfl⟩
  · cases h

theorem of_nextRow? {n : OpenMerge} (h : nextRow? m = some n) : 1 < m.rowsLeft ∧ n.column = m.column ∧ n.span = m.span ∧
    n.rowsLeft = m.rowsLeft - 1 ∧ n.written = false := by
  unfold nextRow? at h
  split at h
  · rename_i hm
    cases h
    exact ⟨hm, rfl, rfl, rfl, rfl⟩
  · cases h

/-- The row goes on with the merge. -/
def Pays (row : List Stitch) (m : OpenMerge) : Prop :=
  ∃ x ∈ row, x.kind = .continuation ∧ x.absorbs = true ∧ x.start = m.column ∧ x.span = m.span ∧ m.rowsLeft = x.below + 1

/-- The stitches that a row gets when it is closed. -/
structure Settles (N : Nat) (p : GridPen) (above cur ext : List Stitch) : Prop where
  drawn : Drawn N ((sortByColumn p.merges).foldl settle p) above (cur ++ ext)
  pays : ∀ m ∈ p.merges, Pays (cur ++ ext) m
  rest : ∀ x ∈ ext, x.Fills ∨ ∃ m, x = due m

theorem Midrow.exists_settles (hN : N ≤ Count.ceiling) (h : Midrow N p cs rows cur) :
    ∃ ext, Settles N p (rows.getLast?.getD []) cur ext := by
  have hperm := perm_sortByColumn p.merges
  obtain ⟨ext, hext, hdue, hcases⟩ := h.drawn.foldl_settle h.row_above hN (pairwise_sortByColumn_lt h.nodup)
    (fun m hm => h.owes m (hperm.mem_iff.1 hm)) (fun m hm => h.unwritten m (hperm.mem_iff.1 hm))
  refine ⟨ext, hext, fun m hm => ?_, hcases⟩
  have howed : ∃ x ∈ cur ++ ext, x.kind = .continuation ∧ x.absorbs = true ∧ x.start = m.column := by
    cases hw : m.written with
    | true =>
      obtain ⟨x, hx, hxk⟩ := h.written m hm hw
      exact ⟨x, List.mem_append_left _ hx, hxk⟩
    | false => exact ⟨due m, List.mem_append_right _ (hdue m (hperm.mem_iff.2 hm) hw), rfl, rfl, rfl⟩
  -- what the merge has left is what its `continue` announces
  obtain ⟨x, hx, hxk, habs, hstart⟩ := howed
  obtain ⟨y, hy, hcarry⟩ := hext.follows.owed x hx hxk habs
  obtain ⟨z, hz, hzstart, hzspan, hzbelow, -⟩ := h.owes m hm
  obtain rfl := h.row_above.laid.eq_of_start hy hz (by rw [hcarry.start, hstart, hzstart])
  exact ⟨x, hx, hxk, habs, hstart, hcarry.span.symm.trans hzspan, hzbelow.symm.trans hcarry.below⟩

section Closing

variable {ext : List Stitch} (h : Midrow N p cs rows cur) (hs : Settles N p (rows.getLast?.getD []) cur ext)
include h

theorem Midrow.merges_closeRow :
    p.closeRow.merges = (sortByColumn p.merges).filterMap nextRow? ++ cur.filterMap starting? := by
  rw [← h.started]
  rfl

include hs

theorem Midrow.woven : Woven N (rows.getLast?.getD []) (cur ++ ext) := by
  refine ⟨hs.drawn.follows, fun y hy hpos => ?_⟩
  obtain ⟨m, hm, hcolumn⟩ := h.goes y hy hpos
  obtain ⟨x, hx, hxk, habs, hstart, -⟩ := hs.pays m hm
  exact ⟨x, hx, hxk, habs, hstart.trans hcolumn⟩

/-- What the pen owes to the next row has been announced. -/
theorem Midrow.owes_closeRow {n : OpenMerge} (hn : n ∈ p.closeRow.merges) : n.written = false ∧ Owes (cur ++ ext) n := by
  rw [h.merges_closeRow] at hn
  rcases List.mem_append.1 hn with hn | hn
  · obtain ⟨m, hm, hnext⟩ := List.mem_filterMap.1 hn
    obtain ⟨hlt, hcolumn, hspan, hleft, hwritten⟩ := of_nextRow? hnext
    obtain ⟨x, hx, -, -, hstart, hxspan, hrows⟩ := hs.pays m ((perm_sortByColumn _).mem_iff.1 hm)
    exact ⟨hwritten, x, hx, hstart.trans hcolumn.symm, hxspan.trans hspan.symm, by omega, by omega⟩
  · obtain ⟨x, hx, hstart⟩ := List.mem_filterMap.1 hn
    obtain ⟨-, hcolumn, hspan, hleft, hpos, hwritten⟩ := of_starting? hstart
    exact ⟨hwritten, x, List.mem_append_left _ hx, hcolumn.symm, hspan.symm, hleft.symm, hpos⟩

/-- What has been announced is owed to the next row. -/
theorem Midrow.goes_closeRow {x : Stitch} (hx : x ∈ cur ++ ext) (hpos : 0 < x.below) :
    ∃ m ∈ p.closeRow.merges, m.column = x.start := by
  have hfollows := hs.drawn.follows
  rw [h.merges_closeRow]
  cases hk : x.kind.isContinuation with
  | true =>
    have hxk : x.kind = .continuation := by cases hkind : x.kind <;> simp_all [CellKind.isContinuation]
    have habs := (hfollows.proper x hx).of_below hpos
    obtain ⟨y, hy, hcarry⟩ := hfollows.owed x hx hxk habs
    obtain ⟨m, hm, hcolumn⟩ := h.goes y hy (by rw [hcarry.below]; exact Nat.succ_pos _)
    obtain ⟨z, hz, -, -, hstart, -, hrows⟩ := hs.pays m hm
    obtain rfl := hfollows.laid.eq_of_start hx hz (by rw [hstart, hcolumn, hcarry.start])
    have hnext : nextRow? m = some { m with rowsLeft := m.rowsLeft - 1, written := false } := if_pos (by omega)
    have hm := (perm_sortByColumn _).mem_iff.2 hm
    exact ⟨_, List.mem_append_left _ (List.mem_filterMap.2 ⟨m, hm, hnext⟩), hstart.symm⟩
  | false =>
    have hstart : starting? x = some ⟨x.start, x.span, x.below, false⟩ := if_pos ⟨hk, hpos⟩
    rcases List.mem_append.1 hx with hx | hx
    · exact ⟨_, List.mem_append_right _ (List.mem_filterMap.2 ⟨x, hx, hstart⟩), rfl⟩
    · rcases hs.rest x hx with hfills | ⟨m, rfl⟩
      · rw [hfills.below] at hpos
        cases hpos
      · cases hk

theorem Midrow.nodup_closeRow : (p.closeRow.merges.map OpenMerge.column).Nodup := by
  have hfollows := hs.drawn.follows
  rw [h.merges_closeRow]
  refine List.pairwise_map.2 (List.pairwise_append.2 ⟨?_, ?_, fun n hn n' hn' => ?_⟩)
  · refine List.pairwise_filterMap.2 ((pairwise_sortByColumn_lt h.nodup).imp fun {a b} hab n hn n' hn' => ?_)
    rw [(of_nextRow? hn).2.1, (of_nextRow? hn').2.1]
    exact Nat.ne_of_lt hab
  · refine List.pairwise_filterMap.2 (h.drawn.follows.laid.pairwise.imp_of_mem fun {x y} hx _ hxy n hn n' hn' => ?_)
    have hpos := (h.drawn.follows.laid.bounds hx).2.1
    rw [(of_starting? hn).2.1, (of_starting? hn').2.1]
    omega
  · -- the one stands under a cell that goes on, the other at a new cell
    obtain ⟨m, hm, hnext⟩ := List.mem_filterMap.1 hn
    obtain ⟨y, hy, hstart⟩ := List.mem_filterMap.1 hn'
    obtain ⟨x, hx, hxk, -, hxstart, -⟩ := hs.pays m ((perm_sortByColumn _).mem_iff.1 hm)
    obtain ⟨hyk, hcolumn, -⟩ := of_starting? hstart
    intro he
    rw [(of_nextRow? hnext).2.1, hcolumn, ← hxstart] at he
    obtain rfl := hfollows.laid.eq_of_start hx (List.mem_append_left _ hy) he
    rw [hxk] at hyk
    cases hyk

end Closing

/-- **A row is closed** with all that it owes, and what it announces is owed. -/
theorem Midrow.closeRow (hN : N ≤ Count.ceiling) (h : Midrow N p cs rows cur) (hne : cur ≠ [] ∨ p.merges ≠ []) :
    ∃ row, Midrow N p.closeRow cs (rows ++ [row]) [] := by
  obtain ⟨ext, hs⟩ := h.exists_settles hN
  have hrow : cur ++ ext ≠ [] := by
    rcases hne with hcur | hmerges
    · simp [hcur]
    · obtain ⟨m, hm⟩ := List.exists_mem_of_ne_nil _ hmerges
      obtain ⟨x, hx, -⟩ := hs.pays m hm
      exact List.ne_nil_of_mem hx
  have hlast : (rows ++ [cur ++ ext]).getLast?.getD [] = cur ++ ext := by simp
  refine ⟨cur ++ ext, ?_, ?_, ?_, ?_, fun m hm => ?_, fun m hm hw => ?_, fun m _ _ => Nat.zero_le _, ?_,
    h.nodup_closeRow hs, rfl, ?_⟩
  · refine List.isChain_append.2 ⟨h.chain, .singleton _, fun above ha row hr => ?_⟩
    rw [List.getLast?_cons, Option.mem_some_iff] at ha
    rw [List.head?_cons, Option.mem_some_iff] at hr
    rw [← ha, ← hr]
    exact h.woven hs
  · intro row hr
    rcases List.mem_append.1 hr with hr | hr
    · exact h.ne_nil row hr
    · rw [List.mem_singleton.1 hr]
      exact hrow
  · show (if ((sortByColumn p.merges).foldl settle p).row.isEmpty then p.rows
      else p.rows ++ [((sortByColumn p.merges).foldl settle p).row]) = _
    rw [hs.drawn.row, if_neg (by simpa using hrow), h.closed]
    simp
  · rw [hlast]
    exact ⟨h.drawn.columns, hs.drawn.row, rfl, rfl, follows_nil N _⟩
  · rw [hlast]
    exact (h.owes_closeRow hs hm).2
  · rw [(h.owes_closeRow hs hm).1] at hw
    cases hw
  · rw [hlast]
    exact fun x hx hpos => h.goes_closeRow hs hx hpos
  · have hflat : (rows ++ [cur ++ ext]).flatten ++ [] = rows.flatten ++ cur ++ ext := by simp
    rw [hflat, listing_append]
    exact h.padded.append_empty (listing_fills hs.rest)

/-! ## Cell by cell -/

theorem Midrow.makeRoom (hN : N ≤ Count.ceiling) (span : Nat) (h : Midrow N p cs rows cur) :
    ∃ rows cur, Midrow N (p.makeRoom span) cs rows cur := by
  fun_induction GridPen.makeRoom p span generalizing rows cur with
  | case2 p _ =>
    obtain ⟨ext, hext⟩ := h.putDue hN
    exact ⟨rows, _, hext⟩
  | case1 p hfull ih =>
    obtain ⟨ext, hext⟩ := h.putDue hN
    have hne : cur ++ ext ≠ [] := by
      intro hnil
      have hcursor := hext.drawn.cursor
      rw [hnil, width_nil] at hcursor
      omega
    obtain ⟨row, hrow⟩ := hext.closeRow hN (.inl hne)
    exact ih hrow

/-- The next cell fits where the pen puts it and stands on no column at which the row still owes a `continue`. -/
def HasRoom (p : GridPen) (c : Cell) : Prop :=
  (p.makeRoom (max c.columnSpan 1)).cursor + c.columnSpan ≤ (p.makeRoom (max c.columnSpan 1)).columns ∧
    ∀ m ∈ (p.makeRoom (max c.columnSpan 1)).merges, m.written = false →
      (p.makeRoom (max c.columnSpan 1)).cursor + c.columnSpan ≤ m.column

instance (p : GridPen) (c : Cell) : Decidable (p.HasRoom c) := inferInstanceAs (Decidable (_ ∧ _))

/-- No cell is written on a column at which its row still owes a `continue`. -/
def Clear : GridPen → List Cell → Prop
  | _, [] => True
  | p, c :: cs => p.HasRoom c ∧ Clear (p.write1 c) cs

def decClear : (p : GridPen) → (cs : List Cell) → Decidable (p.Clear cs)
  | _, [] => .isTrue trivial
  | p, c :: cs =>
    have := decClear (p.write1 c) cs
    inferInstanceAs (Decidable (_ ∧ _))

instance (p : GridPen) (cs : List Cell) : Decidable (p.Clear cs) := decClear p cs

/-- A cell as a finished layout has it. -/
structure Finished (c : Cell) : Prop where
  span_pos : 0 < c.columnSpan
  rows_pos : 0 < c.rowSpan
  not_isContinuation : c.kind.isContinuation = false
  rowSpan_of_empty : c.kind = .empty → c.rowSpan = 1

def fresh (start : Nat) (c : Cell) : Stitch := ⟨start, c.columnSpan, c.kind, c.kind.isContent, c.rowSpan - 1⟩

theorem Finished.proper_fresh {c : Cell} (hc : Finished c) (start : Nat) : (fresh start c).Proper := by
  refine ⟨fun _ => rfl, fun hbelow => ?_⟩
  have hkind := hc.not_isContinuation
  have hempty := hc.rowSpan_of_empty
  unfold fresh at hbelow ⊢
  cases hk : c.kind with
  | content e => rfl
  | continuation =>
    rw [hk] at hkind
    cases hkind
  | empty =>
    rw [hempty hk] at hbelow
    cases hbelow

theorem Finished.listing_fresh {c : Cell} (hc : Finished c) (start : Nat) : listing [fresh start c] = [c] := by
  have hrows : c.rowSpan - 1 + 1 = c.rowSpan := Nat.sub_add_cancel hc.rows_pos
  simp [listing, whole, fresh, hc.not_isContinuation, hrows]

theorem Finished.starting?_fresh {c : Cell} (hc : Finished c) (start : Nat) : [fresh start c].filterMap starting? =
    if 1 < c.rowSpan then [⟨start, c.columnSpan, c.rowSpan - 1, false⟩] else [] := by
  have hkind : (fresh start c).kind.isContinuation = false := hc.not_isContinuation
  by_cases hrows : 1 < c.rowSpan
  · have hsome : starting? (fresh start c) = some ⟨start, c.columnSpan, c.rowSpan - 1, false⟩ :=
      if_pos ⟨hkind, Nat.sub_pos_of_lt hrows⟩
    rw [if_pos hrows, List.filterMap_cons_some hsome, List.filterMap_nil]
  · have hnone : starting? (fresh start c) = none := by
      refine if_neg fun h => hrows ?_
      have hbelow : 0 < c.rowSpan - 1 := h.2
      omega
    rw [if_neg hrows, List.filterMap_cons_none hnone, List.filterMap_nil]

/-- **A cell that has room** is written with the rows that it announces. -/
theorem Midrow.write1 (hN : N ≤ Count.ceiling) {c : Cell} (hc : Finished c) (h : Midrow N p cs rows cur)
    (hroom : p.HasRoom c) : ∃ rows cur, cur ≠ [] ∧ Midrow N (p.write1 c) (cs ++ [c]) rows cur := by
  obtain ⟨rows, cur, hq⟩ := h.makeRoom hN (max c.columnSpan 1)
  obtain ⟨hfit, hclear⟩ := hroom
  unfold GridPen.write1 GridPen.putCell
  dsimp only
  rw [Nat.max_eq_left hc.span_pos] at hq hfit hclear ⊢
  generalize p.makeRoom c.columnSpan = q at hq hfit hclear ⊢
  have hcursor := hq.drawn.cursor
  rw [hq.drawn.columns] at hfit
  have hnot : c.kind ≠ .continuation := by
    intro hk
    have := hc.not_isContinuation
    rw [hk] at this
    cases this
  have hfollows : Follows N (rows.getLast?.getD []) (cur ++ [fresh q.cursor c]) :=
    hq.drawn.follows.concat hcursor hc.span_pos (by rw [← hcursor]; exact hfit) (hc.proper_fresh _)
      (fun hk => absurd hk hnot) fun hk => absurd hk hnot
  have hdrawn : Drawn N { q with started := q.started ++
      if 1 < c.rowSpan then [⟨q.cursor, c.columnSpan, c.rowSpan - 1, false⟩] else [] } (rows.getLast?.getD []) cur :=
    ⟨hq.drawn.columns, hq.drawn.under, hq.drawn.row, hq.drawn.cursor, hq.drawn.follows⟩
  have hput := hdrawn.put hN hfollows rfl
  refine ⟨rows, cur ++ [fresh q.cursor c], by simp, hq.chain, hq.ne_nil, hq.closed, hput, hq.owes, fun m hm hw => ?_,
    fun m hm hw => ?_, hq.goes, hq.nodup, ?_, ?_⟩
  · obtain ⟨x, hx, hxk⟩ := hq.written m hm hw
    exact ⟨x, List.mem_append_left _ hx, hxk⟩
  · refine (Nat.le_of_eq hput.cursor).trans ?_
    rw [width_append, ← hcursor]
    exact hclear m hm hw
  · show q.started ++ _ = _
    rw [List.filterMap_append, hc.starting?_fresh, hq.started]
  · rw [← List.append_assoc, listing_append, hc.listing_fresh]
    exact hq.padded.concat c

theorem Midrow.foldl_write1 (hN : N ≤ Count.ceiling) : ∀ {cs ds : List Cell} {p : GridPen} {rows : List (List Stitch)}
    {cur : List Stitch}, cur ≠ [] ∨ cs ≠ [] → (∀ c ∈ cs, Finished c) → Midrow N p ds rows cur → Clear p cs →
    ∃ rows cur, cur ≠ [] ∧ Midrow N (cs.foldl GridPen.write1 p) (ds ++ cs) rows cur
  | [], ds, p, rows, cur, hne, _, h, _ => ⟨rows, cur, by simpa using hne, by rwa [List.append_nil]⟩
  | c :: cs, ds, p, rows, cur, _, hcs, h, ⟨hroom, hclear⟩ => by
    obtain ⟨hc, hcs⟩ := List.forall_mem_cons.1 hcs
    obtain ⟨rows', cur', hne, hnext⟩ := h.write1 hN hc hroom
    rw [List.append_cons]
    exact Midrow.foldl_write1 hN (.inl hne) hcs hnext hclear

theorem Midrow.closeAll (hN : N ≤ Count.ceiling) (h : Midrow N p cs rows []) :
    ∃ rows, Midrow N p.closeAll cs rows [] ∧ p.closeAll.merges = [] := by
  fun_induction GridPen.closeAll p generalizing rows with
  | case1 p hnil => exact ⟨rows, h, hnil⟩
  | case2 p hne ih =>
    obtain ⟨row, hrow⟩ := h.closeRow hN (.inr hne)
    exact ih hrow

theorem midrow_ofLayout {l : Layout} (h0 : 0 < l.columnCount) : Midrow l.columnCount (ofLayout l) [] [] [] := by
  refine ⟨.singleton _, by simp, rfl, ⟨Nat.max_eq_left h0, rfl, rfl, rfl, follows_nil _ _⟩, ?_, ?_, ?_, by simp, ?_, rfl,
    ⟨List.Sublist.refl _, rfl⟩⟩ <;> simp [ofLayout, ofColumns]

/-- **A clear layout is written as woven rows** that announce its cells, with empty ones in between. -/
theorem exists_woven_finish {l : Layout} (h0 : 0 < l.columnCount) (hN : l.columnCount ≤ Count.ceiling) (hne : l.cells ≠ [])
    (hcells : ∀ c ∈ l.cells, Finished c) (hclear : Clear (ofLayout l) l.cells) :
    ∃ rows : List (List Stitch), (GridPen.write l).finish = rows.map (fun row => row.map pen) ∧ rows ≠ [] ∧
      (∀ row ∈ rows, row ≠ []) ∧ ([] :: rows).IsChain (Woven l.columnCount) ∧
      (∀ x ∈ rows.getLast?.getD [], x.below = 0) ∧ Padded l.cells (listing rows.flatten) := by
  obtain ⟨rows, cur, hcur, hwritten⟩ := (midrow_ofLayout h0).foldl_write1 hN (.inr hne) hcells hclear
  obtain ⟨row, hclosed⟩ := hwritten.closeRow hN (.inl hcur)
  obtain ⟨rows, hall, hmerges⟩ := hclosed.closeAll hN
  have hpadded := hall.padded
  rw [List.append_nil] at hpadded
  refine ⟨rows, hall.closed, ?_, hall.ne_nil, hall.chain, fun x hx => ?_, hpadded⟩
  · rintro rfl
    exact hne (List.sublist_nil.1 hpadded.sublist)
  · by_contra hbelow
    obtain ⟨m, hm, -⟩ := hall.goes x hx (Nat.pos_of_ne_zero hbelow)
    rw [hmerges] at hm
    cases hm

end GridPen
end Gridmark
