import Gridmark.Proofs.GridText
/-!
# Packing — a layout without merges, row by row

Cells of one row are put into rows from the left, and the row closes when the next cell would not fit (`packFrom`).  A
picture without continuations lists its cells just as they stand, so these rows show the layout (`shows_packFrom`).  That
the next cell would not fit is found by a sum with a ceiling: a grid with as many columns as there can be never closes a
row, and then only cells that fit into one row come back.
-/
namespace Gridmark

open Text (joinWith)

/-- The text of the element is one line, it stays whole between other cells, and it reads as the element. -/
structure Element.CellSafe (e : Element) : Prop where
  nonempty : ElementLine.write e ≠ []
  line : '\n' ∉ ElementLine.write e
  whole : splitTop .comma (ElementLine.write e ++ [',', ' ', 'x']) = [ElementLine.write e, ['x']]
  read_eq : RowCell.read (ElementLine.write e) = ⟨.content e, none⟩

/-- A cell that is empty or holds such an element. -/
def Cell.Safe (c : Cell) : Prop := c.kind = .empty ∨ ∃ e, c.kind = .content e ∧ e.CellSafe

theorem Text.lines_of_not_mem : ∀ {t : Text}, t ≠ [] → '\n' ∉ t → lines t = [t]
  | [c], _, h => by
    have hc : c ≠ '\n' := fun e => h (e ▸ List.mem_cons_self)
    simp [lines]
  | c :: d :: t, _, h => by
    have ih := lines_of_not_mem (List.cons_ne_nil d t) fun m => h (List.mem_cons_of_mem _ m)
    rw [lines, ih]
    · exact fun hc => h (hc ▸ List.mem_cons_self)
    · intro u _ hu
      exact h (List.mem_cons_of_mem _ (hu ▸ List.mem_cons_self))

/-- An element of one line stands in its cell as it is. -/
theorem GridPen.cellText_eq_write {e : Element} (hne : ElementLine.write e ≠ []) (hn : '\n' ∉ ElementLine.write e) :
    cellText (.content e) = ElementLine.write e := by
  rw [cellText, Text.lines_of_not_mem hne hn, joinWith]

theorem Element.CellSafe.cellText_eq {e : Element} (h : e.CellSafe) :
    GridPen.cellText (.content e) = ElementLine.write e := GridPen.cellText_eq_write h.nonempty h.line

theorem RowCell.span?_eq_none_of_read {t : Text} {k : CellKind} (h : read t = ⟨k, none⟩) :
    GridRow.span? t = none ∧ (ofBody none t).kind = k := by
  unfold read at h
  split at h
  · rename_i span body _
    rw [ofBody_eq rfl] at h
    have := congrArg RowCell.span h
    split at this <;> cases this
  · exact ⟨‹_›, by rw [h]⟩

theorem Element.cellSafe_letter {a : Char} (ha : a ∈ ['a', 'b', 'c', 'p', 'q', 'r']) : (Element.prose [a]).CellSafe := by
  simp only [List.mem_cons, List.not_mem_nil, or_false] at ha
  rcases ha with rfl | rfl | rfl | rfl | rfl | rfl <;> exact ⟨by decide, by decide, by decide, by decide⟩

theorem Cell.safe_letter {c : Cell} {a : Char} (h : c.kind = .content (.prose [a])) (ha : a ∈ ['a', 'b', 'c', 'p', 'q', 'r']) :
    c.Safe := .inr ⟨_, h, Element.cellSafe_letter ha⟩

theorem Cell.Safe.not_isContinuation {c : Cell} (h : c.Safe) : c.kind.isContinuation = false := by
  rcases h with h | ⟨e, h, -⟩ <;> rw [h] <;> rfl

theorem Cell.Safe.readsBack {c : Cell} (h : c.Safe) (shown last : Bool) : CellKind.ReadsBack shown last c.kind := by
  rcases h with h | ⟨e, h, hs⟩
  · rw [h]
    exact CellKind.readsBack_empty shown last
  · obtain ⟨hspan, hkind⟩ := RowCell.span?_eq_none_of_read hs.read_eq
    obtain ⟨hsealed, htrim⟩ := Split.sealed_of_splitTop hs.whole
    rw [← hs.cellText_eq] at hspan hkind hsealed htrim
    rw [h]
    refine ⟨hkind, fun _ => hspan, ?_⟩
    cases last with
    | false =>
      rw [hs.cellText_eq]
      exact hs.whole
    | true =>
      have hne : GridPen.cellText (.content e) ≠ [] := by
        rw [hs.cellText_eq]
        exact hs.nonempty
      have hapart : Split.Apart [GridPen.cellText (.content e)] := hsealed.uncut
      have hsplit := Split.splitTop_joinWith (List.cons_ne_nil _ _) hapart (by simpa [htrim] using hne) (.inl rfl)
      rw [List.nil_append, List.append_nil, joinWith, List.map_singleton, htrim] at hsplit
      exact .inl hsplit

namespace Picture

variable {N : Nat} {row cs : List Cell} {rows : List (List Cell)}

theorem rowLegible_of_readsBack {explicit : Bool} : ∀ {row : List Cell},
    (∀ c ∈ row, ∀ shown last, CellKind.ReadsBack shown last c.kind) → RowLegible explicit row
  | [], _ => trivial
  | [c], h => h c List.mem_cons_self _ true
  | c :: _ :: _, h =>
    ⟨h c List.mem_cons_self _ false, rowLegible_of_readsBack fun b hb => h b (List.mem_cons_of_mem _ hb)⟩

/-! ## Pictures without continuations -/

theorem depth_eq_zero {s : Nat} (h : ∀ row ∈ rows, ∀ c ∈ row, c.kind.isContinuation = false) : depth s rows = 0 := by
  cases rows with
  | nil => rfl
  | cons row rows =>
    rw [depth, if_neg]
    rw [List.any_eq_true]
    rintro ⟨q, hq, hc⟩
    have := h row List.mem_cons_self q.2 (bounds_of_mem_placed hq).1
    simp [continuesAt, this] at hc

theorem cells_eq_flatten : ∀ {rows : List (List Cell)}, (∀ row ∈ rows, ∀ c ∈ row, c.kind.isContinuation = false) →
    cells rows = rows.flatten
  | [], _ => rfl
  | row :: rows, h => by
    have hrows : ∀ r ∈ rows, ∀ c ∈ r, c.kind.isContinuation = false := fun r hr => h r (List.mem_cons_of_mem _ hr)
    have hrow : (placed 0 row).filterMap (grown? rows) = row := by
      have hg : ∀ q ∈ placed 0 row, grown? rows q = some q.2 := fun q hq => by
        rw [grown?, h row List.mem_cons_self q.2 (bounds_of_mem_placed hq).1, if_neg Bool.false_ne_true,
          depth_eq_zero hrows]
        rfl
      rw [List.filterMap_congr hg, List.filterMap_eq_map', map_snd_placed]
    rw [cells, hrow, cells_eq_flatten hrows, List.flatten_cons]

theorem isChain_aligned : ∀ {rows : List (List Cell)} (above : List Cell),
    (∀ row ∈ rows, ∀ c ∈ row, c.kind.isContinuation = false) → (above :: rows).IsChain Aligned
  | [], _, _ => List.isChain_singleton _
  | row :: rows, above, h => by
    refine List.isChain_cons_cons.2 ⟨fun q hq hc => ?_, isChain_aligned row fun r hr => h r (List.mem_cons_of_mem _ hr)⟩
    rw [h row List.mem_cons_self q.2 (bounds_of_mem_placed hq).1] at hc
    cases hc

/-- A cell of one column is a picture by itself. -/
theorem isPicture_single {k : CellKind} (h : k.isContinuation = false) : IsPicture 1 [[Cell.ofKind k 1]] := by
  refine ⟨fun row hrow => ?_, isChain_aligned [] (by simpa [Cell.ofKind] using h)⟩
  rw [List.mem_singleton.1 hrow]
  exact ⟨by simp, by simp [Cell.ofKind], by simp [Cell.ofKind], Nat.le_refl 1⟩

/-! ## Packing -/

/-- Cells put into rows behind those of the first row. -/
def packFrom (N : Nat) : List Cell → List Cell → List (List Cell)
  | row, [] => [row]
  | row, c :: cs =>
    if N < Count.add (width row) c.columnSpan then row :: packFrom N [c] cs else packFrom N (row ++ [c]) cs

theorem flatten_packFrom : ∀ row cs : List Cell, (packFrom N row cs).flatten = row ++ cs
  | row, [] => by simp [packFrom]
  | row, c :: cs => by
    rw [packFrom]
    split
    · rw [List.flatten_cons, flatten_packFrom [c] cs]
      rfl
    · rw [flatten_packFrom (row ++ [c]) cs, List.append_assoc]
      rfl

theorem mem_of_mem_packFrom {r : List Cell} {c : Cell} (hr : r ∈ packFrom N row cs) (hc : c ∈ r) : c ∈ row ++ cs :=
  flatten_packFrom (N := N) row cs ▸ List.mem_flatten.2 ⟨r, hr, hc⟩

theorem packFrom_ne_nil : ∀ row cs : List Cell, packFrom N row cs ≠ []
  | row, [] => by simp [packFrom]
  | row, c :: cs => by
    rw [packFrom]
    split
    · exact List.cons_ne_nil _ _
    · exact packFrom_ne_nil _ cs

/-- A row is closed in time, unless the ceiling hides that it is full. -/
theorem fits_packFrom (hN : N ≤ Count.ceiling) : ∀ {row cs : List Cell}, Fits N row →
    (∀ c ∈ cs, 0 < c.columnSpan ∧ c.columnSpan ≤ N ∧ c.rowSpan = 1) →
    (N < Count.ceiling ∨ width row + width cs ≤ N) → ∀ r ∈ packFrom N row cs, Fits N r
  | row, [], hfit, _, _, r, hr => by
    rw [packFrom, List.mem_singleton] at hr
    rwa [hr]
  | row, c :: cs, hfit, hcs, hroom, r, hr => by
    obtain ⟨hpos, hle, hrow⟩ := hcs c List.mem_cons_self
    have hcs' : ∀ d ∈ cs, 0 < d.columnSpan ∧ d.columnSpan ≤ N ∧ d.rowSpan = 1 := fun d hd =>
      hcs d (List.mem_cons_of_mem _ hd)
    rw [width_cons] at hroom
    rw [packFrom] at hr
    unfold Count.add at hr
    split at hr
    · rcases List.mem_cons.1 hr with rfl | hr
      · exact hfit
      · refine fits_packFrom hN ⟨by simp, by simpa using hpos, by simpa using hrow, by simpa using hle⟩ hcs' ?_ r hr
        left
        omega
    · have hwidth : width (row ++ [c]) = width row + c.columnSpan := by simp
      refine fits_packFrom hN ⟨by simp, ?_, ?_, by omega⟩ hcs' (by omega) r hr
      · intro d hd
        rcases List.mem_append.1 hd with hd | hd
        · exact hfit.span_pos d hd
        · rwa [List.mem_singleton.1 hd]
      · intro d hd
        rcases List.mem_append.1 hd with hd | hd
        · exact hfit.rowSpan_eq d hd
        · rwa [List.mem_singleton.1 hd]

theorem tight_packFrom : ∀ {row cs : List Cell}, (∀ c ∈ row ++ cs, c.kind.isContinuation = false) →
    Tight N (packFrom N row cs)
  | row, [], _ => by simp [packFrom, Tight, cells]
  | row, c :: cs, h => by
    rw [packFrom]
    split
    · rename_i hfull
      have hcs : ∀ d ∈ [c] ++ cs, d.kind.isContinuation = false := fun d hd => h d (List.mem_append_right _ hd)
      refine ⟨?_, tight_packFrom hcs⟩
      rw [cells_eq_flatten fun r hr d hd => hcs d (mem_of_mem_packFrom hr hd), flatten_packFrom]
      rintro d ⟨⟩
      exact hfull
    · refine tight_packFrom fun d hd => h d ?_
      rwa [List.append_assoc, List.singleton_append] at hd

/-- **A layout without merges is shown by its cells put into rows**, unless it has as many columns as there can be and cells
for more than one row. -/
theorem shows_packFrom {l : Layout} {c : Cell} {cs : List Cell} (hl : l.cells = c :: cs) (hN : l.columnCount ≤ Count.ceiling)
    (hsafe : ∀ d ∈ l.cells, d.Safe) (hspan : ∀ d ∈ l.cells, 0 < d.columnSpan ∧ d.columnSpan ≤ l.columnCount)
    (hrow : ∀ d ∈ l.cells, d.rowSpan = 1) (hroom : l.columnCount < Count.ceiling ∨ width l.cells ≤ l.columnCount) :
    Shows l (packFrom l.columnCount [c] cs) := by
  rw [hl] at hsafe hspan hrow hroom
  have hc := hspan c List.mem_cons_self
  have hone : Fits l.columnCount [c] :=
    ⟨by simp, by simpa using hc.1, by simpa using hrow c List.mem_cons_self, by simpa using hc.2⟩
  have hkind : ∀ d ∈ [c] ++ cs, d.kind.isContinuation = false := fun d hd => (hsafe d hd).not_isContinuation
  have hflat : ∀ r ∈ packFrom l.columnCount [c] cs, ∀ d ∈ r, d.kind.isContinuation = false := fun r hr d hd =>
    hkind d (mem_of_mem_packFrom hr hd)
  refine ⟨packFrom_ne_nil [c] cs, ?_, ⟨?_, ?_⟩, tight_packFrom hkind, ?_⟩
  · rw [cells_eq_flatten hflat, flatten_packFrom, hl]
    rfl
  · refine fits_packFrom hN hone (fun d hd => ?_) (by simpa using hroom)
    have hd := List.mem_cons_of_mem c hd
    exact ⟨(hspan d hd).1, (hspan d hd).2, hrow d hd⟩
  · exact isChain_aligned [] hflat
  · exact fun r hr => rowLegible_of_readsBack fun d hd => (hsafe d (mem_of_mem_packFrom hr hd)).readsBack

end Picture

end Gridmark
