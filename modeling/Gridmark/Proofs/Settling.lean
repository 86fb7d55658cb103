import Mathlib
import Gridmark.SlotMatrix
/-!
# Settling — continuations row by row

All rows are placed before the first continuation is looked at, but a continuation only looks at the row right above, so it
may as well be settled as soon as its row is placed (`merge_foldl_placeRow`).
-/
namespace Gridmark

namespace SlotMatrix

/-- The matrix with a row put under it and the fate of its continuations settled. -/
def settleRow (m : SlotMatrix) (row : List Cell) : SlotMatrix :=
  (pendingOf m.rows.length (placeFrom m.columnCount 0 m.cells.length row)).foldl mergeOne (m.placeRow row)

/-- Every slot names a cell. -/
def Valid (m : SlotMatrix) : Prop := ∀ slots ∈ m.rows, ∀ s ∈ slots, s.owner < m.cells.length

@[simp] theorem length_cells_mergeOne (m : SlotMatrix) (p : PendingMerge) :
    (m.mergeOne p).cells.length = m.cells.length := by
  unfold mergeOne
  split
  · split
    · rw [absorb, List.length_modify]
    · rfl
  · rfl

@[simp] theorem length_rows_mergeOne (m : SlotMatrix) (p : PendingMerge) :
    (m.mergeOne p).rows.length = m.rows.length := by
  unfold mergeOne
  split
  · split
    · rw [absorb, List.length_modify]
    · rfl
  · rfl

@[simp] theorem columnCount_mergeOne (m : SlotMatrix) (p : PendingMerge) :
    (m.mergeOne p).columnCount = m.columnCount := by
  unfold mergeOne
  split
  · split <;> rfl
  · rfl

@[simp] theorem pending_mergeOne (m : SlotMatrix) (p : PendingMerge) : (m.mergeOne p).pending = m.pending := by
  unfold mergeOne
  split
  · split <;> rfl
  · rfl

theorem owner_lt_of_ownerAt? {m : SlotMatrix} (h : m.Valid) {row column i : Nat} (hi : m.ownerAt? row column = some i) :
    i < m.cells.length := by
  obtain ⟨s, hs, rfl⟩ := Option.map_eq_some_iff.1 hi
  obtain ⟨slots, hr, hf⟩ := Option.bind_eq_some_iff.1 hs
  exact h slots (List.mem_of_getElem? hr) s (List.mem_of_find?_eq_some hf)

theorem owner_lt_of_ownerAbove? {m : SlotMatrix} (h : m.Valid) {p : PendingMerge} {i : Nat}
    (hi : m.ownerAbove? p = some i) : i < m.cells.length := by
  unfold ownerAbove? at hi
  split at hi
  · cases hi
  · exact owner_lt_of_ownerAt? h hi

theorem Valid.mergeOne {m : SlotMatrix} (h : m.Valid) (p : PendingMerge) : (m.mergeOne p).Valid := by
  unfold SlotMatrix.mergeOne
  split
  · rename_i target ht
    split
    · intro slots hslots s hs
      have hlen : (m.absorb target p).cells.length = m.cells.length := by rw [absorb, List.length_modify]
      rw [hlen]
      obtain ⟨r, hr⟩ := List.mem_iff_getElem?.1 hslots
      rw [absorb, List.getElem?_modify] at hr
      obtain ⟨slots', hr', rfl⟩ := Option.map_eq_some_iff.1 hr
      have hv := h slots' (List.mem_of_getElem? hr')
      split at hs
      · obtain ⟨s', hs', rfl⟩ := List.mem_map.1 hs
        unfold Slot.reassign
        split
        · exact owner_lt_of_ownerAbove? h ht
        · exact hv s' hs'
      · exact hv s hs
    · exact h
  · exact h

theorem owner_lt_of_mem_placeFrom {N : Nat} : ∀ {cs : List Cell} {cursor i : Nat}, ∀ p ∈ placeFrom N cursor i cs,
    i ≤ p.1.owner ∧ p.1.owner < i + (placeFrom N cursor i cs).length
  | [], _, _, p, h => by simp [placeFrom] at h
  | c :: cs, cursor, i, p, h => by
    rw [placeFrom] at h ⊢
    split at h
    · rename_i hc
      rw [if_pos hc]
      exact owner_lt_of_mem_placeFrom p h
    · rename_i hc
      rw [if_neg hc, List.length_cons]
      rcases List.mem_cons.1 h with rfl | h
      · exact ⟨Nat.le_refl _, by simp⟩
      · have := owner_lt_of_mem_placeFrom p h
        omega

/-- What is placed for a cell: it starts at the cursor or behind it, within the columns, and is cut at the last of them. -/
theorem of_mem_placeFrom {N : Nat} : ∀ {cs : List Cell} {cursor i : Nat}, cursor ≤ Count.ceiling →
    ∀ p ∈ placeFrom N cursor i cs, cursor ≤ p.1.start ∧ p.1.start < N ∧ p.1.stop = p.1.start + p.2.columnSpan ∧
      ∃ c ∈ cs, p.2 = { c with columnSpan := min c.columnSpan (min N Count.ceiling - p.1.start) }
  | [], _, _, _, p, hp => by cases hp
  | c :: cs, cursor, i, hcursor, p, hp => by
    have hnext : cursor ≤ Count.add cursor c.columnSpan ∧ Count.add cursor c.columnSpan ≤ Count.ceiling := by
      unfold Count.add
      omega
    have htail : ∀ i, p ∈ placeFrom N (Count.add cursor c.columnSpan) i cs → cursor ≤ p.1.start ∧ p.1.start < N ∧
        p.1.stop = p.1.start + p.2.columnSpan ∧
        ∃ d ∈ c :: cs, p.2 = { d with columnSpan := min d.columnSpan (min N Count.ceiling - p.1.start) } := by
      intro i hp
      obtain ⟨h1, h2, h3, d, hd, h4⟩ := of_mem_placeFrom hnext.2 p hp
      exact ⟨hnext.1.trans h1, h2, h3, d, List.mem_cons_of_mem c hd, h4⟩
    rw [placeFrom] at hp
    split at hp
    · exact htail _ hp
    · rename_i hc
      rcases List.mem_cons.1 hp with rfl | hp
      · refine ⟨Nat.le_refl _, Nat.lt_of_not_le hc, ?_, c, List.mem_cons_self, ?_⟩
        · dsimp only
          omega
        · have hspan : min (Count.add cursor c.columnSpan) N - cursor =
              min c.columnSpan (min N Count.ceiling - cursor) := by
            unfold Count.add
            omega
          rw [hspan]
      · exact htail _ hp

theorem map_owner_placeFrom {N : Nat} : ∀ (cs : List Cell) (cursor i : Nat),
    (placeFrom N cursor i cs).map (fun p => p.1.owner) = List.range' i (placeFrom N cursor i cs).length
  | [], _, _ => rfl
  | c :: cs, cursor, i => by
    rw [placeFrom]
    split
    · exact map_owner_placeFrom cs _ i
    · rw [List.map_cons, map_owner_placeFrom cs _ (i + 1), List.length_cons, List.range'_succ]

theorem owner_of_getElem?_placeFrom {N : Nat} {cs : List Cell} {cursor i j : Nat} {p : Slot × Cell}
    (h : (placeFrom N cursor i cs)[j]? = some p) : p.1.owner = i + j := by
  have hj := congrArg (fun owners => owners[j]?) (map_owner_placeFrom (N := N) cs cursor i)
  rw [List.getElem?_map, h, List.getElem?_range' (List.getElem?_eq_some_iff.1 h).1, Nat.one_mul] at hj
  exact Option.some.inj hj

theorem pairwise_placeFrom {N : Nat} : ∀ {cs : List Cell} {cursor i : Nat}, cursor ≤ Count.ceiling →
    (placeFrom N cursor i cs).Pairwise fun p q => p.1.stop ≤ q.1.start
  | [], _, _, _ => .nil
  | c :: cs, cursor, i, hcursor => by
    have hnext : Count.add cursor c.columnSpan ≤ Count.ceiling := Nat.min_le_right _ _
    rw [placeFrom]
    split
    · exact pairwise_placeFrom hnext
    · refine List.pairwise_cons.2 ⟨fun q hq => ?_, pairwise_placeFrom hnext⟩
      exact (Nat.min_le_left _ _).trans (of_mem_placeFrom hnext q hq).1

theorem Valid.placeRow {m : SlotMatrix} (h : m.Valid) (row : List Cell) : (m.placeRow row).Valid := by
  intro slots hslots s hs
  simp only [SlotMatrix.placeRow, List.mem_append, List.mem_singleton, List.length_append, List.length_map] at hslots ⊢
  rcases hslots with hslots | rfl
  · have := h slots hslots s hs
    omega
  · obtain ⟨p, hp, rfl⟩ := List.mem_map.1 hs
    exact (owner_lt_of_mem_placeFrom p hp).2

theorem modify_append_left {α : Type} (f : α → α) (r : List α) : ∀ {l : List α} {i : Nat}, i < l.length →
    (l ++ r).modify i f = l.modify i f ++ r
  | a :: l, 0, _ => rfl
  | a :: l, i + 1, h => by
    rw [List.cons_append, List.modify_succ_cons, List.modify_succ_cons, modify_append_left f r (Nat.lt_of_succ_lt_succ h)]
    rfl

/-- Settling a continuation sees nothing of the rows under it. -/
theorem mergeOne_placeRow {m : SlotMatrix} (h : m.Valid) {p : PendingMerge} (hr : p.row < m.rows.length)
    (ho : p.owner < m.cells.length) (row : List Cell) :
    (m.placeRow row).mergeOne p = (m.mergeOne p).placeRow row := by
  have hab : (m.placeRow row).ownerAbove? p = m.ownerAbove? p := by
    unfold ownerAbove?
    split
    · rfl
    · rename_i r _
      unfold ownerAt?
      rw [placeRow, List.getElem?_append_left (by omega)]
  have hp : ∀ q : SlotMatrix, q.columnCount = m.columnCount → q.cells.length = m.cells.length →
      q.rows.length = m.rows.length → q.pending = m.pending →
      q.placeRow row = { m.placeRow row with
        cells := q.cells ++ (placeFrom m.columnCount 0 m.cells.length row).map (·.2)
        rows := q.rows ++ [(placeFrom m.columnCount 0 m.cells.length row).map (·.1)] } := by
    intro q h1 h2 h3 h4
    simp only [placeRow, h1, h2, h3, h4]
  rw [hp _ (columnCount_mergeOne m p) (length_cells_mergeOne m p) (length_rows_mergeOne m p) (pending_mergeOne m p)]
  unfold mergeOne
  rw [hab]
  cases ht : m.ownerAbove? p with
  | none => rfl
  | some target =>
    have htl := owner_lt_of_ownerAbove? h ht
    have hca : (m.placeRow row).canAbsorb target p.owner = m.canAbsorb target p.owner := by
      unfold canAbsorb
      rw [placeRow, List.getElem?_append_left htl, List.getElem?_append_left ho]
    dsimp only
    rw [hca]
    split
    · simp only [absorb, placeRow]
      rw [modify_append_left _ _ htl, modify_append_left _ _ hr]
    · rfl

def Refers (m : SlotMatrix) (p : PendingMerge) : Prop := p.row < m.rows.length ∧ p.owner < m.cells.length

theorem foldl_mergeOne_placeRow (row : List Cell) : ∀ {ps : List PendingMerge} {m : SlotMatrix}, m.Valid →
    (∀ p ∈ ps, m.Refers p) → ps.foldl mergeOne (m.placeRow row) = (ps.foldl mergeOne m).placeRow row
  | [], m, _, _ => rfl
  | p :: ps, m, h, hp => by
    obtain ⟨hr, ho⟩ := hp p List.mem_cons_self
    rw [List.foldl_cons, List.foldl_cons, mergeOne_placeRow h hr ho]
    refine foldl_mergeOne_placeRow row (h.mergeOne p) fun q hq => ?_
    have := hp q (List.mem_cons_of_mem _ hq)
    unfold Refers at this ⊢
    rwa [length_rows_mergeOne, length_cells_mergeOne]

theorem Refers.placeRow {m : SlotMatrix} {p : PendingMerge} (h : m.Refers p) (row : List Cell) :
    (m.placeRow row).Refers p := by
  unfold Refers at h ⊢
  simp only [SlotMatrix.placeRow, List.length_append]
  omega

theorem foldl_mergeOne_foldl_placeRow : ∀ (rows : List (List Cell)) {ps : List PendingMerge} {m : SlotMatrix}, m.Valid →
    (∀ p ∈ ps, m.Refers p) → ps.foldl mergeOne (rows.foldl placeRow m) = rows.foldl placeRow (ps.foldl mergeOne m)
  | [], ps, m, _, _ => rfl
  | row :: rows, ps, m, h, hp => by
    rw [List.foldl_cons, List.foldl_cons, ← foldl_mergeOne_placeRow row h hp]
    exact foldl_mergeOne_foldl_placeRow rows (h.placeRow row) fun p hm => (hp p hm).placeRow row

theorem refers_of_mem_pendingOf {m : SlotMatrix} {row : List Cell} {p : PendingMerge}
    (h : p ∈ pendingOf m.rows.length (placeFrom m.columnCount 0 m.cells.length row)) : (m.placeRow row).Refers p := by
  obtain ⟨q, hq, hs⟩ := List.mem_filterMap.1 h
  split at hs
  · cases hs
    have := owner_lt_of_mem_placeFrom q hq
    unfold Refers
    simp only [placeRow, List.length_append, List.length_map, List.length_singleton]
    omega
  · cases hs

theorem Valid.foldl_mergeOne : ∀ {ps : List PendingMerge} {m : SlotMatrix}, m.Valid → (ps.foldl SlotMatrix.mergeOne m).Valid
  | [], _, h => h
  | p :: _, _, h => (h.mergeOne p).foldl_mergeOne

theorem pending_foldl_mergeOne : ∀ (ps : List PendingMerge) (m : SlotMatrix), (ps.foldl mergeOne m).pending = m.pending
  | [], _ => rfl
  | p :: ps, m => by rw [List.foldl_cons, pending_foldl_mergeOne ps, pending_mergeOne]

theorem exists_pending_foldl_placeRow : ∀ (rows : List (List Cell)) {m : SlotMatrix}, m.Valid →
    ∃ ps, (rows.foldl placeRow m).pending = m.pending ++ ps ∧
      ps.foldl mergeOne (rows.foldl placeRow m) = rows.foldl settleRow m
  | [], m, _ => ⟨[], (List.append_nil _).symm, rfl⟩
  | row :: rows, m, h => by
    have hv := h.placeRow row
    have hc := foldl_mergeOne_foldl_placeRow rows hv fun p hp => refers_of_mem_pendingOf hp
    obtain ⟨ps, hps, hf⟩ := exists_pending_foldl_placeRow rows (m := m.settleRow row) hv.foldl_mergeOne
    refine ⟨pendingOf m.rows.length (placeFrom m.columnCount 0 m.cells.length row) ++ ps, ?_, ?_⟩
    · rw [List.foldl_cons, ← pending_foldl_mergeOne, hc]
      show (rows.foldl placeRow (m.settleRow row)).pending = _
      rw [hps, settleRow, pending_foldl_mergeOne, placeRow, List.append_assoc]
    · rw [List.foldl_cons, List.foldl_cons, List.foldl_append, hc]
      exact hf

/-- **Merging last is merging row by row.** -/
theorem merge_foldl_placeRow (N : Nat) (rows : List (List Cell)) :
    (rows.foldl placeRow (empty N)).merge = { rows.foldl settleRow (empty N) with pending := [] } := by
  obtain ⟨ps, hps, hf⟩ := exists_pending_foldl_placeRow rows (m := empty N) (fun _ h => by cases h)
  unfold merge
  rw [hps, ← hf]
  rfl

end SlotMatrix
end Gridmark
