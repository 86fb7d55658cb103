import Gridmark.Proofs.Slots
/-!
# Fates — what becomes of a continuation

A continuation is caught by the cell of the slot above its first column if this cell has content and the same span
(`caught?`).  Then the cell grows by a row and the slot comes to name it; any other slot goes on naming the cell it was made
for.  This holds of every row, cut or narrow, aligned or not (`settleRow_eq_caught`), and it is all that reading order
depends on: the layout lists the placed cells in the order of their numbers (`cells_toLayout_foldl`).
-/
namespace Gridmark
namespace SlotMatrix

/-- Whether a cell takes over a continuation of the given span. -/
def takes (span : Nat) (c : Cell) : Bool := c.kind.isContent && c.columnSpan == span

/-- The number of the cell that a continuation grows, if the cell takes it over. -/
def caught? (above : List Slot) (cells : List Cell) (p : Slot × Cell) : Option Nat :=
  (hit? above p).filter fun t => cells[t]?.any (takes p.2.columnSpan)

/-- The cells after one slot has been settled, `f` telling whose row it is. -/
def grow (f : Slot × Cell → Option Nat) (cells : List Cell) (p : Slot × Cell) : List Cell :=
  match f p with
  | some t => cells.modify t (addRows 1)
  | none => cells

/-- The slot with the number that `f` tells, or else its own. -/
def assign (f : Slot × Cell → Option Nat) (p : Slot × Cell) : Slot := { p.1 with owner := (f p).getD p.1.owner }

variable {above : List Slot} {C : List Cell} {p : Slot × Cell} {t : Nat}

theorem grow_congr {f g : Slot × Cell → Option Nat} (h : f p = g p) (C : List Cell) : grow f C p = grow g C p := by
  rw [grow, grow, h]

theorem caught?_eq_some_iff : caught? above C p = some t ↔
    p.2.kind.isContinuation = true ∧ (∃ a ∈ above, above.find? (fun s => s.covers p.1.start) = some a ∧ a.owner = t) ∧
      ∃ c, C[t]? = some c ∧ c.kind.isContent = true ∧ c.columnSpan = p.2.columnSpan := by
  unfold caught? hit? targetIn
  rw [Option.filter_eq_some_iff]
  constructor
  · rintro ⟨hhit, hc⟩
    split at hhit
    · rename_i hk
      obtain ⟨a, ha, rfl⟩ := Option.map_eq_some_iff.1 hhit
      refine ⟨hk, ⟨a, List.mem_of_find?_eq_some ha, ha, rfl⟩, ?_⟩
      cases hc' : C[a.owner]? with
      | none => simp [hc'] at hc
      | some c =>
        simp only [hc', Option.any_some, takes, Bool.and_eq_true, beq_iff_eq] at hc
        exact ⟨c, rfl, hc⟩
    · cases hhit
  · rintro ⟨hk, ⟨a, -, ha, rfl⟩, c, hc, hkind, hspan⟩
    simp [hk, ha, hc, hkind, hspan, takes]

theorem caught?_eq_none (h : p.2.kind.isContinuation = false) : caught? above C p = none := by
  simp [caught?, hit?, h]

/-- Further rows make no difference to what a cell can take over. -/
theorem caught?_modify (i : Nat) : caught? above (C.modify i (addRows 1)) = caught? above C := by
  funext p
  have hany : ∀ t : Nat, (C.modify i (addRows 1))[t]?.any (takes p.2.columnSpan) = C[t]?.any (takes p.2.columnSpan) := by
    intro t
    rw [List.getElem?_modify]
    by_cases ht : i = t <;> cases C[t]? <;> simp [ht, addRows, takes]
  simp [caught?, hany]

theorem canAbsorb_eq {N : Nat} {rows : List (List Slot)} {pending : List PendingMerge} {D : List Cell} {i : Nat} {c : Cell}
    (ht : t < C.length) (hi : (C ++ D)[i]? = some c) :
    canAbsorb ⟨N, C ++ D, rows, pending⟩ t i = C[t]?.any (takes c.columnSpan) := by
  unfold canAbsorb
  rw [List.getElem?_append_left ht, hi, List.getElem?_eq_getElem ht]
  rfl

@[simp] theorem length_grow (f : Slot × Cell → Option Nat) (C : List Cell) (p : Slot × Cell) :
    (grow f C p).length = C.length := by
  unfold grow
  split
  · exact List.length_modify ..
  · rfl

theorem caught?_grow (f : Slot × Cell → Option Nat) : caught? above (grow f C p) = caught? above C := by
  unfold grow
  split
  · exact caught?_modify _
  · rfl

/-- **Settling one continuation of a row**: the cell that catches it grows, and its slot comes to name that cell.  The cells
`C` are those of the rows above. -/
theorem mergeOne_placed {N : Nat} {B : List (List Slot)} {pending : List PendingMerge} {E : List Cell} {R S : List Slot}
    (hk : p.2.kind.isContinuation = true) (hB : ∀ a ∈ B.getLast?.getD [], a.owner < C.length)
    (hp : (C ++ E)[p.1.owner]? = some p.2) (hR : ∀ r ∈ R, r.owner < p.1.owner) (hS : ∀ r ∈ S, p.1.owner < r.owner) :
    mergeOne ⟨N, C ++ E, B ++ [R ++ p.1 :: S], pending⟩ ⟨B.length, p.1.start, p.1.owner⟩ =
      ⟨N, grow (caught? (B.getLast?.getD []) C) C p ++ E, B ++ [R ++ assign (caught? (B.getLast?.getD []) C) p :: S],
        pending⟩ := by
  cases hc : caught? (B.getLast?.getD []) C p with
  | some t =>
    obtain ⟨-, ⟨a, -, ha, rfl⟩, hcell⟩ := caught?_eq_some_iff.1 hc
    have ht : targetIn (B.getLast?.getD []) p.1.start = some a.owner := by rw [targetIn, ha, Option.map_some]
    rw [mergeOne_eq ht hcell hp hR hS, grow, hc, assign, hc]
    rfl
  | none =>
    rw [mergeOne, ownerAbove?_length, grow, hc, assign, hc]
    cases ht : targetIn (B.getLast?.getD []) p.1.start with
    | none => rfl
    | some t =>
      obtain ⟨a, ha, rfl⟩ := Option.map_eq_some_iff.1 ht
      have hcan : C[a.owner]?.any (takes p.2.columnSpan) = false := by
        rw [caught?, hit?, if_pos hk, ht, Option.filter_some] at hc
        split at hc
        · cases hc
        · rename_i hcan
          exact Bool.eq_false_iff.2 hcan
      dsimp only
      rw [canAbsorb_eq (hB a (List.mem_of_find?_eq_some ha)) hp, hcan]
      rfl

/-- **Settling the continuations of a row**, from the given cell on.  The cells `C` are those of the rows above, `D` and `R`
the cells and the settled slots of the row before it. -/
theorem foldl_mergeOne_placed (N : Nat) (B : List (List Slot)) (pending : List PendingMerge) :
    ∀ (ps : List (Slot × Cell)) (C D : List Cell) (R : List Slot),
      (∀ a ∈ B.getLast?.getD [], a.owner < C.length) → (∀ r ∈ R, r.owner < C.length + D.length) →
      ps.map (fun p => p.1.owner) = List.range' (C.length + D.length) ps.length →
      (pendingOf B.length ps).foldl mergeOne ⟨N, C ++ (D ++ ps.map (·.2)), B ++ [R ++ ps.map (·.1)], pending⟩ =
        ⟨N, ps.foldl (grow (caught? (B.getLast?.getD []) C)) C ++ (D ++ ps.map (·.2)),
          B ++ [R ++ ps.map (assign (caught? (B.getLast?.getD []) C))], pending⟩
  | [], _, _, _, _, _, _ => rfl
  | p :: ps, C, D, R, hB, hR, hps => by
    rw [List.map_cons, List.length_cons, List.range'_succ] at hps
    obtain ⟨hp, hps⟩ := List.cons.inj hps
    have hcell : (C ++ (D ++ p.2 :: ps.map (·.2)))[p.1.owner]? = some p.2 := by simp [hp]
    have hbehind : ∀ r ∈ ps.map (·.1), p.1.owner < r.owner := by
      intro r hr
      obtain ⟨q, hq, rfl⟩ := List.mem_map.1 hr
      have hmem : q.1.owner ∈ ps.map fun p => p.1.owner := List.mem_map_of_mem hq
      rw [hps, List.mem_range'_1] at hmem
      omega
    have hassign : (assign (caught? (B.getLast?.getD []) C) p).owner ≤ p.1.owner := by
      cases hc : caught? (B.getLast?.getD []) C p with
      | none => simp [assign, hc]
      | some t =>
        obtain ⟨-, ⟨a, ha, -, rfl⟩, -⟩ := caught?_eq_some_iff.1 hc
        have := hB a ha
        simp only [assign, hc, Option.getD_some]
        omega
    have hstep : (pendingOf B.length (p :: ps)).foldl mergeOne
          ⟨N, C ++ (D ++ p.2 :: ps.map (·.2)), B ++ [R ++ p.1 :: ps.map (·.1)], pending⟩ =
        (pendingOf B.length ps).foldl mergeOne ⟨N, grow (caught? (B.getLast?.getD []) C) C p ++ (D ++ p.2 :: ps.map (·.2)),
          B ++ [R ++ assign (caught? (B.getLast?.getD []) C) p :: ps.map (·.1)], pending⟩ := by
      cases hk : p.2.kind.isContinuation with
      | false =>
        rw [pendingOf, List.filterMap_cons_none (by simp [hk]), grow, caught?_eq_none hk, assign, caught?_eq_none hk]
        rfl
      | true =>
        rw [pendingOf, List.filterMap_cons_some (by simp only [hk]; rfl), List.foldl_cons,
          mergeOne_placed hk hB hcell (by rwa [hp]) hbehind]
        rfl
    have ih := foldl_mergeOne_placed N B pending ps (grow (caught? (B.getLast?.getD []) C) C p) (D ++ [p.2])
      (R ++ [assign (caught? (B.getLast?.getD []) C) p]) (by rwa [length_grow])
      (by
        simp only [List.forall_mem_append, List.forall_mem_singleton, length_grow, List.length_append, List.length_singleton]
        exact ⟨fun r hr => Nat.lt_succ_of_lt (hR r hr), by omega⟩)
      (by rw [length_grow, List.length_append, List.length_singleton, ← Nat.add_assoc]; exact hps)
    simp only [List.append_assoc, List.singleton_append, caught?_grow] at ih
    rw [List.map_cons, List.map_cons, List.map_cons, List.foldl_cons, hstep]
    exact ih

/-! ## A whole row -/

def lastRow (m : SlotMatrix) : List Slot := m.rows.getLast?.getD []

/-- What a row puts under the matrix. -/
def placing (m : SlotMatrix) (row : List Cell) : List (Slot × Cell) := placeFrom m.columnCount 0 m.cells.length row

variable {m : SlotMatrix} {row : List Cell} {i : Nat}

theorem exists_of_mem_lastRow {a : Slot} (ha : a ∈ m.lastRow) : ∃ slots ∈ m.rows, a ∈ slots := by
  unfold lastRow at ha
  cases hl : m.rows.getLast? with
  | none => simp [hl] at ha
  | some slots =>
    rw [hl] at ha
    exact ⟨slots, List.mem_of_getLast? hl, ha⟩

theorem Valid.owner_lt_of_mem_lastRow (hv : m.Valid) : ∀ a ∈ m.lastRow, a.owner < m.cells.length := by
  intro a ha
  obtain ⟨slots, hslots, ha⟩ := exists_of_mem_lastRow ha
  exact hv slots hslots a ha

theorem getElem?_rows_lastRow (m : SlotMatrix) : m.rows[m.rows.length - 1]?.getD [] = m.lastRow := by
  rw [lastRow, List.getLast?_eq_getElem?]

theorem map_owner_placing (m : SlotMatrix) (row : List Cell) :
    (m.placing row).map (fun p => p.1.owner) = List.range' m.cells.length (m.placing row).length :=
  map_owner_placeFrom row 0 m.cells.length

theorem nodup_owner_placing (m : SlotMatrix) (row : List Cell) : ((m.placing row).map fun p => p.1.owner).Nodup := by
  rw [map_owner_placing]
  exact List.nodup_range'

/-- **The matrix after a row**, whatever stands in the row. -/
theorem settleRow_eq_caught (hv : m.Valid) (row : List Cell) :
    m.settleRow row = ⟨m.columnCount,
      (m.placing row).foldl (grow (caught? m.lastRow m.cells)) m.cells ++ (m.placing row).map (·.2),
      m.rows ++ [(m.placing row).map (assign (caught? m.lastRow m.cells))],
      m.pending ++ pendingOf m.rows.length (m.placing row)⟩ := by
  have h := foldl_mergeOne_placed m.columnCount m.rows (m.pending ++ pendingOf m.rows.length (m.placing row))
    (m.placing row) m.cells [] [] hv.owner_lt_of_mem_lastRow (by simp) (map_owner_placing m row)
  simp only [List.nil_append] at h
  exact h

theorem lastRow_settleRow (hv : m.Valid) (row : List Cell) :
    (m.settleRow row).lastRow = (m.placing row).map (assign (caught? m.lastRow m.cells)) := by
  rw [lastRow, settleRow_eq_caught hv]
  simp

theorem of_mem_placing {p : Slot × Cell} (hp : p ∈ m.placing row) : m.cells.length ≤ p.1.owner ∧
    (m.placing row)[p.1.owner - m.cells.length]? = some p := by
  obtain ⟨j, hj⟩ := List.mem_iff_getElem?.1 hp
  have howner := owner_of_getElem?_placeFrom hj
  refine ⟨by omega, ?_⟩
  rw [howner, Nat.add_sub_cancel_left]
  exact hj

theorem caught?_lt (h : caught? m.lastRow m.cells p = some t) : t < m.cells.length := by
  obtain ⟨-, -, c, hc, -⟩ := caught?_eq_some_iff.1 h
  exact (List.getElem?_eq_some_iff.1 hc).1

@[simp] theorem length_foldl_grow (f : Slot × Cell → Option Nat) : ∀ (ps : List (Slot × Cell)) (C : List Cell),
    (ps.foldl (grow f) C).length = C.length
  | [], _ => rfl
  | p :: ps, C => by rw [List.foldl_cons, length_foldl_grow f ps, length_grow]

/-- A cell grows by a row for each slot that comes to name it. -/
theorem getElem?_foldl_grow (f : Slot × Cell → Option Nat) (i : Nat) : ∀ (ps : List (Slot × Cell)) (C : List Cell),
    (ps.foldl (grow f) C)[i]? = C[i]?.map (addRows (ps.countP fun p => f p == some i))
  | [], C => by cases h : C[i]? <;> simp [h, addRows]
  | p :: ps, C => by
    rw [List.foldl_cons, getElem?_foldl_grow f i ps, List.countP_cons, grow]
    cases hp : f p with
    | none => rfl
    | some t =>
      dsimp only
      by_cases ht : t = i
      · subst ht
        rw [List.getElem?_modify_eq, Option.map_eq_map, Option.map_map, beq_self_eq_true, if_pos rfl]
        congr 1
        funext c
        simp only [Function.comp_apply, addRows, Nat.add_assoc, Nat.add_comm 1]
      · rw [List.getElem?_modify_ne _ _ ht, if_neg (by simpa using ht)]
        rfl

theorem length_cells_settleRow (hv : m.Valid) (row : List Cell) :
    (m.settleRow row).cells.length = m.cells.length + (m.placing row).length := by
  rw [settleRow_eq_caught hv]
  simp

theorem getElem?_settleRow_of_lt (hv : m.Valid) (row : List Cell) (hi : i < m.cells.length) :
    (m.settleRow row).cells[i]? =
      m.cells[i]?.map (addRows ((m.placing row).countP fun p => caught? m.lastRow m.cells p == some i)) := by
  rw [settleRow_eq_caught hv, List.getElem?_append_left (by simpa using hi), getElem?_foldl_grow]

theorem getElem?_settleRow_of_mem (hv : m.Valid) (hp : p ∈ m.placing row) :
    (m.settleRow row).cells[p.1.owner]? = some p.2 := by
  obtain ⟨hle, hget⟩ := of_mem_placing hp
  rw [settleRow_eq_caught hv, List.getElem?_append_right (by simpa using hle), length_foldl_grow, List.getElem?_map, hget]
  rfl

theorem Valid.settleRow (hv : m.Valid) (row : List Cell) : (m.settleRow row).Valid :=
  (hv.placeRow row).foldl_mergeOne

theorem valid_empty (N : Nat) : (empty N).Valid := fun _ hs => (List.not_mem_nil hs).elim

theorem columnCount_foldl_settleRow : ∀ (rows : List (List Cell)) {m : SlotMatrix}, m.Valid →
    (rows.foldl SlotMatrix.settleRow m).columnCount = m.columnCount
  | [], _, _ => rfl
  | row :: rows, _, hv => by
    rw [List.foldl_cons, columnCount_foldl_settleRow rows (hv.settleRow row), settleRow_eq_caught hv]

/-! ## Reading order -/

/-- Whether the cell with a number is listed in a layout. -/
def listed (cells : List Cell) (i : Nat) : Bool := !(cells[i]?.any fun c => c.kind.isContinuation)

/-- The slots name cells in the order of their numbers, and every cell that is listed. -/
structure Numbered (m : SlotMatrix) : Prop where
  sublist : m.owners.Sublist (List.range m.cells.length)
  complete : ∀ i < m.cells.length, listed m.cells i = true → i ∈ m.owners

theorem eraseDups_of_nodup : ∀ {l : List Nat}, l.Nodup → l.eraseDups = l
  | [], _ => rfl
  | a :: l, h => by
    obtain ⟨ha, hl⟩ := List.nodup_cons.1 h
    have hf : l.filter (fun b => !b == a) = l := List.filter_eq_self.2 fun b hb => by
      simpa using fun hba : b = a => ha (hba ▸ hb)
    rw [List.eraseDups_cons, hf, eraseDups_of_nodup hl]

/-- A row brings just the numbers of the cells that it begins, in their order. -/
theorem owners_settleRow (hv : m.Valid) (row : List Cell) : (m.settleRow row).owners =
    m.owners ++ ((m.placing row).filter fun p => (caught? m.lastRow m.cells p).isNone).map fun p => p.1.owner := by
  have hnew : (((m.placing row).map (assign (caught? m.lastRow m.cells))).map Slot.owner).removeAll
      (m.rows.flatten.map Slot.owner) =
        ((m.placing row).filter fun p => (caught? m.lastRow m.cells p).isNone).map fun p => p.1.owner := by
    have hcase : ∀ p ∈ m.placing row, (!(m.rows.flatten.map Slot.owner).elem
        (assign (caught? m.lastRow m.cells) p).owner) = (caught? m.lastRow m.cells p).isNone := by
      intro p hp
      cases hc : caught? m.lastRow m.cells p with
      | none =>
        suffices hfresh : p.1.owner ∉ m.rows.flatten.map Slot.owner by simpa [assign, hc] using hfresh
        intro hold
        obtain ⟨s, hs, hsp⟩ := List.mem_map.1 hold
        obtain ⟨slots, hslots, hs⟩ := List.mem_flatten.1 hs
        have hlt := hv slots hslots s hs
        have hle := (of_mem_placing hp).1
        omega
      | some t =>
        obtain ⟨-, ⟨a, ha, -, rfl⟩, -⟩ := caught?_eq_some_iff.1 hc
        suffices hold : a.owner ∈ m.rows.flatten.map Slot.owner by simpa [assign, hc] using hold
        exact List.mem_map_of_mem (List.mem_flatten.2 (exists_of_mem_lastRow ha))
    rw [List.map_map, List.removeAll, List.filter_map]
    refine (congrArg _ (List.filter_congr hcase)).trans (List.map_congr_left fun p hp => ?_)
    have hc := Option.isNone_iff_eq_none.1 (List.mem_filter.1 hp).2
    simp [assign, hc]
  have hnodup : (((m.placing row).filter fun p => (caught? m.lastRow m.cells p).isNone).map fun p => p.1.owner).Nodup :=
    (nodup_owner_placing m row).sublist (List.filter_sublist.map _)
  unfold owners
  rw [settleRow_eq_caught hv]
  dsimp only
  rw [List.flatten_append, List.map_append, List.flatten_singleton, List.eraseDups_append, hnew, eraseDups_of_nodup hnodup]

theorem Numbered.settleRow (hv : m.Valid) (h : m.Numbered) (row : List Cell) : (m.settleRow row).Numbered := by
  constructor
  · rw [owners_settleRow hv, length_cells_settleRow hv, List.range_eq_range', ← List.range'_append_1, Nat.zero_add,
      ← List.range_eq_range']
    refine h.sublist.append ?_
    rw [← map_owner_placing]
    exact List.filter_sublist.map _
  · intro i hi hlisted
    rw [owners_settleRow hv]
    by_cases hold : i < m.cells.length
    · refine List.mem_append_left _ (h.complete i hold ?_)
      rw [listed, getElem?_settleRow_of_lt hv row hold] at hlisted
      rw [listed, ← hlisted]
      cases m.cells[i]? <;> simp [addRows]
    · rw [length_cells_settleRow hv] at hi
      have hj : (m.placing row)[i - m.cells.length]? = some (m.placing row)[i - m.cells.length] :=
        List.getElem?_eq_getElem (by omega)
      have howner := owner_of_getElem?_placeFrom hj
      have hp := List.mem_of_getElem? hj
      generalize (m.placing row)[i - m.cells.length] = p at howner hp
      obtain rfl : i = p.1.owner := by omega
      refine List.mem_append_right _ (List.mem_map_of_mem (f := fun p => p.1.owner) (List.mem_filter.2 ⟨hp, ?_⟩))
      rw [listed, getElem?_settleRow_of_mem hv hp] at hlisted
      rw [caught?_eq_none (by simpa using hlisted)]
      rfl

theorem Numbered.foldl_settleRow : ∀ (rows : List (List Cell)) {m : SlotMatrix}, m.Valid → m.Numbered →
    (rows.foldl SlotMatrix.settleRow m).Numbered
  | [], _, _, h => h
  | row :: rows, _, hv, h => Numbered.foldl_settleRow rows (hv.settleRow row) (h.settleRow hv row)

/-- The cells that are listed are named in the order of their numbers. -/
theorem Numbered.filter_owners (h : m.Numbered) :
    m.owners.filter (listed m.cells) = (List.range m.cells.length).filter (listed m.cells) := by
  refine (h.sublist.filter _).eq_of_length_le (List.Subperm.length_le (List.Nodup.subperm ?_ fun i hi => ?_))
  · exact List.nodup_range.filter _
  · obtain ⟨hi, hlisted⟩ := List.mem_filter.1 hi
    exact List.mem_filter.2 ⟨h.complete i (List.mem_range.1 hi) hlisted, hlisted⟩

theorem filterMap_range_filter {α : Type} (f : α → Bool) (l : List α) :
    ((List.range l.length).filter fun i => l[i]?.any f).filterMap (fun i => l[i]?) = l.filter f := by
  induction l using List.reverseRecOn with
  | nil => rfl
  | append_singleton l a ih =>
    have hlt : ∀ i ∈ List.range l.length, (l ++ [a])[i]? = l[i]? :=
      fun i hi => List.getElem?_append_left (List.mem_range.1 hi)
    have hfilter : (List.range l.length).filter (fun i => (l ++ [a])[i]?.any f) =
        (List.range l.length).filter fun i => l[i]?.any f :=
      List.filter_congr fun i hi => by rw [hlt i hi]
    have hmap : ((List.range l.length).filter fun i => l[i]?.any f).filterMap (fun i => (l ++ [a])[i]?) =
        ((List.range l.length).filter fun i => l[i]?.any f).filterMap fun i => l[i]? :=
      List.filterMap_congr fun i hi => hlt i (List.mem_of_mem_filter hi)
    rw [List.length_append, List.length_singleton, List.range_succ, List.filter_append, List.filterMap_append, hfilter, hmap,
      ih, List.filter_append]
    congr 1
    cases hk : f a <;> simp [hk]

theorem listed_eq_any {cells : List Cell} (hi : i < cells.length) :
    listed cells i = cells[i]?.any fun c => !c.kind.isContinuation := by
  simp [listed, List.getElem?_eq_getElem hi]

theorem numbered_empty (N : Nat) : (empty N).Numbered :=
  ⟨List.nil_sublist _, fun _ hi => absurd hi (Nat.not_lt_zero _)⟩

theorem numbered_merge (N : Nat) (rows : List (List Cell)) : (rows.foldl placeRow (empty N)).merge.Numbered := by
  rw [merge_foldl_placeRow]
  have h := Numbered.foldl_settleRow rows (valid_empty N) (numbered_empty N)
  exact ⟨h.sublist, h.complete⟩

theorem Numbered.cells_toLayout (h : m.Numbered) : m.toLayout.cells = m.cells.filter fun c => !c.kind.isContinuation := by
  have hfilter : (m.owners.filterMap fun i => m.cells[i]?).filter (fun c => !c.kind.isContinuation) =
      (m.owners.filter (listed m.cells)).filterMap fun i => m.cells[i]? := by
    rw [← List.filterMap_eq_filter, List.filterMap_filterMap, List.filterMap_filter]
    refine List.filterMap_congr fun i _ => ?_
    cases hi : m.cells[i]? with
    | none => simp
    | some c => simp [listed, hi, Option.guard]
  show (m.owners.filterMap fun i => m.cells[i]?).filter _ = _
  rw [hfilter, h.filter_owners, List.filter_congr fun i hi => listed_eq_any (List.mem_range.1 hi), filterMap_range_filter]

/-- **Reading order is the order of placing**, of any rows. -/
theorem cells_toLayout_foldl (N : Nat) (rows : List (List Cell)) :
    (rows.foldl placeRow (empty N)).merge.toLayout.cells =
      (rows.foldl settleRow (empty N)).cells.filter fun c => !c.kind.isContinuation := by
  rw [(numbered_merge N rows).cells_toLayout, merge_foldl_placeRow]

end SlotMatrix
end Gridmark
