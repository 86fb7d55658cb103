import Gridmark.Proofs.Fates
/-!
# Census — every cell once, with its rows

A matrix keeps the cells that stand in its rows under the numbers in which they were placed.  A cell that goes on is named
in one more row, the next one, and by one slot of it: two slots of one width cannot both start within the slot above
(`Counted.countP_caught?_le`).  So the finished cells are those that were placed, continuations left out, and a cell is
named in just as many rows as it has, from its own row on (`cells_toLayout_standing`).
-/
namespace Gridmark

open Picture

namespace SlotMatrix

/-- A cell as a row of so many columns has it: cut at the last column, and nothing behind it. -/
def cutAt? (N : Nat) (q : Nat × Cell) : Option Cell :=
  if q.1 < N then some { q.2 with columnSpan := min q.2.columnSpan (N - q.1) } else none

/-- The cells that stand in rows of so many columns, each with the number of its row, from the given one on. -/
def standing (N : Nat) : Nat → List (List Cell) → List (Nat × Cell)
  | _, [] => []
  | k, row :: rows => ((placed 0 row).filterMap (cutAt? N)).map (k, ·) ++ standing N (k + 1) rows

/-- The number of slots of a row that name a cell. -/
def naming (m : SlotMatrix) (i row : Nat) : Nat := (m.rows[row]?.getD []).countP fun s => s.owner == i

/-- The cell is named by one slot in each of so many rows, from the given one on, and in no other row. -/
def Stands (m : SlotMatrix) (i top rows : Nat) : Prop :=
  ∀ row, m.naming i row = if top ≤ row ∧ row < top + rows then 1 else 0

/-- The cells of a matrix are the given ones, each with its row, as far as they have grown. -/
structure Counted (m : SlotMatrix) (all : List (Nat × Cell)) : Prop where
  valid : m.Valid
  length : all.length = m.cells.length
  cell : ∀ (i : Nat) (q : Nat × Cell) (c : Cell), all[i]? = some q → m.cells[i]? = some c →
    c.kind = q.2.kind ∧ c.columnSpan = q.2.columnSpan ∧ (q.2.kind.isContent = false → c.rowSpan = 1)
  stands : ∀ (i : Nat) (q : Nat × Cell) (c : Cell), all[i]? = some q → m.cells[i]? = some c → q.2.kind.isContinuation = false →
    q.1 + c.rowSpan ≤ m.rows.length ∧ m.Stands i q.1 c.rowSpan
  wide : ∀ slots ∈ m.rows, ∀ s ∈ slots, ∃ c, m.cells[s.owner]? = some c ∧ s.stop = s.start + c.columnSpan

variable {m : SlotMatrix} {row : List Cell} {all : List (Nat × Cell)} {i : Nat}

/-! ## What stands in a row -/

theorem map_snd_placeFrom {N : Nat} (hN : N ≤ Count.ceiling) : ∀ (cs : List Cell) (s i : Nat),
    (placeFrom N (min s Count.ceiling) i cs).map Prod.snd = (placed s cs).filterMap (cutAt? N)
  | [], _, _ => rfl
  | c :: cs, s, i => by
    have hnext : Count.add (min s Count.ceiling) c.columnSpan = min (s + c.columnSpan) Count.ceiling := by
      unfold Count.add
      omega
    have ih := map_snd_placeFrom hN cs (s + c.columnSpan)
    rw [placeFrom, placed, hnext]
    by_cases hs : s < N
    · have hcut : cutAt? N (s, c) = some { c with columnSpan := min c.columnSpan (N - s) } := if_pos hs
      have hspan : min (min (s + c.columnSpan) Count.ceiling) N - min s Count.ceiling = min c.columnSpan (N - s) := by omega
      rw [if_neg (by omega), List.filterMap_cons_some hcut, List.map_cons, ih, hspan]
    · have hcut : cutAt? N (s, c) = none := if_neg hs
      rw [if_pos (by omega), List.filterMap_cons_none hcut, ih]

theorem map_snd_placing (hN : m.columnCount ≤ Count.ceiling) (row : List Cell) :
    (m.placing row).map Prod.snd = (placed 0 row).filterMap (cutAt? m.columnCount) := by
  have h := map_snd_placeFrom hN row 0 m.cells.length
  rwa [Nat.zero_min] at h

/-! ## Who is named -/

theorem countP_le_one {α : Type} {f : α → Bool} : ∀ {l : List α},
    l.Pairwise (fun a b => ¬(f a = true ∧ f b = true)) → l.countP f ≤ 1
  | [], _ => Nat.zero_le _
  | a :: l, h => by
    obtain ⟨ha, hl⟩ := List.pairwise_cons.1 h
    rw [List.countP_cons]
    by_cases hfa : f a = true
    · have hzero : l.countP f = 0 := List.countP_eq_zero.2 fun b hb hfb => ha b hb ⟨hfa, hfb⟩
      simp [hzero, hfa]
    · simpa [hfa] using countP_le_one hl

theorem eq_of_countP_le_one {α : Type} {f : α → Bool} {l : List α} {a b : α} (h : l.countP f ≤ 1) (ha : a ∈ l) (hb : b ∈ l)
    (hfa : f a = true) (hfb : f b = true) : a = b := by
  rw [List.countP_eq_length_filter] at h
  have hma := List.mem_filter.2 ⟨ha, hfa⟩
  have hmb := List.mem_filter.2 ⟨hb, hfb⟩
  match hl : l.filter f, h with
  | [], _ => rw [hl] at hma; cases hma
  | [c], _ =>
    rw [hl, List.mem_singleton] at hma hmb
    rw [hma, hmb]

theorem naming_of_le {r : Nat} (h : m.rows.length ≤ r) (i : Nat) : m.naming i r = 0 := by
  simp [naming, List.getElem?_eq_none h]

theorem naming_settleRow_of_lt (hv : m.Valid) (row : List Cell) {r : Nat} (hr : r < m.rows.length) (i : Nat) :
    (m.settleRow row).naming i r = m.naming i r := by
  rw [settleRow_eq_caught hv, naming, naming, List.getElem?_append_left hr]

theorem naming_settleRow_length (hv : m.Valid) (row : List Cell) (i : Nat) :
    (m.settleRow row).naming i m.rows.length =
      (m.placing row).countP fun p => (caught? m.lastRow m.cells p).getD p.1.owner == i := by
  rw [settleRow_eq_caught hv, naming]
  dsimp only
  rw [List.getElem?_concat_length, Option.getD_some, List.countP_map]
  rfl

theorem length_rows_settleRow (hv : m.Valid) (row : List Cell) : (m.settleRow row).rows.length = m.rows.length + 1 := by
  rw [settleRow_eq_caught hv]
  simp

/-- The new row names an old cell where a continuation is caught by it. -/
theorem naming_settleRow_old (hv : m.Valid) (row : List Cell) (hi : i < m.cells.length) :
    (m.settleRow row).naming i m.rows.length =
      (m.placing row).countP fun p => caught? m.lastRow m.cells p == some i := by
  rw [naming_settleRow_length hv]
  refine List.countP_congr fun p hp => ?_
  have hle := (of_mem_placing hp).1
  cases caught? m.lastRow m.cells p with
  | none => simpa using (show p.1.owner ≠ i by omega)
  | some t => simp

theorem naming_settleRow_new (hv : m.Valid) {p : Slot × Cell} (hp : p ∈ m.placing row)
    (hk : p.2.kind.isContinuation = false) : (m.settleRow row).naming p.1.owner m.rows.length = 1 := by
  rw [naming_settleRow_length hv]
  have hcount : ((m.placing row).map fun p => p.1.owner).count p.1.owner = 1 :=
    List.count_eq_one_of_mem (nodup_owner_placing m row) (List.mem_map_of_mem hp)
  rw [List.count, List.countP_map] at hcount
  rw [← hcount]
  refine List.countP_congr fun q hq => ?_
  cases hc : caught? m.lastRow m.cells q with
  | none => simp
  | some t =>
    have hlt := caught?_lt hc
    have hle := (of_mem_placing hp).1
    have hne : q.1.owner ≠ p.1.owner := by
      intro ho
      rw [List.inj_on_of_nodup_map (nodup_owner_placing m row) hq hp ho, caught?_eq_none hk] at hc
      cases hc
    simpa [hne] using (show t ≠ p.1.owner by omega)

/-! ## One row -/

theorem not_isContinuation {k : CellKind} (h : k.isContent = true) : k.isContinuation = false := by
  cases k <;> simp_all [CellKind.isContent, CellKind.isContinuation]

section Row

variable (h : m.Counted all)
include h

/-- A cell of the row above that catches a continuation has its last row there. -/
theorem Counted.of_caught? {p : Slot × Cell} {q : Nat × Cell} {c : Cell} (hq : all[i]? = some q)
    (hc : m.cells[i]? = some c) (hp : caught? m.lastRow m.cells p = some i) :
    q.2.kind.isContent = true ∧ q.1 + c.rowSpan = m.rows.length := by
  obtain ⟨-, ⟨a, ha, -, rfl⟩, c', hc', hk, -⟩ := caught?_eq_some_iff.1 hp
  obtain rfl : c = c' := Option.some.inj (hc.symm.trans hc')
  have hcontent : q.2.kind.isContent = true := (h.cell _ _ _ hq hc).1 ▸ hk
  refine ⟨hcontent, ?_⟩
  obtain ⟨hle, hst⟩ := h.stands _ _ _ hq hc (not_isContinuation hcontent)
  have hpos : 0 < m.naming a.owner (m.rows.length - 1) := by
    rw [naming, getElem?_rows_lastRow]
    exact List.countP_pos_iff.2 ⟨a, ha, by simp⟩
  rw [hst] at hpos
  split at hpos
  · omega
  · cases hpos

theorem Counted.exists_getElem? (hi : i < m.cells.length) : ∃ q, all[i]? = some q :=
  ⟨_, List.getElem?_eq_getElem (h.length ▸ hi)⟩

/-- **A cell catches one continuation of a row at most.** -/
theorem Counted.countP_caught?_le (row : List Cell) (hi : i < m.cells.length) :
    (m.placing row).countP (fun p => caught? m.lastRow m.cells p == some i) ≤ 1 := by
  refine countP_le_one ((pairwise_placeFrom (Nat.zero_le _)).imp_of_mem fun {p p'} hp _ hpp => ?_)
  simp only [beq_iff_eq]
  rintro ⟨hpi, hpi'⟩
  obtain ⟨q, hq⟩ := h.exists_getElem? hi
  obtain ⟨-, ⟨a, ha, hacovers, hai⟩, c, hc, -, hspan⟩ := caught?_eq_some_iff.1 hpi
  obtain ⟨-, ⟨b, hb, hbcovers, hbi⟩, -⟩ := caught?_eq_some_iff.1 hpi'
  have hone : m.lastRow.countP (fun s => s.owner == i) ≤ 1 := by
    obtain ⟨hcontent, -⟩ := h.of_caught? hq hc hpi
    rw [← getElem?_rows_lastRow]
    refine ((h.stands i q c hq hc (not_isContinuation hcontent)).2 _).trans_le ?_
    split <;> omega
  -- both start within the one slot above that names the cell, and each is as wide as it
  obtain rfl : a = b := eq_of_countP_le_one hone ha hb (by simpa using hai) (by simpa using hbi)
  have hcovers := List.find?_some hacovers
  have hcovers' := List.find?_some hbcovers
  simp only [Slot.covers, Bool.and_eq_true, decide_eq_true_eq] at hcovers hcovers'
  obtain ⟨slots, hslots, ha⟩ := exists_of_mem_lastRow ha
  obtain ⟨c', hc', hwide⟩ := h.wide slots hslots a ha
  rw [hai, hc] at hc'
  obtain rfl := Option.some.inj hc'
  have hstop := (of_mem_placeFrom (Nat.zero_le _) p hp).2.2.1
  omega

/-- An old cell, with the row that it may have got. -/
theorem Counted.stands_old (row : List Cell) {q : Nat × Cell} {c : Cell} (hq : all[i]? = some q)
    (hc : m.cells[i]? = some c) (hk : q.2.kind.isContinuation = false) :
    let n := (m.placing row).countP fun p => caught? m.lastRow m.cells p == some i
    q.1 + (c.rowSpan + n) ≤ m.rows.length + 1 ∧ (m.settleRow row).Stands i q.1 (c.rowSpan + n) := by
  intro n
  have hi : i < m.cells.length := (List.getElem?_eq_some_iff.1 hc).1
  obtain ⟨hle, hst⟩ := h.stands i q c hq hc hk
  have hn : n ≤ 1 := h.countP_caught?_le row hi
  have hlast : 0 < n → q.1 + c.rowSpan = m.rows.length := by
    intro hpos
    obtain ⟨p, -, hp⟩ := List.countP_pos_iff.1 hpos
    exact (h.of_caught? hq hc (by simpa using hp)).2
  refine ⟨by omega, fun r => ?_⟩
  rcases Nat.lt_trichotomy r m.rows.length with hr | rfl | hr
  · rw [naming_settleRow_of_lt h.valid row hr, hst]
    congr 1
    by_cases hpos : 0 < n
    · have := hlast hpos
      simp only [eq_iff_iff]
      omega
    · simp only [eq_iff_iff]
      omega
  · rw [naming_settleRow_old h.valid row hi]
    show n = _
    split <;> omega
  · rw [naming_of_le (by rw [length_rows_settleRow h.valid]; exact hr), if_neg (by omega)]

theorem Counted.stands_new (row : List Cell) {p : Slot × Cell} (hp : p ∈ m.placing row)
    (hk : p.2.kind.isContinuation = false) : (m.settleRow row).Stands p.1.owner m.rows.length 1 := by
  intro r
  rcases Nat.lt_trichotomy r m.rows.length with hr | rfl | hr
  · rw [naming_settleRow_of_lt h.valid row hr, if_neg (by omega), naming, List.getElem?_eq_getElem hr, Option.getD_some,
      List.countP_eq_zero]
    intro s hs
    have hlt := h.valid _ (List.getElem_mem hr) s hs
    have hle := (of_mem_placing hp).1
    simpa using (show s.owner ≠ p.1.owner by omega)
  · rw [naming_settleRow_new h.valid hp hk, if_pos (by omega)]
  · rw [naming_of_le (by rw [length_rows_settleRow h.valid]; exact hr), if_neg (by omega)]

/-- After a row a number is an old one, of a cell that may have grown, or that of a cell of the row. -/
theorem Counted.cases_settleRow (row : List Cell) {q : Nat × Cell} {c : Cell}
    (hq : (all ++ ((m.placing row).map Prod.snd).map (m.rows.length, ·))[i]? = some q)
    (hc : (m.settleRow row).cells[i]? = some c) :
    (∃ c₀, all[i]? = some q ∧ m.cells[i]? = some c₀ ∧
      c = addRows ((m.placing row).countP fun p => caught? m.lastRow m.cells p == some i) c₀) ∨
      ∃ p ∈ m.placing row, p.1.owner = i ∧ q = (m.rows.length, p.2) ∧ c = p.2 := by
  by_cases hi : i < m.cells.length
  · rw [List.getElem?_append_left (h.length ▸ hi)] at hq
    rw [getElem?_settleRow_of_lt h.valid row hi] at hc
    obtain ⟨c₀, hc₀, rfl⟩ := Option.map_eq_some_iff.1 hc
    exact .inl ⟨c₀, hq, hc₀, rfl⟩
  · rw [List.getElem?_append_right (by rw [h.length]; omega), List.map_map, List.getElem?_map, h.length] at hq
    obtain ⟨p, hj, rfl⟩ := Option.map_eq_some_iff.1 hq
    have hp := List.mem_of_getElem? hj
    have howner := owner_of_getElem?_placeFrom hj
    obtain rfl : p.1.owner = i := by omega
    rw [getElem?_settleRow_of_mem h.valid hp] at hc
    exact .inr ⟨p, hp, rfl, rfl, (Option.some.inj hc).symm⟩

/-- Only content catches anything. -/
theorem Counted.countP_caught?_eq_zero (row : List Cell) {q : Nat × Cell} {c : Cell} (hq : all[i]? = some q)
    (hc : m.cells[i]? = some c) (hcontent : q.2.kind.isContent = false) :
    (m.placing row).countP (fun p => caught? m.lastRow m.cells p == some i) = 0 := by
  refine List.countP_eq_zero.2 fun p _ hp => ?_
  rw [(h.of_caught? hq hc (by simpa using hp)).1] at hcontent
  cases hcontent

/-- A slot is as wide as the cell that it comes to name, for a cell catches only what is as wide as itself. -/
theorem Counted.wide_settleRow (row : List Cell) : ∀ slots ∈ (m.settleRow row).rows, ∀ s ∈ slots,
    ∃ c, (m.settleRow row).cells[s.owner]? = some c ∧ s.stop = s.start + c.columnSpan := by
  have hv := h.valid
  have hold : ∀ {i : Nat} {c : Cell}, m.cells[i]? = some c →
      ∃ c', (m.settleRow row).cells[i]? = some c' ∧ c'.columnSpan = c.columnSpan := by
    intro i c hc
    rw [getElem?_settleRow_of_lt hv row (List.getElem?_eq_some_iff.1 hc).1, hc]
    exact ⟨_, rfl, rfl⟩
  intro slots hslots s hs
  rw [settleRow_eq_caught hv] at hslots
  rcases List.mem_append.1 hslots with hslots | hslots
  · obtain ⟨c, hc, hstop⟩ := h.wide slots hslots s hs
    obtain ⟨c', hc', hspan⟩ := hold hc
    exact ⟨c', hc', by rw [hstop, hspan]⟩
  · rw [List.mem_singleton.1 hslots] at hs
    obtain ⟨p, hp, rfl⟩ := List.mem_map.1 hs
    have hstop : p.1.stop = p.1.start + p.2.columnSpan := (of_mem_placeFrom (Nat.zero_le _) p hp).2.2.1
    cases hc : caught? m.lastRow m.cells p with
    | none =>
      rw [assign, hc]
      exact ⟨p.2, getElem?_settleRow_of_mem hv hp, hstop⟩
    | some t =>
      obtain ⟨-, -, c, hct, -, hspan⟩ := caught?_eq_some_iff.1 hc
      obtain ⟨c', hc', hspan'⟩ := hold hct
      rw [assign, hc]
      exact ⟨c', hc', by rw [hspan', hspan]; exact hstop⟩

/-- **A further row** keeps the count of the cells. -/
theorem Counted.settleRow (row : List Cell) (hrow : ∀ c ∈ row, c.rowSpan = 1) :
    (m.settleRow row).Counted (all ++ ((m.placing row).map Prod.snd).map (m.rows.length, ·)) := by
  have hv := h.valid
  have hsingle : ∀ p ∈ m.placing row, p.2.rowSpan = 1 := by
    intro p hp
    obtain ⟨-, -, -, c, hc, he⟩ := of_mem_placeFrom (Nat.zero_le _) p hp
    rw [he]
    exact hrow c hc
  constructor
  case valid => exact hv.settleRow row
  case length =>
    rw [length_cells_settleRow hv]
    simp [h.length]
  case cell =>
    intro i q c hq hc
    rcases h.cases_settleRow row hq hc with ⟨c₀, hq, hc₀, rfl⟩ | ⟨p, hp, rfl, rfl, rfl⟩
    · obtain ⟨hkind, hspan, hone⟩ := h.cell i q c₀ hq hc₀
      refine ⟨hkind, hspan, fun hcontent => ?_⟩
      rw [h.countP_caught?_eq_zero row hq hc₀ hcontent]
      exact hone hcontent
    · exact ⟨rfl, rfl, fun _ => hsingle p hp⟩
  case stands =>
    intro i q c hq hc hk
    rw [length_rows_settleRow hv]
    rcases h.cases_settleRow row hq hc with ⟨c₀, hq, hc₀, rfl⟩ | ⟨p, hp, rfl, rfl, rfl⟩
    · exact h.stands_old row hq hc₀ hk
    · rw [hsingle p hp]
      exact ⟨Nat.le_refl _, h.stands_new row hp hk⟩
  case wide => exact h.wide_settleRow row

end Row

/-! ## All rows -/

theorem counted_empty (N : Nat) : (empty N).Counted [] := by
  refine ⟨valid_empty N, rfl, ?_, ?_, ?_⟩
  · simp
  · simp
  · simp [empty]

/-- **The count after all rows.** -/
theorem Counted.foldl_settleRow : ∀ (rows : List (List Cell)) {m : SlotMatrix} {all : List (Nat × Cell)},
    m.Counted all → m.columnCount ≤ Count.ceiling → (∀ row ∈ rows, ∀ c ∈ row, c.rowSpan = 1) →
    (rows.foldl SlotMatrix.settleRow m).Counted (all ++ standing m.columnCount m.rows.length rows)
  | [], _, _, h, _, _ => by
    rw [standing, List.append_nil]
    exact h
  | row :: rows, m, all, h, hN, hrows => by
    have hcolumns : (m.settleRow row).columnCount = m.columnCount := columnCount_foldl_settleRow [row] h.valid
    have hnext := Counted.foldl_settleRow rows (h.settleRow row (hrows row List.mem_cons_self)) (by rwa [hcolumns])
      fun row hrow => hrows row (List.mem_cons_of_mem _ hrow)
    rw [hcolumns, length_rows_settleRow h.valid, map_snd_placing hN, List.append_assoc] at hnext
    exact hnext

theorem forall₂_filterMap {α β : Type} {R : α → β → Prop} {f : α → Option β} : ∀ {l : List α},
    (∀ a ∈ l, ∃ b, f a = some b ∧ R a b) → List.Forall₂ R l (l.filterMap f)
  | [], _ => .nil
  | a :: l, h => by
    obtain ⟨b, hb, hR⟩ := h a List.mem_cons_self
    rw [List.filterMap_cons_some hb]
    exact .cons hR (forall₂_filterMap fun a ha => h a (List.mem_cons_of_mem _ ha))

/-- The numbered cell is the given one of a row with its kind and its columns, one row high if it is empty.  It is named by
one slot in each of its rows, of which the given one is the first, and by no other slot. -/
def Keeps (m : SlotMatrix) (i : Nat) (q : Nat × Cell) : Prop :=
  ∃ c, m.cells[i]? = some c ∧ c.kind = q.2.kind ∧ c.columnSpan = q.2.columnSpan ∧ (c.kind = .empty → c.rowSpan = 1) ∧
    m.Stands i q.1 c.rowSpan

/-- **No cell is lost, doubled or moved.**  The finished cells are those that stand in the rows, row by row and from the left,
without the continuations. -/
theorem cells_toLayout_standing {N : Nat} (hN : N ≤ Count.ceiling) {rows : List (List Cell)}
    (hrows : ∀ row ∈ rows, ∀ c ∈ row, c.rowSpan = 1) :
    let m := (rows.foldl placeRow (empty N)).merge
    (∀ c ∈ m.toLayout.cells, c.kind.isContinuation = false) ∧
      ∃ owners : List Nat, owners.Nodup ∧ m.toLayout.cells = owners.filterMap (fun i => m.cells[i]?) ∧
        List.Forall₂ m.Keeps owners ((standing N 0 rows).filter fun q => !q.2.kind.isContinuation) := by
  intro m
  have hm : m = { rows.foldl settleRow (empty N) with pending := [] } := merge_foldl_placeRow N rows
  have hcounted : m.Counted (standing N 0 rows) := by
    have h := Counted.foldl_settleRow rows (counted_empty N) hN hrows
    rw [hm]
    exact ⟨h.valid, h.length, h.cell, h.stands, h.wide⟩
  have hcells := (numbered_merge N rows).cells_toLayout
  have hsame : ∀ i ∈ List.range m.cells.length, (m.cells[i]?.any fun c => !c.kind.isContinuation) =
      (standing N 0 rows)[i]?.any fun q => !q.2.kind.isContinuation := by
    intro i hi
    have hc := List.getElem?_eq_getElem (List.mem_range.1 hi)
    obtain ⟨q, hq⟩ := hcounted.exists_getElem? (List.mem_range.1 hi)
    rw [hc, hq, Option.any_some, Option.any_some, (hcounted.cell i q _ hq hc).1]
  refine ⟨fun c hc => ?_, _, List.nodup_range.filter _, hcells.trans (filterMap_range_filter _ _).symm, ?_⟩
  · rw [hcells] at hc
    simpa using (List.mem_filter.1 hc).2
  · rw [List.filter_congr hsame, ← hcounted.length, ← filterMap_range_filter _ (standing N 0 rows)]
    refine forall₂_filterMap fun i hi => ?_
    obtain ⟨hi, hlisted⟩ := List.mem_filter.1 hi
    rw [hcounted.length] at hi
    have hc := List.getElem?_eq_getElem (List.mem_range.1 hi)
    obtain ⟨q, hq⟩ := hcounted.exists_getElem? (List.mem_range.1 hi)
    rw [hq, Option.any_some, Bool.not_eq_true'] at hlisted
    obtain ⟨hkind, hspan, hone⟩ := hcounted.cell i q _ hq hc
    refine ⟨q, hq, _, hc, hkind, hspan, fun he => hone ?_, (hcounted.stands i q _ hq hc hlisted).2⟩
    rw [← hkind, he]
    rfl

/-- Two columns: a heading over both, an empty cell and a letter beside it, and a row in which the letter goes on. -/
def ladderRows : List (List Cell) :=
  [[Cell.ofKind (.content (Element.prose ['h'])) 3], [Cell.ofKind .empty 1, Cell.ofKind (.content (Element.prose ['a'])) 1],
    [Cell.ofKind .continuation 1, Cell.ofKind .continuation 5, Cell.ofKind (.content (Element.prose ['b'])) 1]]

theorem cells_toLayout_standing_ladder :
    let m := (ladderRows.foldl placeRow (empty 2)).merge
    m.toLayout.cells.map (fun c => (c.columnSpan, c.rowSpan)) = [(2, 1), (1, 1), (1, 2)] ∧
      ∃ owners : List Nat, owners.Nodup ∧ m.toLayout.cells = owners.filterMap (fun i => m.cells[i]?) ∧
        List.Forall₂ m.Keeps owners ((standing 2 0 ladderRows).filter fun q => !q.2.kind.isContinuation) :=
  ⟨by decide, (cells_toLayout_standing (by decide) (by decide)).2⟩

end SlotMatrix
end Gridmark
