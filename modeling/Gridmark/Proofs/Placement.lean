import Gridmark.Proofs.Fates
/-!
# Placement — what a picture is read as

Rows are settled one after the other, and of what stands above a row only the slots of the row right above count
(`Frontier`).  A cell grows by a row just where the next row goes on at its column, so in the end every cell has the rows
that the picture gives it, and the slots name the cells in the order in which the picture lists them
(`toLayout_of_isPicture`).
-/
namespace Gridmark

open Picture

namespace SlotMatrix

/-- What the next row sees of a matrix whose last row is the given one. -/
structure Frontier (C : List Cell) (row : List Cell) (above : List Slot) : Prop where
  apart : above.Pairwise fun a b => a.stop ≤ b.start
  pos : ∀ a ∈ above, a.start < a.stop
  nodup : above.Pairwise fun a b => a.owner ≠ b.owner
  valid : ∀ a ∈ above, a.owner < C.length
  shows : ∀ q ∈ placed 0 row, q.2.kind ≠ .empty →
    ∃ a ∈ above, a.start = q.1 ∧ ∃ c, C[a.owner]? = some c ∧ c.kind.isContent = true ∧ c.columnSpan = q.2.columnSpan

@[simp] theorem length_foldl_growHit (above : List Slot) (ps : List (Slot × Cell)) (C : List Cell) :
    (ps.foldl (growHit above) C).length = C.length :=
  length_foldl_grow (hit? above) ps C

theorem getElem?_foldl_growHit (above : List Slot) (i : Nat) (ps : List (Slot × Cell)) (C : List Cell) :
    (ps.foldl (growHit above) C)[i]? = C[i]?.map (addRows (hits above i ps)) :=
  getElem?_foldl_grow (hit? above) i ps C

theorem find?_covers : ∀ {above : List Slot} {a : Slot}, above.Pairwise (fun a b => a.stop ≤ b.start) →
    (∀ a ∈ above, a.start < a.stop) → a ∈ above → above.find? (fun s => s.covers a.start) = some a
  | b :: above, a, hp, hpos, ha => by
    obtain ⟨hb, hp⟩ := List.pairwise_cons.1 hp
    have h0 := hpos b List.mem_cons_self
    rcases List.mem_cons.1 ha with rfl | ha
    · rw [List.find?_cons_of_pos]
      simp [Slot.covers, h0]
    · have h1 := hb a ha
      rw [List.find?_cons_of_neg, find?_covers hp (fun c hc => hpos c (List.mem_cons_of_mem _ hc)) ha]
      simp only [Slot.covers, Bool.and_eq_true, decide_eq_true_eq]
      omega

theorem find?_owner : ∀ {above : List Slot} {a : Slot}, above.Pairwise (fun a b => a.owner ≠ b.owner) → a ∈ above →
    above.find? (fun s => s.owner == a.owner) = some a
  | b :: above, a, hp, ha => by
    obtain ⟨hb, hp⟩ := List.pairwise_cons.1 hp
    rcases List.mem_cons.1 ha with rfl | ha
    · rw [List.find?_cons_of_pos]
      simp
    · rw [List.find?_cons_of_neg (by simpa using hb a ha), find?_owner hp ha]

/-- The number of rows under a matrix that go on with the cell of a number. -/
def growth (above : List Slot) (rows : List (List Cell)) (i : Nat) : Nat :=
  match above.find? fun a => a.owner == i with
  | some a => depth a.start rows
  | none => 0

theorem growth_of_mem {above : List Slot} (h : above.Pairwise fun a b => a.owner ≠ b.owner) {a : Slot} (ha : a ∈ above)
    (rows : List (List Cell)) : growth above rows a.owner = depth a.start rows := by
  rw [growth, find?_owner h ha]

theorem growth_of_not_mem {above : List Slot} {i : Nat} (h : ∀ a ∈ above, a.owner ≠ i) (rows : List (List Cell)) :
    growth above rows i = 0 := by
  rw [growth, List.find?_eq_none.2 (by simpa using h)]

namespace Frontier

variable {C row r : List Cell} {above : List Slot} (hf : Frontier C row above) (ha : Aligned row r)
include hf ha

/-- A continuation of an aligned row goes on with the cell of the slot that starts where it starts. -/
theorem exists_slot {q : Nat × Cell} (hq : q ∈ placed 0 r) (hk : q.2.kind.isContinuation = true) :
    ∃ a ∈ above, a.start = q.1 ∧ targetIn above q.1 = some a.owner ∧
      ∃ c, C[a.owner]? = some c ∧ c.kind.isContent = true ∧ c.columnSpan = q.2.columnSpan := by
  obtain ⟨d, hd, hds, hdk⟩ := ha q hq hk
  obtain ⟨a, hm, hs, c, hc, hck, hcs⟩ := hf.shows _ hd hdk
  refine ⟨a, hm, hs, ?_, c, hc, hck, hcs.trans hds⟩
  rw [targetIn, ← show a.start = q.1 from hs, find?_covers hf.apart hf.pos hm]
  rfl

theorem absorbed {q : Nat × Cell} (hq : q ∈ placed 0 r) (hk : q.2.kind.isContinuation = true) : Absorbed above C q := by
  obtain ⟨a, -, -, ht, c, hc, hck, hcs⟩ := hf.exists_slot ha hq hk
  exact ⟨a.owner, c, ht, hc, hck, hcs⟩

omit ha in
theorem eq_of_owner {a b : Slot} (hma : a ∈ above) (hmb : b ∈ above) (h : a.owner = b.owner) : a = b := by
  have h1 := find?_owner hf.nodup hma
  rw [h, find?_owner hf.nodup hmb] at h1
  exact (Option.some.inj h1).symm

theorem hit?_eq_iff {p : Slot × Cell} (hp : (p.1.start, p.2) ∈ placed 0 r) {a : Slot} (hm : a ∈ above) :
    hit? above p = some a.owner ↔ continuesAt a.start (p.1.start, p.2) = true := by
  unfold hit? continuesAt
  cases hk : p.2.kind.isContinuation with
  | false => simp
  | true =>
    obtain ⟨b, hb, hbs, ht, -⟩ := hf.exists_slot ha hp hk
    simp only [if_true, ht, Option.some.injEq, Bool.and_true, beq_iff_eq]
    constructor
    · intro ho
      rw [← show b.start = p.1.start from hbs, hf.eq_of_owner hb hm ho]
    · intro hs
      have h1 := find?_covers hf.apart hf.pos hb
      have h2 := find?_covers hf.apart hf.pos hm
      rw [show b.start = p.1.start from hbs] at h1
      rw [← hs, h1] at h2
      rw [Option.some.inj h2]

/-- A cell grows by a row just where the row goes on at its slot. -/
theorem hits_eq (hpos : ∀ c ∈ r, 0 < c.columnSpan) {a : Slot} (hm : a ∈ above) (i : Nat) :
    hits above a.owner (slotsFrom 0 i r) = if (placed 0 r).any (continuesAt a.start) then 1 else 0 := by
  rw [← countP_continuesAt hpos, ← map_placed_slotsFrom 0 i r, List.countP_map, hits]
  refine List.countP_congr fun p hp => ?_
  rw [beq_iff_eq]
  exact hf.hit?_eq_iff ha (mem_placed_of_mem_slotsFrom hp) hm

theorem hits_eq_zero {t i : Nat} (hn : ∀ a ∈ above, a.owner ≠ t) : hits above t (slotsFrom 0 i r) = 0 := by
  refine List.countP_eq_zero.2 fun p hp h => ?_
  have hp' := mem_placed_of_mem_slotsFrom hp
  unfold hit? at h
  split at h
  · rename_i hk
    obtain ⟨a, hm, -, ht, -⟩ := hf.exists_slot ha hp' hk
    rw [ht, beq_iff_eq] at h
    exact hn a hm (Option.some.inj h)
  · simp at h

/-- A slot of the settled row is the slot of a new cell, or it goes on with the cell of a slot above. -/
theorem settled_cases {i : Nat} {p : Slot × Cell} (hp : p ∈ slotsFrom 0 i r) :
    (settled above p = p.1 ∧ p.2.kind.isContinuation = false) ∨
      ∃ a ∈ above, (settled above p).owner = a.owner ∧ a.start = p.1.start ∧ p.2.kind.isContinuation = true ∧
        ∃ c, C[a.owner]? = some c ∧ c.kind.isContent = true ∧ c.columnSpan = p.2.columnSpan := by
  have hp' := mem_placed_of_mem_slotsFrom hp
  cases hk : p.2.kind.isContinuation with
  | false =>
    refine .inl ⟨?_, rfl⟩
    rw [settled, show hit? above p = none by simp [hit?, hk]]
    rfl
  | true =>
    obtain ⟨a, hm, hs, ht, hc⟩ := hf.exists_slot ha hp' hk
    refine .inr ⟨a, hm, ?_, hs, rfl, hc⟩
    rw [settled, show hit? above p = some a.owner by simp [hit?, hk, ht]]
    rfl

/-- No two slots of the settled row name one cell. -/
theorem nodup_settled (hpos : ∀ c ∈ r, 0 < c.columnSpan) :
    ((slotsFrom 0 C.length r).map (settled above)).Pairwise fun a b => a.owner ≠ b.owner := by
  refine List.pairwise_map.2 ((pairwise_slotsFrom r 0 C.length).imp_of_mem fun {p q} hp hq h => ?_)
  have h1 := of_mem_slotsFrom hp
  have h2 := of_mem_slotsFrom hq
  have h3 := hpos p.2 (List.mem_of_getElem? h1.2.2)
  rcases hf.settled_cases ha hp with ⟨hs, -⟩ | ⟨a, hma, hao, has, -⟩
  · rcases hf.settled_cases ha hq with ⟨ht, -⟩ | ⟨b, hmb, hbo, -⟩
    · rw [hs, ht]
      omega
    · have := hf.valid b hmb
      rw [hs, hbo]
      omega
  · rcases hf.settled_cases ha hq with ⟨ht, -⟩ | ⟨b, hmb, hbo, hbs, -⟩
    · have := hf.valid a hma
      rw [ht, hao]
      omega
    · intro ho
      rw [hao, hbo] at ho
      have hab := hf.eq_of_owner hma hmb ho
      rw [hab] at has
      omega

/-- What a cell of the row shows is a cell of the matrix, new or grown. -/
theorem exists_settled {q : Nat × Cell} (hq : q ∈ placed 0 r) (hk : q.2.kind ≠ .empty) :
    ∃ a ∈ (slotsFrom 0 C.length r).map (settled above), a.start = q.1 ∧
      ∃ c, ((slotsFrom 0 C.length r).foldl (growHit above) C ++ r)[a.owner]? = some c ∧ c.kind.isContent = true ∧
        c.columnSpan = q.2.columnSpan := by
  obtain ⟨sl, hm, hs⟩ := exists_mem_slotsFrom (i := C.length) hq
  refine ⟨settled above (sl, q.2), List.mem_map_of_mem hm, hs, ?_⟩
  have h1 := of_mem_slotsFrom hm
  rcases hf.settled_cases ha hm with ⟨ht, hkc⟩ | ⟨a, hma, hao, -, -, c, hc, hck, hcs⟩
  · rw [ht]
    refine ⟨q.2, ?_, ?_, rfl⟩
    · rw [List.getElem?_append_right (by rw [length_foldl_growHit]; exact h1.2.1), length_foldl_growHit]
      exact h1.2.2
    · obtain ⟨s, kind, columnSpan, rowSpan⟩ := q
      cases kind with
      | empty => exact absurd rfl hk
      | continuation => cases hkc
      | content e => rfl
  · rw [hao]
    refine ⟨addRows (hits above a.owner (slotsFrom 0 C.length r)) c, ?_, hck, hcs⟩
    rw [List.getElem?_append_left (by rw [length_foldl_growHit]; exact hf.valid a hma), getElem?_foldl_growHit, hc]
    rfl

theorem next (hpos : ∀ c ∈ r, 0 < c.columnSpan) :
    Frontier ((slotsFrom 0 C.length r).foldl (growHit above) C ++ r) r ((slotsFrom 0 C.length r).map (settled above)) where
  apart := List.pairwise_map.2 ((pairwise_slotsFrom r 0 C.length).imp fun h => h.1)
  pos := by
    intro b hb
    obtain ⟨p, hp, rfl⟩ := List.mem_map.1 hb
    have h1 := of_mem_slotsFrom hp
    have h2 := hpos p.2 (List.mem_of_getElem? h1.2.2)
    show p.1.start < p.1.stop
    omega
  nodup := hf.nodup_settled ha hpos
  valid := by
    intro b hb
    obtain ⟨p, hp, rfl⟩ := List.mem_map.1 hb
    have h1 := of_mem_slotsFrom hp
    have h2 := (List.getElem?_eq_some_iff.1 h1.2.2).1
    rw [List.length_append, length_foldl_growHit]
    rcases hf.settled_cases ha hp with ⟨hs, -⟩ | ⟨a, hma, hao, -⟩
    · rw [hs]
      omega
    · have := hf.valid a hma
      rw [hao]
      omega
  shows _ hq hk := hf.exists_settled ha hq hk

/-- **A row passes the growth of its cells on**: what a cell grows by in all rows is what it grows by in the first and then
in the others. -/
theorem hits_add_growth (hpos : ∀ c ∈ r, 0 < c.columnSpan) (rest : List (List Cell)) {i : Nat} (hi : i < C.length) :
    hits above i (slotsFrom 0 C.length r) + growth ((slotsFrom 0 C.length r).map (settled above)) rest i =
      growth above (r :: rest) i := by
  have hn := (hf.next ha hpos).nodup
  -- A slot of the row that names an old cell goes on with the slot above that names it.
  have hold : ∀ b ∈ (slotsFrom 0 C.length r).map (settled above), b.owner = i →
      ∃ a ∈ above, a.owner = i ∧ (placed 0 r).any (continuesAt a.start) = true := by
    intro b hb ho
    obtain ⟨p, hp, rfl⟩ := List.mem_map.1 hb
    have h1 := of_mem_slotsFrom hp
    rcases hf.settled_cases ha hp with ⟨hs, -⟩ | ⟨a, hma, hao, has, hk, -⟩
    · rw [hs] at ho
      omega
    · refine ⟨a, hma, hao.symm.trans ho, List.any_eq_true.2 ⟨(p.1.start, p.2), ?_, by simp [continuesAt, hk, has]⟩⟩
      exact mem_placed_of_mem_slotsFrom hp
  by_cases hex : ∃ a ∈ above, a.owner = i
  · obtain ⟨a, hm, rfl⟩ := hex
    rw [hf.hits_eq ha hpos hm, growth_of_mem hf.nodup hm, depth]
    split
    · rename_i hany
      obtain ⟨q, hq, hqa⟩ := List.any_eq_true.1 hany
      obtain ⟨sl, hsl, hs⟩ := exists_mem_slotsFrom (i := C.length) hq
      simp only [continuesAt, Bool.and_eq_true, beq_iff_eq] at hqa
      rcases hf.settled_cases ha hsl with ⟨-, hk⟩ | ⟨b, hmb, hbo, hbs, -⟩
      · rw [hqa.2] at hk
        cases hk
      · have hab : a.owner = (settled above (sl, q.2)).owner := by
          have h1 := find?_covers hf.apart hf.pos hm
          have h2 := find?_covers hf.apart hf.pos hmb
          rw [show b.start = a.start by rw [hbs, hs, hqa.1], h1] at h2
          rw [hbo, Option.some.inj h2]
        rw [hab, growth_of_mem hn (List.mem_map_of_mem hsl), Nat.add_comm, show (settled above (sl, q.2)).start = a.start from
          hs.trans hqa.1]
    · rename_i hany
      refine (Nat.zero_add _).trans (growth_of_not_mem (fun b hb ho => ?_) rest)
      obtain ⟨a', hm', ho', hany'⟩ := hold b hb ho
      rw [hf.eq_of_owner hm' hm ho'] at hany'
      exact hany hany'
  · have hno : ∀ a ∈ above, a.owner ≠ i := fun a hm ho => hex ⟨a, hm, ho⟩
    rw [hf.hits_eq_zero ha hno, growth_of_not_mem hno, Nat.zero_add]
    refine growth_of_not_mem (fun b hb ho => ?_) rest
    obtain ⟨a, hm, ho', -⟩ := hold b hb ho
    exact hno a hm ho'

theorem filter_new (hpos : ∀ c ∈ r, 0 < c.columnSpan) (rest : List (List Cell)) :
    ((slotsFrom 0 C.length r).map fun p =>
        addRows (growth ((slotsFrom 0 C.length r).map (settled above)) rest p.1.owner) p.2).filter
      (fun c => !c.kind.isContinuation) = (placed 0 r).filterMap (grown? rest) := by
  have hn := (hf.next ha hpos).nodup
  rw [← map_placed_slotsFrom 0 C.length r, List.filterMap_map, List.filter_map, ← List.filterMap_eq_filter,
    ← List.filterMap_eq_map, List.filterMap_filterMap]
  refine List.filterMap_congr fun p hp => ?_
  rcases hf.settled_cases ha hp with ⟨hs, hk⟩ | ⟨a, -, -, -, hk, -⟩
  · have hg := growth_of_mem hn (List.mem_map_of_mem hp) rest
    rw [hs] at hg
    simp [grown?, addRows, hk, hg]
  · simp [grown?, addRows, hk]

end Frontier

theorem caught?_of_absorbed {above : List Slot} {C : List Cell} {p : Slot × Cell} (h : Absorbed above C (p.1.start, p.2))
    (hk : p.2.kind.isContinuation = true) : caught? above C p = hit? above p := by
  obtain ⟨t, c, ht, hc, hck, hcs⟩ := h
  have hcs : c.columnSpan = p.2.columnSpan := hcs
  rw [caught?, hit?, if_pos hk, show targetIn above p.1.start = some t from ht, Option.filter_some, if_pos]
  simp [hc, takes, hck, hcs]

theorem mapIdx_slotsFrom (f : Nat → Cell → Cell) : ∀ (cs : List Cell) (s i : Nat),
    cs.mapIdx (fun j c => f (j + i) c) = (slotsFrom s i cs).map fun p => f p.1.owner p.2
  | [], _, _ => rfl
  | c :: cs, s, i => by
    rw [List.mapIdx_cons, slotsFrom, List.map_cons, ← mapIdx_slotsFrom f cs (s + c.columnSpan) (i + 1)]
    simp only [Nat.zero_add, Nat.add_assoc, Nat.add_comm 1]

/-- **The matrix after an aligned row**, in which every continuation is caught. -/
theorem settleRow_eq {N : Nat} (hN : N ≤ Count.ceiling) {m : SlotMatrix} (hm : m.columnCount = N) (hv : m.Valid)
    {row r : List Cell} (hf : Frontier m.cells row m.lastRow) (ha : Aligned row r) (hr : Fits N r) :
    (m.settleRow r).columnCount = N ∧
      (m.settleRow r).cells = (slotsFrom 0 m.cells.length r).foldl (growHit m.lastRow) m.cells ++ r ∧
      (m.settleRow r).rows = m.rows ++ [(slotsFrom 0 m.cells.length r).map (settled m.lastRow)] := by
  have hp : m.placing r = slotsFrom 0 m.cells.length r := by
    rw [placing, hm]
    exact placeFrom_eq_slotsFrom hN m.cells.length hr.span_pos (by rw [Nat.zero_add]; exact hr.width_le)
  have hcaught : ∀ p ∈ slotsFrom 0 m.cells.length r, caught? m.lastRow m.cells p = hit? m.lastRow p := by
    intro p hp
    cases hk : p.2.kind.isContinuation with
    | false => rw [caught?_eq_none hk, hit?, hk, if_neg Bool.false_ne_true]
    | true => exact caught?_of_absorbed (hf.absorbed ha (mem_placed_of_mem_slotsFrom hp) hk) hk
  rw [settleRow_eq_caught hv, hp, map_snd_slotsFrom]
  refine ⟨hm, ?_, ?_⟩
  · dsimp only
    congr 1
    exact List.foldl_ext _ _ _ fun C p hp => grow_congr (hcaught p hp) C
  · dsimp only
    congr 2
    exact List.map_congr_left fun p hp => by rw [assign, hcaught p hp, settled]

/-- The cells after all rows, from a matrix whose last row is the given one. -/
theorem cells_foldl_settleRow {N : Nat} (hN : N ≤ Count.ceiling) : ∀ (rest : List (List Cell)) {m : SlotMatrix}
    {row : List Cell}, m.columnCount = N → m.Valid → Frontier m.cells row (m.lastRow) → (∀ r ∈ rest, Fits N r) →
    (row :: rest).IsChain Aligned →
    (rest.foldl settleRow m).cells.filter (fun c => !c.kind.isContinuation) =
      (m.cells.mapIdx fun i c => addRows (growth m.lastRow rest i) c).filter
        (fun c => !c.kind.isContinuation) ++ Picture.cells rest
  | [], m, row, _, _, _, _, _ => by
    have h0 : (m.cells.mapIdx fun i c => addRows (growth m.lastRow [] i) c) = m.cells := by
      refine List.mapIdx_eq_iff.2 fun i => ?_
      have hg : growth m.lastRow [] i = 0 := by
        unfold growth
        split <;> rfl
      rw [hg]
      cases m.cells[i]? <;> rfl
    rw [h0, List.foldl_nil, Picture.cells, List.append_nil]
  | r :: rest, m, row, hm, hv, hf, hfit, hc => by
    obtain ⟨ha, hc⟩ := List.isChain_cons_cons.1 hc
    have hr := hfit r List.mem_cons_self
    obtain ⟨h1, h2, h3⟩ := settleRow_eq hN hm hv hf ha hr
    have hl : (m.settleRow r).lastRow = (slotsFrom 0 m.cells.length r).map (settled m.lastRow) := by
      rw [lastRow, h3]
      simp
    have hf' := hf.next ha hr.span_pos
    rw [← h2, ← hl] at hf'
    rw [List.foldl_cons, cells_foldl_settleRow hN rest h1 (hv.settleRow r) hf' (fun r hr => hfit r (List.mem_cons_of_mem _ hr)) hc, hl, h2,
      List.mapIdx_append, List.filter_append, List.append_assoc, Picture.cells, length_foldl_growHit,
      mapIdx_slotsFrom (fun i c => addRows (growth _ rest i) c) r 0, hf.filter_new ha hr.span_pos rest]
    congr 2
    refine List.ext_getElem? fun i => ?_
    rw [List.getElem?_mapIdx, List.getElem?_mapIdx, getElem?_foldl_growHit, Option.map_map]
    cases hi : m.cells[i]? with
    | none => rfl
    | some c =>
      have := hf.hits_add_growth ha hr.span_pos rest (List.getElem?_eq_some_iff.1 hi).1
      rw [Option.map_some, Option.map_some, ← this]
      simp only [Function.comp_apply, addRows, Nat.add_assoc]

theorem frontier_nil : Frontier [] [] [] :=
  ⟨List.Pairwise.nil, by simp, List.Pairwise.nil, by simp, by simp [placed]⟩

/-- **A picture is read as its cells.** -/
theorem toLayout_of_isPicture {N : Nat} (hN : N ≤ Count.ceiling) {rows : List (List Cell)} (h : IsPicture N rows) :
    (rows.foldl placeRow (empty N)).merge.toLayout = ⟨N, Picture.cells rows⟩ := by
  have hcolumns : (rows.foldl placeRow (empty N)).merge.columnCount = N := by
    rw [merge_foldl_placeRow]
    exact columnCount_foldl_settleRow rows (valid_empty N)
  have hcells := cells_foldl_settleRow hN rows (m := empty N) rfl (valid_empty N) frontier_nil h.fits h.aligned
  exact congr (congrArg Layout.mk hcolumns) ((cells_toLayout_foldl N rows).trans hcells)

end SlotMatrix
end Gridmark
