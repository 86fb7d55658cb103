import Gridmark.Proofs.Packing
/-!
# Tiling — a layout of rectangles that cover a grid

A cell of several rows is a rectangle.  Rectangles in reading order that cover every slot of a grid exactly once are the
cells of a picture with a row for every row of the grid: in a row stand the tiles that take part in it, from left to right,
as themselves in their top row and as continuations below (`shows_rows`).  The rows are full, so the pen closes each just
where it ends.
-/
namespace Gridmark

/-- A cell with its top row and its first column. -/
structure Tile where
  row : Nat
  column : Nat
  cell : Cell

namespace Tile

def spans (p : Tile) (r : Nat) : Bool := p.row ≤ r && r < p.row + p.cell.rowSpan

/-- Whether the slot at a row and a column is the tile's. -/
def covers (p : Tile) (r k : Nat) : Prop := p.spans r = true ∧ p.column ≤ k ∧ k < p.column + p.cell.columnSpan

/-- What a row shows of the tile. -/
def face (r : Nat) (p : Tile) : Cell := ⟨if p.row = r then p.cell.kind else .continuation, p.cell.columnSpan, 1⟩

end Tile

/-- Tiles in reading order that cover every slot of a grid exactly once. -/
structure Tiling (N height : Nat) (tiles : List Tile) : Prop where
  ordered : tiles.Pairwise fun p q => p.row < q.row ∨ p.row = q.row ∧ p.column < q.column
  inside : ∀ p ∈ tiles, p.row + p.cell.rowSpan ≤ height ∧ p.column + p.cell.columnSpan ≤ N
  covered : ∀ r < height, ∀ k < N, ∃! p, p ∈ tiles ∧ p.covers r k

namespace Tile

open Picture

variable {N height r : Nat} {tiles : List Tile} {p q : Tile}

theorem spans_iff : p.spans r = true ↔ p.row ≤ r ∧ r < p.row + p.cell.rowSpan := by
  simp [spans]

def across (tiles : List Tile) (r : Nat) : List Tile :=
  (tiles.filter fun p => p.spans r).mergeSort fun p q => p.column ≤ q.column

theorem mem_across : p ∈ across tiles r ↔ p ∈ tiles ∧ p.spans r = true := by
  rw [across, List.mem_mergeSort, List.mem_filter]

theorem pairwise_across_le : (across tiles r).Pairwise fun p q => p.column ≤ q.column := by
  have htrans : ∀ p q t : Tile, decide (p.column ≤ q.column) = true → decide (q.column ≤ t.column) = true →
      decide (p.column ≤ t.column) = true := by
    simp only [decide_eq_true_eq]
    omega
  have htotal : ∀ p q : Tile, (decide (p.column ≤ q.column) || decide (q.column ≤ p.column)) = true := by
    simp only [Bool.or_eq_true, decide_eq_true_eq]
    omega
  exact (List.pairwise_mergeSort htrans htotal _).imp fun h => by simpa using h

/-- A cell that takes slots and that rows below can carry on where it has any. -/
structure Proper (p : Tile) : Prop where
  columnSpan_pos : 0 < p.cell.columnSpan
  rowSpan_pos : 0 < p.cell.rowSpan
  not_continuation : p.cell.kind.isContinuation = false
  rowSpan_empty : p.cell.kind = .empty → p.cell.rowSpan = 1

theorem Proper.covers_column (h : p.Proper) (hr : p.spans r = true) : p.covers r p.column :=
  ⟨hr, Nat.le_refl _, Nat.lt_add_of_pos_right h.columnSpan_pos⟩

theorem Proper.isContinuation_face (h : p.Proper) : (p.face r).kind.isContinuation = true ↔ p.row ≠ r := by
  unfold face
  dsimp only
  split
  · rename_i hr
    simp [h.not_continuation, hr]
  · rename_i hr
    simpa [CellKind.isContinuation] using hr

end Tile

namespace Tiling

open Picture Tile

variable {N height r : Nat} {tiles : List Tile} {p q : Tile}

theorem eq_of_covers (h : Tiling N height tiles) (hp : p ∈ tiles) (hq : q ∈ tiles) {k : Nat} (hpk : p.covers r k)
    (hqk : q.covers r k) : p = q := by
  have hr : r < height := by
    have := (h.inside p hp).1
    have := (spans_iff.1 hpk.1).2
    omega
  have hk : k < N := by
    have := (h.inside p hp).2
    have := hpk.2.2
    omega
  exact (h.covered r hr k hk).unique ⟨hp, hpk⟩ ⟨hq, hqk⟩

theorem pairwise_across (h : Tiling N height tiles) (hproper : ∀ p ∈ tiles, p.Proper) :
    (across tiles r).Pairwise fun p q => p.column < q.column := by
  have hnd : (across tiles r).Nodup := by
    have htiles : tiles.Nodup := h.ordered.imp fun hpq he => by
      subst he
      omega
    exact (List.mergeSort_perm _ _).nodup_iff.2 (htiles.filter _)
  refine (pairwise_across_le.and hnd).imp_of_mem fun {p q} hp hq hpq => Nat.lt_of_le_of_ne hpq.1 fun hc => hpq.2 ?_
  obtain ⟨hp, hpr⟩ := mem_across.1 hp
  obtain ⟨hq, hqr⟩ := mem_across.1 hq
  refine h.eq_of_covers hp hq ((hproper p hp).covers_column hpr) ?_
  rw [hc]
  exact (hproper q hq).covers_column hqr

/-- Tiles from left to right that leave no gap stand where a row puts them. -/
theorem placed_map_face : ∀ {ps : List Tile} {s : Nat}, s ≤ N → ps.Pairwise (fun p q => p.column < q.column) →
    (∀ p ∈ ps, s ≤ p.column ∧ 0 < p.cell.columnSpan ∧ p.column + p.cell.columnSpan ≤ N) →
    (∀ k, s ≤ k → k < N → ∃ p ∈ ps, p.column ≤ k ∧ k < p.column + p.cell.columnSpan) →
    (∀ p ∈ ps, ∀ q ∈ ps, p.column ≤ q.column → q.column < p.column + p.cell.columnSpan → p = q) →
    placed s (ps.map (face r)) = ps.map (fun p => (p.column, p.face r)) ∧ s + width (ps.map (face r)) = N
  | [], s, hs, _, _, hcover, _ => by
    refine ⟨rfl, ?_⟩
    rcases Nat.lt_or_eq_of_le hs with hs | rfl
    · obtain ⟨p, hp, -⟩ := hcover s (Nat.le_refl s) hs
      cases hp
    · rfl
  | p :: ps, s, hs, hlt, hin, hcover, hapart => by
    obtain ⟨hpq, hps⟩ := List.pairwise_cons.1 hlt
    obtain ⟨hp, hspan, hend⟩ := hin p List.mem_cons_self
    have hcol : p.column = s := by
      obtain ⟨q, hq, hqs, -⟩ := hcover s (Nat.le_refl s) (by omega)
      rcases List.mem_cons.1 hq with rfl | hq
      · omega
      · have := hpq q hq
        omega
    have hnext : ∀ q ∈ ps, p.column + p.cell.columnSpan ≤ q.column := by
      intro q hq
      by_contra hlt
      have := hpq q hq
      have hpe := hapart p List.mem_cons_self q (List.mem_cons_of_mem _ hq) (by omega) (by omega)
      rw [hpe] at this
      omega
    obtain ⟨h1, h2⟩ := placed_map_face (s := s + p.cell.columnSpan) (by omega) hps
      (fun q hq => by
        have := hin q (List.mem_cons_of_mem _ hq)
        have := hnext q hq
        omega)
      (fun k hk hkN => by
        obtain ⟨q, hq, hqk⟩ := hcover k (by omega) hkN
        rcases List.mem_cons.1 hq with rfl | hq
        · omega
        · exact ⟨q, hq, hqk⟩)
      (fun q hq q' hq' => hapart q (List.mem_cons_of_mem _ hq) q' (List.mem_cons_of_mem _ hq'))
    rw [List.map_cons, placed, width_cons, List.map_cons, hcol]
    have hf : (face r p).columnSpan = p.cell.columnSpan := rfl
    rw [hf, h1]
    exact ⟨rfl, by omega⟩

def row (tiles : List Tile) (r : Nat) : List Cell := (across tiles r).map (face r)

theorem placed_row (h : Tiling N height tiles) (hproper : ∀ p ∈ tiles, p.Proper) (hr : r < height) :
    placed 0 (row tiles r) = (across tiles r).map (fun p => (p.column, p.face r)) ∧ width (row tiles r) = N := by
  have hrow := placed_map_face (r := r) (Nat.zero_le N) (h.pairwise_across hproper)
    (fun p hp => by
      have hp := (mem_across.1 hp).1
      exact ⟨Nat.zero_le _, (hproper p hp).columnSpan_pos, (h.inside p hp).2⟩)
    (fun k _ hk => by
      obtain ⟨p, ⟨hp, hpk⟩, -⟩ := h.covered r hr k hk
      exact ⟨p, mem_across.2 ⟨hp, hpk.1⟩, hpk.2⟩)
    (fun p hp q hq h1 h2 => by
      obtain ⟨hp, hpr⟩ := mem_across.1 hp
      obtain ⟨hq, hqr⟩ := mem_across.1 hq
      exact h.eq_of_covers hp hq ⟨hpr, h1, h2⟩ ((hproper q hq).covers_column hqr))
  rw [Nat.zero_add] at hrow
  exact hrow

theorem fits_row (h : Tiling N height tiles) (hproper : ∀ p ∈ tiles, p.Proper) (hN : 0 < N) (hr : r < height) :
    Fits N (row tiles r) := by
  have hw := (h.placed_row hproper hr).2
  refine ⟨fun he => ?_, fun c hc => ?_, fun c hc => ?_, Nat.le_of_eq hw⟩
  · rw [he, width_nil] at hw
    omega
  · obtain ⟨p, hp, rfl⟩ := List.mem_map.1 hc
    exact (hproper p (mem_across.1 hp).1).columnSpan_pos
  · obtain ⟨p, -, rfl⟩ := List.mem_map.1 hc
    rfl

/-- A tile stands at one column in every row it takes part in. -/
theorem aligned_row (h : Tiling N height tiles) (hproper : ∀ p ∈ tiles, p.Proper) (hr : r + 1 < height) :
    Aligned (row tiles r) (row tiles (r + 1)) := by
  intro q hq hc
  rw [(h.placed_row hproper hr).1] at hq
  obtain ⟨p, hp, rfl⟩ := List.mem_map.1 hq
  obtain ⟨hp, hspans⟩ := mem_across.1 hp
  have hpp := hproper p hp
  have hne := hpp.isContinuation_face.1 hc
  have hs := spans_iff.1 hspans
  have habove : p.spans r = true := spans_iff.2 ⟨by omega, by omega⟩
  refine ⟨p.face r, ?_, rfl, ?_⟩
  · rw [(h.placed_row hproper (by omega)).1]
    exact List.mem_map.2 ⟨p, mem_across.2 ⟨hp, habove⟩, rfl⟩
  · unfold face
    dsimp only
    split
    · intro he
      have := hpp.rowSpan_empty he
      omega
    · exact CellKind.noConfusion

theorem aligned_top (h : Tiling N height tiles) (hproper : ∀ p ∈ tiles, p.Proper) (hr : 0 < height) :
    Aligned [] (row tiles 0) := by
  intro q hq hc
  rw [(h.placed_row hproper hr).1] at hq
  obtain ⟨p, hp, rfl⟩ := List.mem_map.1 hq
  obtain ⟨hp, hspans⟩ := mem_across.1 hp
  have := (hproper p hp).isContinuation_face.1 hc
  have := (spans_iff.1 hspans).1
  omega

/-! ## The rows -/

def rowsFrom (tiles : List Tile) (r n : Nat) : List (List Cell) := (List.range' r n).map (row tiles)

theorem rowsFrom_succ (tiles : List Tile) (r n : Nat) : rowsFrom tiles r (n + 1) = row tiles r :: rowsFrom tiles (r + 1) n := by
  rw [rowsFrom, List.range'_succ, List.map_cons]
  rfl

theorem exists_of_mem_rowsFrom {c : List Cell} {n : Nat} (h : c ∈ rowsFrom tiles r n) :
    ∃ i, r ≤ i ∧ i < r + n ∧ c = row tiles i := by
  obtain ⟨i, hi, rfl⟩ := List.mem_map.1 h
  rw [List.mem_range'_1] at hi
  exact ⟨i, hi.1, hi.2, rfl⟩

theorem isChain_rowsFrom (h : Tiling N height tiles) (hproper : ∀ p ∈ tiles, p.Proper) : ∀ {n r : Nat}, r + n < height →
    (row tiles r :: rowsFrom tiles (r + 1) n).IsChain Aligned
  | 0, _, _ => List.isChain_singleton _
  | n + 1, r, hr => by
    rw [rowsFrom_succ]
    exact List.isChain_cons_cons.2 ⟨h.aligned_row hproper (by omega), h.isChain_rowsFrom hproper (by omega)⟩

/-- **A tile is carried on through all of its rows**, and no further. -/
theorem depth_rowsFrom (h : Tiling N height tiles) (hproper : ∀ p ∈ tiles, p.Proper) : ∀ {n r : Nat} {p : Tile},
    r + n = height → p ∈ tiles → p.row < r → r ≤ p.row + p.cell.rowSpan →
    depth p.column (rowsFrom tiles r n) = p.row + p.cell.rowSpan - r
  | 0, r, p, hn, hp, _, _ => by
    have := (h.inside p hp).1
    show 0 = _
    omega
  | n + 1, r, p, hn, hp, hlt, hle => by
    rw [rowsFrom_succ, depth, (h.placed_row hproper (by omega)).1]
    rcases Nat.lt_or_eq_of_le hle with hr | hr
    · have hspans : p.spans r = true := spans_iff.2 ⟨by omega, hr⟩
      have hany : ((across tiles r).map fun p => (p.column, p.face r)).any (continuesAt p.column) = true := by
        refine List.any_eq_true.2 ⟨_, List.mem_map.2 ⟨p, mem_across.2 ⟨hp, hspans⟩, rfl⟩, ?_⟩
        rw [continuesAt, (hproper p hp).isContinuation_face.2 (by omega)]
        simp
      rw [if_pos hany, h.depth_rowsFrom hproper (by omega) hp (by omega) (by omega)]
      omega
    · rw [if_neg]
      · omega
      · intro hany
        obtain ⟨_, hm, hc⟩ := List.any_eq_true.1 hany
        obtain ⟨q, hq, rfl⟩ := List.mem_map.1 hm
        obtain ⟨hq, hspans⟩ := mem_across.1 hq
        simp only [continuesAt, Bool.and_eq_true, beq_iff_eq] at hc
        have hne := (hproper q hq).isContinuation_face.1 hc.2
        have hs := spans_iff.1 hspans
        have habove : ∀ t ∈ tiles, t.row < r → r ≤ t.row + t.cell.rowSpan → t.covers (r - 1) t.column := fun t ht h1 h2 =>
          (hproper t ht).covers_column (spans_iff.2 ⟨by omega, by omega⟩)
        -- the row above belongs to both tiles at this column
        have he : q = p := by
          refine h.eq_of_covers hq hp (habove q hq (by omega) (by omega)) ?_
          rw [hc.1]
          exact habove p hp hlt (by omega)
        rw [he] at hs
        omega

theorem filter_row_eq (h : Tiling N height tiles) (hproper : ∀ p ∈ tiles, p.Proper) :
    (across tiles r).filter (fun p => p.row = r) = tiles.filter fun p => p.row = r := by
  have hperm : ((across tiles r).filter fun p => p.row = r).Perm (tiles.filter fun p => p.row = r) := by
    refine ((List.mergeSort_perm _ _).filter _).trans (List.Perm.of_eq ?_)
    rw [List.filter_filter]
    refine List.filter_congr fun p hp => ?_
    have := (hproper p hp).rowSpan_pos
    by_cases hr : p.row = r
    · rw [spans_iff.2 ⟨by omega, by omega⟩, Bool.and_true]
    · simp [hr]
  have hacross := (h.pairwise_across hproper (r := r)).filter fun p => p.row = r
  have htiles : (tiles.filter fun p => p.row = r).Pairwise fun p q => p.column < q.column := by
    refine (h.ordered.filter fun p => p.row = r).imp_of_mem fun hp hq hpq => ?_
    have hp := List.of_mem_filter hp
    have hq := List.of_mem_filter hq
    simp only [decide_eq_true_eq] at hp hq
    omega
  exact List.Perm.eq_of_pairwise (fun p q _ _ h1 h2 => absurd h1 (Nat.lt_asymm h2)) hacross htiles hperm

theorem filter_le_eq : ∀ {tiles : List Tile} (r : Nat),
    tiles.Pairwise (fun p q => p.row < q.row ∨ p.row = q.row ∧ p.column < q.column) →
    tiles.filter (fun p => r ≤ p.row) = tiles.filter (fun p => p.row = r) ++ tiles.filter fun p => r + 1 ≤ p.row
  | [], _, _ => rfl
  | p :: tiles, r, h => by
    obtain ⟨hp, ht⟩ := List.pairwise_cons.1 h
    have ih := filter_le_eq r ht
    rcases Nat.lt_trichotomy p.row r with hr | hr | hr
    · rw [List.filter_cons_of_neg (by simpa using hr), List.filter_cons_of_neg (by simp; omega),
        List.filter_cons_of_neg (by simp; omega), ih]
    · rw [List.filter_cons_of_pos (by simp; omega), List.filter_cons_of_pos (by simpa using hr),
        List.filter_cons_of_neg (by simp; omega), ih]
      rfl
    · have hnil : tiles.filter (fun q => q.row = r) = [] := List.filter_eq_nil_iff.2 fun q hq => by
        have := hp q hq
        simp only [decide_eq_true_eq]
        omega
      rw [hnil, List.nil_append] at ih
      rw [List.filter_cons_of_pos (by simp; omega), List.filter_cons_of_neg (by simp; omega),
        List.filter_cons_of_pos (by simp; omega), hnil, ih]
      rfl

/-- The cells that are new in a row are the tiles that start there. -/
theorem filterMap_grown?_row (h : Tiling N height tiles) (hproper : ∀ p ∈ tiles, p.Proper) {n : Nat}
    (hn : r + (n + 1) = height) : (placed 0 (row tiles r)).filterMap (grown? (rowsFrom tiles (r + 1) n)) =
      (tiles.filter fun p => p.row = r).map Tile.cell := by
  have hg : ∀ p ∈ across tiles r, grown? (rowsFrom tiles (r + 1) n) (p.column, p.face r) =
      if p.row = r then some p.cell else none := by
    intro p hp
    obtain ⟨hp, hspans⟩ := mem_across.1 hp
    have hpp := hproper p hp
    have hs := spans_iff.1 hspans
    rw [grown?]
    split
    · rename_i hc
      rw [if_neg (hpp.isContinuation_face.1 hc)]
    · rename_i hc
      have hr : p.row = r := by
        by_contra hr
        exact hc (hpp.isContinuation_face.2 hr)
      have hspan : 1 + (p.row + p.cell.rowSpan - (r + 1)) = p.cell.rowSpan := by omega
      rw [if_pos hr, h.depth_rowsFrom hproper (by omega) hp (by omega) (by omega)]
      show some (⟨if p.row = r then p.cell.kind else .continuation, p.cell.columnSpan,
        1 + (p.row + p.cell.rowSpan - (r + 1))⟩ : Cell) = some p.cell
      rw [if_pos hr, hspan]
  rw [(h.placed_row hproper (by omega)).1, List.filterMap_map, ← h.filter_row_eq hproper, ← List.filterMap_eq_map,
    List.filterMap_filter]
  refine List.filterMap_congr fun p hp => ?_
  rw [Function.comp_apply, hg p hp]
  simp

/-- **The tiles, from a row on, are the cells of the picture from that row on.** -/
theorem cells_rowsFrom (h : Tiling N height tiles) (hproper : ∀ p ∈ tiles, p.Proper) : ∀ {n r : Nat}, r + n = height →
    cells (rowsFrom tiles r n) = (tiles.filter fun p => r ≤ p.row).map Tile.cell
  | 0, r, hn => by
    have hnil : tiles.filter (fun p => r ≤ p.row) = [] := List.filter_eq_nil_iff.2 fun p hp => by
      have := (h.inside p hp).1
      have := (hproper p hp).rowSpan_pos
      simp only [decide_eq_true_eq]
      omega
    rw [hnil]
    rfl
  | n + 1, r, hn => by
    rw [rowsFrom_succ, cells, h.filterMap_grown?_row hproper hn, h.cells_rowsFrom hproper (by omega),
      filter_le_eq r h.ordered, List.map_append]

/-! ## The layout -/

/-- **Tiles are shown by the rows of their grid**, unless it has as many columns as there can be and cells for more than one
row. -/
theorem shows_rows {l : Layout} (h : Tiling l.columnCount height tiles) (hl : tiles.map Tile.cell = l.cells)
    (hne : l.cells ≠ []) (hN : l.columnCount ≤ Count.ceiling) (hsafe : ∀ c ∈ l.cells, c.Safe)
    (hspan : ∀ c ∈ l.cells, 0 < c.columnSpan ∧ 0 < c.rowSpan) (hempty : ∀ c ∈ l.cells, c.kind = .empty → c.rowSpan = 1)
    (hroom : l.columnCount < Count.ceiling ∨ width l.cells ≤ l.columnCount) : Shows l (rowsFrom tiles 0 height) := by
  have hmem : ∀ p ∈ tiles, p.cell ∈ l.cells := fun p hp => hl ▸ List.mem_map_of_mem hp
  have hproper : ∀ p ∈ tiles, p.Proper := fun p hp =>
    ⟨(hspan _ (hmem p hp)).1, (hspan _ (hmem p hp)).2, (hsafe _ (hmem p hp)).not_isContinuation, hempty _ (hmem p hp)⟩
  obtain ⟨p, hp⟩ : ∃ p, p ∈ tiles := List.exists_mem_of_ne_nil _ fun he => hne (by rw [← hl, he]; rfl)
  have hin := h.inside p hp
  have hcol : 0 < l.columnCount := by
    have := (hproper p hp).columnSpan_pos
    omega
  have hheight : 0 < height := by
    have := (hproper p hp).rowSpan_pos
    omega
  obtain ⟨n, rfl⟩ : ∃ n, height = n + 1 := ⟨height - 1, by omega⟩
  have hcells : cells (rowsFrom tiles 0 (n + 1)) = l.cells := by
    rw [h.cells_rowsFrom hproper (Nat.zero_add _), ← hl, List.filter_eq_self.2 (by simp)]
  have hwidth : ∀ row ∈ rowsFrom tiles 0 (n + 1), width row = l.columnCount := by
    intro row hrow
    obtain ⟨i, -, hi, rfl⟩ := exists_of_mem_rowsFrom hrow
    exact (h.placed_row hproper (by omega)).2
  have hpicture : IsPicture l.columnCount (rowsFrom tiles 0 (n + 1)) := by
    refine ⟨fun row hrow => ?_, ?_⟩
    · obtain ⟨i, -, hi, rfl⟩ := exists_of_mem_rowsFrom hrow
      exact h.fits_row hproper hcol (by omega)
    · rw [rowsFrom_succ]
      exact List.isChain_cons_cons.2 ⟨h.aligned_top hproper (by omega), h.isChain_rowsFrom hproper (by omega)⟩
  refine ⟨?_, hcells, hpicture, hpicture.tight_of_width hN hwidth (by rwa [hcells]), ?_⟩
  · rw [rowsFrom_succ]
    exact List.cons_ne_nil _ _
  · intro row hrow
    obtain ⟨i, -, hi, rfl⟩ := exists_of_mem_rowsFrom hrow
    refine rowLegible_of_readsBack fun c hc shown last => ?_
    obtain ⟨p, hp, rfl⟩ := List.mem_map.1 hc
    show CellKind.ReadsBack shown last (if p.row = i then p.cell.kind else .continuation)
    split
    · exact (hsafe _ (hmem p (mem_across.1 hp).1)).readsBack shown last
    · exact CellKind.readsBack_continuation shown last

end Tiling
end Gridmark
