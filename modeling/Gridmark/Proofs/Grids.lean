import Gridmark.Proofs.Ceiling
import Gridmark.Proofs.Tiling
/-!
# Grids — grids that come back from their text

A grid of cells that read back each from its own text comes back from its rows if no cell has more than one row, or if the
cells are rectangles that cover the grid.  One thing can stop it: the pen finds that a row is full by a sum that stops at
the ceiling, so a grid with as many columns as there can be is one row for it.  Then a grid without merges does not come
back if its cells need a second row, nor does one with merges if its content does.
-/
namespace Gridmark

open Picture

/-- The cells are, in order, rectangles that cover a grid of the layout's columns. -/
def Layout.Tiled (l : Layout) : Prop :=
  ∃ height tiles, Tiling l.columnCount height tiles ∧ tiles.map Tile.cell = l.cells

/-- **Grids without merges and grids of rectangles come back from their rows**, just so far as the pen can close a row. -/
theorem Document.read_write_grid (o : ReadOptions) {l : Layout} (hN : l.columnCount ≤ Count.ceiling) (hne : l.cells ≠ [])
    (hs : l.single? = none) (hsafe : ∀ c ∈ l.cells, c.Safe)
    (hspan : ∀ c ∈ l.cells, 0 < c.columnSpan ∧ c.columnSpan ≤ l.columnCount)
    (hshape : (∀ c ∈ l.cells, c.rowSpan = 1) ∨
      (∀ c ∈ l.cells, 0 < c.rowSpan ∧ (c.kind = .empty → c.rowSpan = 1)) ∧ l.Tiled) :
    (l.Closes → (Document.read o l.write).blocks = [l]) ∧
      (¬l.Closes → (∀ c ∈ l.cells, c.rowSpan = 1) ∨ l.columnCount < width (l.cells.filter fun c => c.kind.isContent) →
        (Document.read o l.write).blocks ≠ [l]) := by
  refine ⟨fun hroom => ?_, fun hroom hlost => ?_⟩
  · rcases hshape with hrow | ⟨hrow, height, tiles, ht, hl⟩
    · obtain ⟨c, cs, hl⟩ := List.exists_cons_of_ne_nil hne
      exact (shows_packFrom hl hN hsafe hspan hrow hroom).read_write hN hs o
    · have hshows := ht.shows_rows hl hne hN hsafe (fun c hc => ⟨(hspan c hc).1, (hrow c hc).1⟩)
        (fun c hc => (hrow c hc).2) hroom
      exact hshows.read_write hN hs o
  · obtain ⟨h1, h2⟩ := not_or.1 hroom
    exact Layout.read_write_ne_of_ceiling o (by omega) hs (hlost.imp_left fun hrow => ⟨hrow, by omega⟩)

/-- Three columns, the second row being narrower. -/
def Layout.ledger : Layout where
  columnCount := 3
  cells := [.ofKind (.content (.prose ['a'])) 2, .ofKind .empty 1, .ofKind (.content (.prose ['b'])) 2]

/-- Two columns and three rows, with a tall cell on either side. -/
def Layout.floorPlan : Layout where
  columnCount := 2
  cells := [⟨.content (.prose ['p']), 1, 2⟩, ⟨.content (.prose ['q']), 1, 1⟩, ⟨.content (.prose ['r']), 1, 2⟩, ⟨.empty, 1, 1⟩]

def Layout.floorTiles : List Tile :=
  [⟨0, 0, ⟨.content (.prose ['p']), 1, 2⟩⟩, ⟨0, 1, ⟨.content (.prose ['q']), 1, 1⟩⟩,
    ⟨1, 1, ⟨.content (.prose ['r']), 1, 2⟩⟩, ⟨2, 0, ⟨.empty, 1, 1⟩⟩]

theorem Layout.tiled_floorPlan : Layout.floorPlan.Tiled := by
  refine ⟨3, floorTiles, ⟨by simp [floorTiles], by simp [floorTiles, floorPlan], fun r hr k hk => ?_⟩, rfl⟩
  have hk : k = 0 ∨ k = 1 := by
    have : k < 2 := hk
    omega
  have hr : r = 0 ∨ r = 1 ∨ r = 2 := by omega
  rcases hr with rfl | rfl | rfl <;> rcases hk with rfl | rfl <;>
    simp [ExistsUnique, floorTiles, Tile.covers, Tile.spans]

theorem Document.read_write_ledger_floorPlan :
    (Document.read default Layout.ledger.write).blocks = [Layout.ledger] ∧
      (Document.read default Layout.floorPlan.write).blocks = [Layout.floorPlan] := by
  constructor
  · refine (Document.read_write_grid default (by decide) (by decide) (by decide) ?_ (by decide) (.inl (by decide))).1
      (.inl (by decide))
    simp only [Layout.ledger, List.forall_mem_cons]
    exact ⟨Cell.safe_letter rfl (by decide), .inl rfl, Cell.safe_letter rfl (by decide), by simp⟩
  · refine (Document.read_write_grid default (by decide) (by decide) (by decide) ?_ (by decide)
      (.inr ⟨by decide, Layout.tiled_floorPlan⟩)).1 (.inl (by decide))
    simp only [Layout.floorPlan, List.forall_mem_cons]
    exact ⟨Cell.safe_letter rfl (by decide), Cell.safe_letter rfl (by decide), Cell.safe_letter rfl (by decide),
      .inl rfl, by simp⟩

end Gridmark
