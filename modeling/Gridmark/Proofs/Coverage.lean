import Gridmark.Proofs.Census
import Gridmark.Proofs.Counts
/-!
# Coverage — how far the cells of a row reach

Every cell that comes without a span gets the same share of the columns that the written spans leave, and at least one
(`resolve_eq_map`).  A lone one at either end of its row is no exception, for it has nobody to share with.  So the width of
a row is the sum of its written spans and as many shares as there are such cells, and what stands in the matrix is this
width up to the last column, with all sums exact (`placeRow_resolve`).
-/
namespace Gridmark

open Picture

namespace RowCell

variable {N : Nat} {rs : List RowCell}

def spanSum (rs : List RowCell) : Nat := (rs.filterMap RowCell.span).sum

/-- What a cell without a span gets of so many columns. -/
def share (N : Nat) (rs : List RowCell) : Nat := max 1 ((N - spanSum rs) / unspanned rs)

theorem remaining_eq (hN : N ≤ Count.ceiling) (rs : List RowCell) : remaining rs N = N - spanSum rs := by
  have hsum := Count.foldl_add_eq_min (rs.filterMap RowCell.span) 0
  rw [Nat.zero_min, Nat.zero_add] at hsum
  rw [remaining, hsum, spanSum]
  omega

theorem resolveSpan_eq (free sharers size index : Nat) (r : RowCell) (hr : ∀ n ∈ r.span, 0 < n) :
    resolveSpan free sharers size index r = r.span.getD (max 1 (free / sharers)) := by
  unfold resolveSpan
  cases hspan : r.span with
  | some n => exact Nat.max_eq_left (hr n hspan)
  | none =>
    by_cases hlone : sharers = 1 ∧ (index = 0 ∨ index = size - 1)
    · simp [hlone, Nat.max_comm]
    · simp [hlone, Nat.max_comm]

/-- **Every cell keeps its kind, its place and its written span**, and all others get the same share. -/
theorem resolve_eq_map (hN : N ≤ Count.ceiling) (hrs : ∀ r ∈ rs, ∀ n ∈ r.span, 0 < n) :
    resolve rs N = rs.map fun r => Cell.ofKind r.kind (r.span.getD (share N rs)) := by
  have hshare : share N rs = max 1 (remaining rs N / unspanned rs) := by rw [remaining_eq hN, share]
  refine List.ext_getElem (by simp [resolve]) fun i _ h => ?_
  have hi : i < rs.length := by simpa using h
  simp [resolve, resolveSpan_eq _ _ _ _ _ (hrs _ (List.getElem_mem hi)), hshare]

theorem unspanned_cons (r : RowCell) (rs : List RowCell) :
    unspanned (r :: rs) = (if r.span.isNone then 1 else 0) + unspanned rs := by
  unfold unspanned
  cases hspan : r.span <;> simp [hspan, Nat.add_comm]

theorem width_map_ofKind (n : Nat) : ∀ rs : List RowCell,
    width (rs.map fun r => Cell.ofKind r.kind (r.span.getD n)) = spanSum rs + unspanned rs * n
  | [] => by simp [spanSum, unspanned]
  | r :: rs => by
    have ih := width_map_ofKind n rs
    rw [List.map_cons, width_cons, ih, unspanned_cons]
    cases hspan : r.span with
    | none => simp [spanSum, hspan, Cell.ofKind, Nat.add_mul]; omega
    | some k => simp [spanSum, hspan, Cell.ofKind]; omega

/-- The columns that a row covers, by the sum of the written spans and the number of cells without one. -/
def covered (N sum count : Nat) : Nat :=
  if count = 0 then min N sum else if sum + count ≤ N then N - (N - sum) % count else N

theorem min_width (N sum count : Nat) : min N (sum + count * max 1 ((N - sum) / count)) = covered N sum count := by
  unfold covered
  by_cases hcount : count = 0
  · simp [hcount]
  · by_cases hroom : sum + count ≤ N
    · have hpos : 0 < (N - sum) / count := Nat.div_pos (by omega) (by omega)
      have hdiv := Nat.div_add_mod (N - sum) count
      rw [if_neg hcount, if_pos hroom, Nat.max_eq_right hpos]
      omega
    · have hshare : (N - sum) / count = 0 := Nat.div_eq_of_lt (by omega)
      rw [if_neg hcount, if_neg hroom, hshare]
      simp
      omega

end RowCell

namespace SlotMatrix

/-- Slots side by side, from the one column up to the other. -/
def Paves : Nat → Nat → List Slot → Prop
  | start, stop, [] => start = stop
  | start, stop, s :: slots => s.start = start ∧ s.start < s.stop ∧ Paves s.stop stop slots

variable {N : Nat} {cs : List Cell}

theorem placeFrom_of_le : ∀ {cs : List Cell} {cursor : Nat} (i : Nat), N ≤ cursor → N ≤ Count.ceiling →
    placeFrom N cursor i cs = []
  | [], _, _, _, _ => rfl
  | c :: cs, cursor, i, h, hN => by
    have hnext : N ≤ Count.add cursor c.columnSpan := by
      unfold Count.add
      omega
    rw [placeFrom, if_pos h, placeFrom_of_le i hnext hN]

/-- **A row fills the columns from the left** up to its width or the last column. -/
theorem paves_placeFrom (hN : N ≤ Count.ceiling) : ∀ {cs : List Cell} {s : Nat} (i : Nat), s ≤ N →
    (∀ c ∈ cs, 0 < c.columnSpan) → Paves s (min N (s + width cs)) ((placeFrom N s i cs).map Prod.fst)
  | [], s, i, hs, _ => by simpa [placeFrom, Paves] using hs
  | c :: cs, s, i, hs, hpos => by
    obtain ⟨hc, hcs⟩ := List.forall_mem_cons.1 hpos
    rw [width_cons]
    by_cases hlt : s < N
    · rw [placeFrom, if_neg (by omega), List.map_cons]
      by_cases hfit : s + c.columnSpan ≤ N
      · have hnext : Count.add s c.columnSpan = s + c.columnSpan := Nat.min_eq_left (by omega)
        have ih := paves_placeFrom hN (i + 1) hfit hcs
        rw [hnext, ← Nat.add_assoc, Nat.min_eq_left hfit]
        exact ⟨rfl, by simpa using hc, ih⟩
      · have hnext : N ≤ Count.add s c.columnSpan := by
          unfold Count.add
          omega
        rw [placeFrom_of_le (i + 1) hnext hN, Nat.min_eq_right hnext]
        exact ⟨rfl, hlt, by simp [Paves]; omega⟩
    · rw [placeFrom_of_le i (by omega) hN]
      simp [Paves]
      omega

theorem filterMap_cutAt?_of_le {s : Nat} (h : N ≤ s) : (placed s cs).filterMap (cutAt? N) = [] := by
  refine List.filterMap_eq_nil_iff.2 fun q hq => ?_
  have := (bounds_of_mem_placed hq).2.1
  exact if_neg (by omega)

/-- **Only the last cell of a row is cut.** -/
theorem dropLast_cutAt? : ∀ (cs : List Cell) (s : Nat), ((placed s cs).filterMap (cutAt? N)).dropLast =
    cs.take (((placed s cs).filterMap (cutAt? N)).length - 1)
  | [], _ => rfl
  | c :: cs, s => by
    have ih := dropLast_cutAt? cs (s + c.columnSpan)
    by_cases hs : s < N
    · have hcut : cutAt? N (s, c) = some { c with columnSpan := min c.columnSpan (N - s) } := if_pos hs
      rw [placed, List.filterMap_cons_some hcut]
      by_cases hnext : s + c.columnSpan < N
      · have hwhole : min c.columnSpan (N - s) = c.columnSpan := Nat.min_eq_left (by omega)
        rw [hwhole]
        cases hrest : (placed (s + c.columnSpan) cs).filterMap (cutAt? N) with
        | nil => simp
        | cons e es =>
          rw [hrest] at ih
          simpa using ih
      · simp [filterMap_cutAt?_of_le (Nat.le_of_not_lt hnext)]
    · simp [filterMap_cutAt?_of_le (Nat.le_of_not_lt hs)]

/-- **A row of written cells covers its columns exactly.**  It keeps its cells with their kinds and written spans, and the
others get equal shares.  In the matrix the cells stand side by side from the first column on, each on as many columns as its
span says, and together they cover what `covered` tells.  A cell stands there just when the exact sum of the spans before it
is below the column count, and only the last one may be cut. -/
theorem placeRow_resolve (m : SlotMatrix) (hN : m.columnCount ≤ Count.ceiling) {rs : List RowCell}
    (hrs : ∀ r ∈ rs, ∀ n ∈ r.span, 0 < n) :
    let N := m.columnCount
    let cells := RowCell.resolve rs N
    let ps := m.placing cells
    cells = rs.map (fun r => Cell.ofKind r.kind (r.span.getD (RowCell.share N rs))) ∧
      (m.placeRow cells).rows = m.rows ++ [ps.map Prod.fst] ∧
      (m.placeRow cells).cells = m.cells ++ ps.map Prod.snd ∧
      Paves 0 (RowCell.covered N (RowCell.spanSum rs) (RowCell.unspanned rs)) (ps.map Prod.fst) ∧
      (∀ p ∈ ps, p.1.stop = p.1.start + p.2.columnSpan ∧ (m.placeRow cells).cells[p.1.owner]? = some p.2) ∧
      ps.map Prod.snd = (placed 0 cells).filterMap (cutAt? N) ∧
      (ps.map Prod.snd).dropLast = cells.take (ps.length - 1) := by
  intro N cells ps
  have hcells : cells = rs.map fun r => Cell.ofKind r.kind (r.span.getD (RowCell.share N rs)) :=
    RowCell.resolve_eq_map hN hrs
  have hpos : ∀ c ∈ cells, 0 < c.columnSpan := by
    intro c hc
    rw [hcells] at hc
    obtain ⟨r, hr, rfl⟩ := List.mem_map.1 hc
    cases hspan : r.span with
    | none => simp [Cell.ofKind, RowCell.share]
    | some n => simpa [Cell.ofKind, hspan] using hrs r hr n hspan
  have hcut : ps.map Prod.snd = (placed 0 cells).filterMap (cutAt? N) := map_snd_placing hN cells
  have hlength : ps.length = ((placed 0 cells).filterMap (cutAt? N)).length := by rw [← hcut, List.length_map]
  refine ⟨hcells, rfl, rfl, ?_, fun p hp => ⟨?_, ?_⟩, hcut, ?_⟩
  · have hpaves := paves_placeFrom hN m.cells.length (Nat.zero_le _) hpos
    have hwidth : min N (width cells) = RowCell.covered N (RowCell.spanSum rs) (RowCell.unspanned rs) := by
      rw [hcells, RowCell.width_map_ofKind, RowCell.share, RowCell.min_width]
    rw [Nat.zero_add] at hpaves
    exact hwidth ▸ hpaves
  · exact (of_mem_placeFrom (Nat.zero_le _) p hp).2.2.1
  · obtain ⟨hle, hp⟩ := of_mem_placing hp
    show (m.cells ++ ps.map Prod.snd)[p.1.owner]? = some p.2
    rw [List.getElem?_append_right hle, List.getElem?_map, hp]
    rfl
  · rw [hcut, hlength]
    exact dropLast_cutAt? _ 0

/-- Two spans that add up to more than there can be columns, and a cell without a span behind them. -/
def wideRow : List RowCell :=
  [⟨.content (Element.prose ['a']), some 9223372036854775808⟩, ⟨.empty, some 9223372036854775808⟩, ⟨.continuation, none⟩]

theorem placeRow_resolve_wideRow :
    (∀ r ∈ wideRow, ∀ n ∈ r.span, 0 < n) ∧
      (let ps := (empty Count.ceiling).placing (RowCell.resolve wideRow Count.ceiling)
      Paves 0 Count.ceiling (ps.map Prod.fst) ∧
        ps.map Prod.snd = [⟨.content (Element.prose ['a']), 9223372036854775808, 1⟩, ⟨.empty, 9223372036854775807, 1⟩]) := by
  have hrs : ∀ r ∈ wideRow, ∀ n ∈ r.span, 0 < n := by decide
  obtain ⟨-, -, -, hpaves, -, hcells, -⟩ := placeRow_resolve (empty Count.ceiling) (Nat.le_refl _) hrs
  exact ⟨hrs, hpaves, hcells.trans (by decide)⟩

end SlotMatrix
end Gridmark
