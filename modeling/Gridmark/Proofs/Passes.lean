import Gridmark.Proofs.Settling
/-!
# Passes — merging now or later

A merge settles every continuation that waits and leaves none waiting.  Rows come in from below, and a continuation looks
at the row right above its own, so a merge between two rows finds there what a merge at the end would find.  However the
merges are spread over the rows, the matrix is the same once the last of them is done (`Sound.merge_run`).
-/
namespace Gridmark

/-- What can be done to a matrix. -/
inductive MatrixStep where
  | place (row : List Cell)
  | merge
deriving DecidableEq

namespace MatrixStep

def row? : MatrixStep → Option (List Cell)
  | place row => some row
  | merge => none

end MatrixStep

namespace SlotMatrix

def apply (m : SlotMatrix) : MatrixStep → SlotMatrix
  | .place row => m.placeRow row
  | .merge => m.merge

def run (m : SlotMatrix) (steps : List MatrixStep) : SlotMatrix := steps.foldl apply m

/-- Every slot and every continuation that waits is one of the matrix. -/
structure Sound (m : SlotMatrix) : Prop where
  valid : m.Valid
  refers : ∀ p ∈ m.pending, m.Refers p

variable {m : SlotMatrix}

theorem sound_empty (N : Nat) : (empty N).Sound :=
  ⟨fun _ hs => by simp [empty] at hs, fun _ hp => by simp [empty] at hp⟩

theorem Sound.placeRow (h : m.Sound) (row : List Cell) : (m.placeRow row).Sound := by
  refine ⟨h.valid.placeRow row, fun p hp => ?_⟩
  rcases List.mem_append.1 hp with hp | hp
  · exact (h.refers p hp).placeRow row
  · exact refers_of_mem_pendingOf hp

theorem Sound.merge (h : m.Sound) : m.merge.Sound := by
  have hv : (m.pending.foldl mergeOne m).Valid := h.valid.foldl_mergeOne
  exact ⟨hv, fun _ hp => by simp [SlotMatrix.merge] at hp⟩

/-- Settling one continuation does not look at those that wait. -/
theorem mergeOne_forget (m : SlotMatrix) (ps : List PendingMerge) (p : PendingMerge) :
    mergeOne { m with pending := ps } p = { m.mergeOne p with pending := ps } := by
  have habove : ownerAbove? { m with pending := ps } p = m.ownerAbove? p := rfl
  unfold mergeOne
  rw [habove]
  cases m.ownerAbove? p with
  | none => rfl
  | some target =>
    have hab : canAbsorb { m with pending := ps } target p.owner = m.canAbsorb target p.owner := rfl
    dsimp only
    rw [hab]
    by_cases h : m.canAbsorb target p.owner = true
    · simp [h, absorb]
    · simp [h]

theorem foldl_mergeOne_forget (qs : List PendingMerge) : ∀ (ps : List PendingMerge) (m : SlotMatrix),
    ps.foldl mergeOne { m with pending := qs } = { ps.foldl mergeOne m with pending := qs }
  | [], _ => rfl
  | p :: ps, m => by rw [List.foldl_cons, List.foldl_cons, mergeOne_forget, foldl_mergeOne_forget qs ps]

theorem foldl_mergeOne_sizes : ∀ (ps : List PendingMerge) (m : SlotMatrix),
    (ps.foldl mergeOne m).columnCount = m.columnCount ∧ (ps.foldl mergeOne m).cells.length = m.cells.length ∧
      (ps.foldl mergeOne m).rows.length = m.rows.length
  | [], _ => ⟨rfl, rfl, rfl⟩
  | p :: ps, m => by
    obtain ⟨h1, h2, h3⟩ := foldl_mergeOne_sizes ps (m.mergeOne p)
    exact ⟨by simp [h1], by simp [h2], by simp [h3]⟩

/-- **A merge settles everything**: a second one finds nothing to do. -/
theorem merge_of_pending_nil (h : m.pending = []) : m.merge = m := by
  obtain ⟨N, cells, rows, pending⟩ := m
  simp only at h
  simp [merge, h]

/-- **A merge right before a row is placed** changes nothing in what the merge after it leaves. -/
theorem merge_placeRow_merge (h : m.Sound) (row : List Cell) : (m.merge.placeRow row).merge = (m.placeRow row).merge := by
  obtain ⟨hcolumns, hcells, hrows⟩ := foldl_mergeOne_sizes m.pending m
  have hsettled := foldl_mergeOne_placeRow row h.valid h.refers
  have hmerged : m.merge.placeRow row = { (m.pending.foldl mergeOne m).placeRow row with
      pending := pendingOf m.rows.length (placeFrom m.columnCount 0 m.cells.length row) } := by
    simp [SlotMatrix.merge, SlotMatrix.placeRow, hcolumns, hcells, hrows]
  have hpending : (m.placeRow row).pending =
      m.pending ++ pendingOf m.rows.length (placeFrom m.columnCount 0 m.cells.length row) := rfl
  rw [hmerged]
  unfold SlotMatrix.merge
  rw [hpending, List.foldl_append, hsettled, foldl_mergeOne_forget]

theorem merge_foldl_placeRow_merge : ∀ (rows : List (List Cell)) {m : SlotMatrix}, m.Sound →
    (rows.foldl placeRow m.merge).merge = (rows.foldl placeRow m).merge
  | [], m, _ => merge_of_pending_nil rfl
  | row :: rows, m, h => by
    calc ((row :: rows).foldl placeRow m.merge).merge
        = (rows.foldl placeRow (m.merge.placeRow row).merge).merge :=
          (merge_foldl_placeRow_merge rows (h.merge.placeRow row)).symm
      _ = (rows.foldl placeRow (m.placeRow row).merge).merge := by rw [merge_placeRow_merge h row]
      _ = ((row :: rows).foldl placeRow m).merge := merge_foldl_placeRow_merge rows (h.placeRow row)

/-- **Merges may stand anywhere among the rows** if one stands at the end. -/
theorem Sound.merge_run : ∀ (steps : List MatrixStep) {m : SlotMatrix}, m.Sound →
    (m.run steps).merge = ((steps.filterMap MatrixStep.row?).foldl SlotMatrix.placeRow m).merge
  | [], _, _ => rfl
  | .place row :: steps, _, h => Sound.merge_run steps (h.placeRow row)
  | .merge :: steps, m, h => by
    have hrest : (m.merge.run steps).merge = _ := Sound.merge_run steps h.merge
    rw [merge_foldl_placeRow_merge _ h] at hrest
    exact hrest

/-- **When the merges are done does not matter**: rows with merges between them in any number come to the layout that one
merge at the end gives, and a further merge changes nothing. -/
theorem toLayout_merge_run (N : Nat) (steps : List MatrixStep) :
    ((empty N).run steps).merge.toLayout = ((steps.filterMap MatrixStep.row?).foldl placeRow (empty N)).merge.toLayout ∧
      ((empty N).run steps).merge.merge = ((empty N).run steps).merge := by
  have h := (sound_empty N).merge_run steps
  exact ⟨congrArg toLayout h, merge_of_pending_nil rfl⟩

end SlotMatrix
end Gridmark
