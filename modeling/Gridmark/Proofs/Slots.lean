import Gridmark.Proofs.Picture
import Gridmark.Proofs.Settling
/-!
# Slots — the continuations of one row

The cells of a row that fits take a slot each (`slotsFrom`).  A continuation looks at the slot above its first column; the
cell that takes it over grows by a row, and the slot of the continuation comes to name that cell (`mergeOne_eq`).
-/
namespace Gridmark

open Picture

namespace SlotMatrix

/-- The slots of a row that fits, numbered from the left, with the cells they hold. -/
def slotsFrom : Nat → Nat → List Cell → List (Slot × Cell)
  | _, _, [] => []
  | s, i, c :: cs => (⟨s, s + c.columnSpan, i⟩, c) :: slotsFrom (s + c.columnSpan) (i + 1) cs

theorem placeFrom_eq_slotsFrom {N : Nat} (hN : N ≤ Count.ceiling) : ∀ {cs : List Cell} {s : Nat} (i : Nat),
    (∀ c ∈ cs, 0 < c.columnSpan) → s + width cs ≤ N → placeFrom N s i cs = slotsFrom s i cs
  | [], _, _, _, _ => rfl
  | c :: cs, s, i, hpos, hw => by
    have hc := hpos c List.mem_cons_self
    rw [width_cons] at hw
    have hadd : Count.add s c.columnSpan = s + c.columnSpan := by
      unfold Count.add
      omega
    have hmin : min (s + c.columnSpan) N = s + c.columnSpan := by omega
    have hsub : s + c.columnSpan - s = c.columnSpan := by omega
    rw [placeFrom, if_neg (by omega), slotsFrom, hadd, hmin]
    dsimp only
    rw [hsub, placeFrom_eq_slotsFrom hN (i + 1) (fun d hd => hpos d (List.mem_cons_of_mem _ hd)) (by omega)]

theorem map_placed_slotsFrom : ∀ (s i : Nat) (cs : List Cell),
    (slotsFrom s i cs).map (fun p => (p.1.start, p.2)) = placed s cs
  | _, _, [] => rfl
  | s, i, c :: cs => by rw [slotsFrom, List.map_cons, map_placed_slotsFrom, placed]

theorem mem_placed_of_mem_slotsFrom {s i : Nat} {cs : List Cell} {p : Slot × Cell} (h : p ∈ slotsFrom s i cs) :
    (p.1.start, p.2) ∈ placed s cs :=
  map_placed_slotsFrom s i cs ▸ List.mem_map_of_mem (f := fun p => (p.1.start, p.2)) h

theorem map_snd_slotsFrom (s i : Nat) (cs : List Cell) : (slotsFrom s i cs).map Prod.snd = cs := by
  have h := congrArg (List.map Prod.snd) (map_placed_slotsFrom s i cs)
  rwa [List.map_map, map_snd_placed] at h

theorem of_mem_slotsFrom : ∀ {cs : List Cell} {s i : Nat} {p : Slot × Cell}, p ∈ slotsFrom s i cs →
    p.1.stop = p.1.start + p.2.columnSpan ∧ i ≤ p.1.owner ∧ cs[p.1.owner - i]? = some p.2
  | c :: cs, s, i, p, h => by
    rcases List.mem_cons.1 h with rfl | h
    · exact ⟨rfl, Nat.le_refl _, by simp⟩
    · obtain ⟨h1, h2, h3⟩ := of_mem_slotsFrom h
      refine ⟨h1, by omega, ?_⟩
      rw [show p.1.owner - i = p.1.owner - (i + 1) + 1 by omega, List.getElem?_cons_succ, h3]

theorem pairwise_slotsFrom : ∀ (cs : List Cell) (s i : Nat),
    (slotsFrom s i cs).Pairwise fun p q => p.1.stop ≤ q.1.start ∧ p.1.owner < q.1.owner
  | [], _, _ => List.Pairwise.nil
  | c :: cs, s, i => by
    refine List.pairwise_cons.2 ⟨fun q hq => ?_, pairwise_slotsFrom cs _ _⟩
    have h1 := (bounds_of_mem_placed (mem_placed_of_mem_slotsFrom hq)).2.1
    have h2 := (of_mem_slotsFrom hq).2.1
    exact ⟨h1, h2⟩

theorem exists_mem_slotsFrom {s i : Nat} {cs : List Cell} {q : Nat × Cell} (h : q ∈ placed s cs) :
    ∃ sl : Slot, (sl, q.2) ∈ slotsFrom s i cs ∧ sl.start = q.1 := by
  rw [← map_placed_slotsFrom s i cs] at h
  obtain ⟨p, hp, rfl⟩ := List.mem_map.1 h
  exact ⟨p.1, hp, rfl⟩

/-- The number of the cell that covers a column of a row. -/
def targetIn (above : List Slot) (column : Nat) : Option Nat := (above.find? fun s => s.covers column).map Slot.owner

/-- The number of the cell that a continuation grows. -/
def hit? (above : List Slot) (p : Slot × Cell) : Option Nat :=
  if p.2.kind.isContinuation then targetIn above p.1.start else none

/-- The slot of a cell, once it is settled. -/
def settled (above : List Slot) (p : Slot × Cell) : Slot := { p.1 with owner := (hit? above p).getD p.1.owner }

def addRows (n : Nat) (c : Cell) : Cell := { c with rowSpan := c.rowSpan + n }

/-- The cells after one continuation has been settled. -/
def growHit (above : List Slot) (cs : List Cell) (p : Slot × Cell) : List Cell :=
  match hit? above p with
  | some t => cs.modify t (addRows 1)
  | none => cs

/-- A continuation that its target can absorb. -/
def Absorbed (above : List Slot) (cells : List Cell) (q : Nat × Cell) : Prop :=
  ∃ t c, targetIn above q.1 = some t ∧ cells[t]? = some c ∧ c.kind.isContent = true ∧ c.columnSpan = q.2.columnSpan

theorem ownerAbove?_length {N : Nat} {cells : List Cell} {pending : List PendingMerge} (B : List (List Slot))
    (R : List Slot) (column owner : Nat) :
    ownerAbove? ⟨N, cells, B ++ [R], pending⟩ ⟨B.length, column, owner⟩ = targetIn (B.getLast?.getD []) column := by
  rcases List.eq_nil_or_concat B with rfl | ⟨B, a, rfl⟩
  · rfl
  · simp [ownerAbove?, ownerAt?, targetIn]

theorem modify_append_length {α : Type} (f : α → α) (a : α) : ∀ l : List α, (l ++ [a]).modify l.length f = l ++ [f a]
  | [] => rfl
  | b :: l => by
    rw [List.cons_append, List.length_cons, List.modify_succ_cons, modify_append_length f a l]
    rfl

/-- Settling one continuation grows its target and hands over its slot. -/
theorem mergeOne_eq {N : Nat} {B : List (List Slot)} {C D : List Cell} {R₁ R₂ : List Slot} {sl : Slot} {c : Cell}
    {pending : List PendingMerge} {t : Nat} (ht : targetIn (B.getLast?.getD []) sl.start = some t)
    (ha : ∃ d, C[t]? = some d ∧ d.kind.isContent = true ∧ d.columnSpan = c.columnSpan)
    (hc : (C ++ D)[sl.owner]? = some c) (h₁ : ∀ r ∈ R₁, r.owner < sl.owner) (h₂ : ∀ r ∈ R₂, sl.owner < r.owner) :
    mergeOne ⟨N, C ++ D, B ++ [R₁ ++ sl :: R₂], pending⟩ ⟨B.length, sl.start, sl.owner⟩ =
      ⟨N, C.modify t (addRows 1) ++ D, B ++ [R₁ ++ { sl with owner := t } :: R₂], pending⟩ := by
  obtain ⟨d, hd, hk, hs⟩ := ha
  have htl : t < C.length := (List.getElem?_eq_some_iff.1 hd).1
  have hab : canAbsorb ⟨N, C ++ D, B ++ [R₁ ++ sl :: R₂], pending⟩ t sl.owner = true := by
    unfold canAbsorb
    rw [List.getElem?_append_left htl, hd, hc]
    simp [hk, hs]
  have hr : (R₁ ++ sl :: R₂).map (Slot.reassign sl.owner t) = R₁ ++ { sl with owner := t } :: R₂ := by
    have hne : ∀ r : Slot, r.owner ≠ sl.owner → Slot.reassign sl.owner t r = r := fun r hr => if_neg hr
    have h₁' : R₁.map (Slot.reassign sl.owner t) = R₁ :=
      (List.map_congr_left fun r hr => hne r (Nat.ne_of_lt (h₁ r hr))).trans (List.map_id' R₁)
    have h₂' : R₂.map (Slot.reassign sl.owner t) = R₂ :=
      (List.map_congr_left fun r hr => hne r (Nat.ne_of_gt (h₂ r hr))).trans (List.map_id' R₂)
    rw [List.map_append, List.map_cons, h₁', h₂', Slot.reassign, if_pos rfl]
  rw [mergeOne, ownerAbove?_length, ht]
  dsimp only
  rw [hab, if_pos rfl, absorb]
  simp only [modify_append_left _ _ htl, modify_append_length, hr]
  rfl

/-- The number of further rows that a cell gets from one row. -/
def hits (above : List Slot) (i : Nat) (ps : List (Slot × Cell)) : Nat := ps.countP fun p => hit? above p == some i

end SlotMatrix
end Gridmark
