import Mathlib
import Gridmark.Document
/-!
# Picture — a grid row by row

A layout lists its cells once, at their top row; a picture shows every row, with a continuation in each row under the
first.  The pen turns the one into the other and the slot matrix turns it back, so both are compared with `cells`, which
reads the rows off a picture: a cell reaches down over the continuations that stand, row after row, at its first column.
-/
namespace Gridmark
namespace Picture

/-- The cells of a row, each with its first column. -/
def placed : Nat → List Cell → List (Nat × Cell)
  | _, [] => []
  | s, c :: cs => (s, c) :: placed (s + c.columnSpan) cs

/-- The columns that a row takes. -/
def width (row : List Cell) : Nat := (row.map Cell.columnSpan).sum

/-- Whether a cell is a continuation that starts at a column. -/
def continuesAt (s : Nat) (p : Nat × Cell) : Bool := p.1 == s && p.2.kind.isContinuation

/-- The number of rows, from the first on, that go on with the cell at a column. -/
def depth (s : Nat) : List (List Cell) → Nat
  | [] => 0
  | row :: rows => if (placed 0 row).any (continuesAt s) then depth s rows + 1 else 0

/-- A cell of a row as a layout lists it, or nothing for a continuation. -/
def grown? (below : List (List Cell)) (p : Nat × Cell) : Option Cell :=
  if p.2.kind.isContinuation then none else some { p.2 with rowSpan := p.2.rowSpan + depth p.1 below }

/-- The cells of a picture as a layout lists them. -/
def cells : List (List Cell) → List Cell
  | [] => []
  | row :: rows => (placed 0 row).filterMap (grown? rows) ++ cells rows

/-- Every continuation stands right under a cell of its span that can go on. -/
def Aligned (above row : List Cell) : Prop :=
  ∀ p ∈ placed 0 row, p.2.kind.isContinuation = true →
    ∃ c, (p.1, c) ∈ placed 0 above ∧ c.columnSpan = p.2.columnSpan ∧ c.kind ≠ .empty

/-- Cells of one row, within the columns. -/
structure Fits (columns : Nat) (row : List Cell) : Prop where
  nonempty : row ≠ []
  span_pos : ∀ c ∈ row, 0 < c.columnSpan
  rowSpan_eq : ∀ c ∈ row, c.rowSpan = 1
  width_le : width row ≤ columns

/-- Rows that fit, each aligned with the one above it. -/
structure IsPicture (columns : Nat) (rows : List (List Cell)) : Prop where
  fits : ∀ row ∈ rows, Fits columns row
  aligned : ([] :: rows).IsChain Aligned

@[simp] theorem width_nil : width [] = 0 := rfl

@[simp] theorem width_cons (c : Cell) (cs : List Cell) : width (c :: cs) = c.columnSpan + width cs := rfl

@[simp] theorem width_append (cs ds : List Cell) : width (cs ++ ds) = width cs + width ds := by
  simp [width]

theorem columnSpan_le_width {c : Cell} {row : List Cell} (h : c ∈ row) : c.columnSpan ≤ width row := by
  obtain ⟨cs, ds, rfl⟩ := List.append_of_mem h
  rw [width_append, width_cons]
  omega

theorem width_le_of_sublist {cs ds : List Cell} (h : cs.Sublist ds) : width cs ≤ width ds := by
  induction h with
  | slnil => exact Nat.le_refl _
  | cons c _ ih => exact Nat.le_trans ih (Nat.le_add_left _ _)
  | cons_cons c _ ih => exact Nat.add_le_add_left ih _

theorem placed_append : ∀ (s : Nat) (cs ds : List Cell), placed s (cs ++ ds) = placed s cs ++ placed (s + width cs) ds
  | s, [], ds => rfl
  | s, c :: cs, ds => by
    rw [List.cons_append, placed, placed, placed_append, width_cons, Nat.add_assoc]
    rfl

@[simp] theorem map_snd_placed : ∀ (s : Nat) (cs : List Cell), (placed s cs).map Prod.snd = cs
  | _, [] => rfl
  | s, c :: cs => by rw [placed, List.map_cons, map_snd_placed]

/-- A placed cell stands between the start and the end of the row. -/
theorem bounds_of_mem_placed : ∀ {s : Nat} {cs : List Cell} {p : Nat × Cell}, p ∈ placed s cs →
    p.2 ∈ cs ∧ s ≤ p.1 ∧ p.1 + p.2.columnSpan ≤ s + width cs
  | s, c :: cs, p, h => by
    rcases List.mem_cons.1 h with rfl | h
    · exact ⟨List.mem_cons_self, Nat.le_refl _, Nat.add_le_add_left (Nat.le_add_right _ _) _⟩
    · obtain ⟨h1, h2, h3⟩ := bounds_of_mem_placed h
      exact ⟨List.mem_cons_of_mem _ h1, by omega, by rw [width_cons]; omega⟩

theorem exists_of_mem_cells {c : Cell} : ∀ {rows : List (List Cell)}, c ∈ cells rows →
    ∃ row ∈ rows, ∃ d ∈ row, d.columnSpan = c.columnSpan ∧ d.kind = c.kind
  | row :: rows, hc => by
    rcases List.mem_append.1 hc with hc | hc
    · obtain ⟨q, hq, hc⟩ := List.mem_filterMap.1 hc
      unfold grown? at hc
      split at hc
      · cases hc
      · cases hc
        exact ⟨row, List.mem_cons_self, q.2, (bounds_of_mem_placed hq).1, rfl, rfl⟩
    · obtain ⟨r, hr, hd⟩ := exists_of_mem_cells hc
      exact ⟨r, List.mem_cons_of_mem _ hr, hd⟩

theorem pairwise_placed : ∀ (s : Nat) (cs : List Cell),
    (placed s cs).Pairwise fun p q => p.1 + p.2.columnSpan ≤ q.1
  | _, [] => List.Pairwise.nil
  | _, _ :: cs => List.pairwise_cons.2 ⟨fun _ hq => (bounds_of_mem_placed hq).2.1, pairwise_placed _ cs⟩

/-- Two cells of a row that start at one column are one cell. -/
theorem eq_of_mem_placed : ∀ {s : Nat} {cs : List Cell} {p q : Nat × Cell}, (∀ c ∈ cs, 0 < c.columnSpan) →
    p ∈ placed s cs → q ∈ placed s cs → p.1 = q.1 → p = q
  | s, c :: cs, p, q, hpos, hp, hq, h => by
    have hc := hpos c List.mem_cons_self
    have hcs : ∀ d ∈ cs, 0 < d.columnSpan := fun d hd => hpos d (List.mem_cons_of_mem _ hd)
    rcases List.mem_cons.1 hp with rfl | hp
    · rcases List.mem_cons.1 hq with rfl | hq
      · rfl
      · have := (bounds_of_mem_placed hq).2.1
        dsimp only at h
        omega
    · rcases List.mem_cons.1 hq with rfl | hq
      · have := (bounds_of_mem_placed hp).2.1
        dsimp only at h
        omega
      · exact eq_of_mem_placed hcs hp hq h

theorem countP_continuesAt {a : Nat} : ∀ {s : Nat} {cs : List Cell}, (∀ c ∈ cs, 0 < c.columnSpan) →
    (placed s cs).countP (continuesAt a) = if (placed s cs).any (continuesAt a) then 1 else 0
  | _, [], _ => rfl
  | s, c :: cs, h => by
    have ih := countP_continuesAt (a := a) (s := s + c.columnSpan) fun d hd => h d (List.mem_cons_of_mem _ hd)
    rw [placed, List.countP_cons, List.any_cons, ih]
    cases hc : continuesAt a (s, c) with
    | true =>
      have hn : (placed (s + c.columnSpan) cs).any (continuesAt a) = false := by
        refine List.any_eq_false.2 fun p hp hpa => ?_
        have h1 := (bounds_of_mem_placed hp).2.1
        have h2 := h c List.mem_cons_self
        simp only [continuesAt, Bool.and_eq_true, beq_iff_eq] at hc hpa
        omega
      simp [hn]
    | false => rfl

end Picture
end Gridmark
