import Gridmark.Proofs.Census
import Gridmark.Proofs.PenRows
import Gridmark.Proofs.Placement
/-!
# Weave — what the rows of the pen are read as

A row of the pen shows no more of a cell than one row of it, so a stitch keeps with what is written how many rows of the
cell are still to come.  A `continue` that is owed stands right under a cell that goes on, at its column and of its span;
one that only fills a gap must not be caught (`Woven`).  What the pen takes for catching is what catches
(`Weaves.caught?_eq_none`), so the cells of woven rows get just the rows that their stitches announce (`cells_toLayout_woven`).
-/
namespace Gridmark

open Picture

/-- A cell as a row shows it, with the number of rows that its cell has below. -/
structure Stitch where
  start : Nat
  span : Nat
  kind : CellKind
  /-- A `continue` under it would merge into its cell. -/
  absorbs : Bool
  below : Nat
deriving DecidableEq, Inhabited

namespace Stitch

def pen (x : Stitch) : PenCell := ⟨x.start, x.span, GridPen.cellText x.kind, x.absorbs⟩

def cell (x : Stitch) : Cell := Cell.ofKind x.kind x.span

/-- The cell with the rows below. -/
def whole (x : Stitch) : Cell := ⟨x.kind, x.span, x.below + 1⟩

def width (xs : List Stitch) : Nat := Picture.width (xs.map cell)

/-- The stitches follow one another from a column on. -/
def Laid : Nat → List Stitch → Prop
  | _, [] => True
  | s, x :: xs => x.start = s ∧ 0 < x.span ∧ Laid (s + x.span) xs

/-- Only content goes on, or a `continue` that is owed. -/
structure Proper (x : Stitch) : Prop where
  absorbs_eq : x.kind.isContinuation = false → x.absorbs = x.kind.isContent
  of_below : 0 < x.below → x.absorbs = true

/-- One stitch goes on with the cell of the other. -/
structure Carries (y x : Stitch) : Prop where
  start : y.start = x.start
  span : y.span = x.span
  absorbs : y.absorbs = true
  below : y.below = x.below + 1

/-- A row, or the beginning of one. -/
structure Row (N : Nat) (row : List Stitch) : Prop where
  laid : Laid 0 row
  width_le : width row ≤ N
  proper : ∀ x ∈ row, x.Proper

/-- A row under another: what is owed goes on with a stitch above, and no other `continue` is caught. -/
structure Follows (N : Nat) (above row : List Stitch) : Prop extends Row N row where
  owed : ∀ x ∈ row, x.kind = .continuation → x.absorbs = true → ∃ y ∈ above, y.Carries x
  stray : ∀ x ∈ row, x.kind = .continuation → x.absorbs = false →
    GridPen.spanAbove? (above.map pen) x.start ≠ some x.span

/-- A row that goes on with all that the row above announces. -/
structure Woven (N : Nat) (above row : List Stitch) : Prop extends Follows N above row where
  goes : ∀ y ∈ above, 0 < y.below → ∃ x ∈ row, x.kind = .continuation ∧ x.absorbs = true ∧ x.start = y.start

variable {s : Nat} {x y : Stitch} {xs ys : List Stitch}

@[simp] theorem width_nil : width [] = 0 := rfl

@[simp] theorem width_cons (x : Stitch) (xs : List Stitch) : width (x :: xs) = x.span + width xs := rfl

@[simp] theorem width_append (xs ys : List Stitch) : width (xs ++ ys) = width xs + width ys := by
  simp [width]

theorem laid_append : ∀ (xs : List Stitch) (s : Nat), Laid s (xs ++ ys) ↔ Laid s xs ∧ Laid (s + width xs) ys
  | [], s => by simp [Laid]
  | x :: xs, s => by simp only [List.cons_append, Laid, laid_append xs, width_cons, Nat.add_assoc, and_assoc]

theorem Laid.bounds : ∀ {xs : List Stitch} {s : Nat}, Laid s xs → x ∈ xs →
    s ≤ x.start ∧ 0 < x.span ∧ x.start + x.span ≤ s + width xs
  | z :: xs, s, ⟨hz, hpos, h⟩, hx => by
    rw [width_cons]
    rcases List.mem_cons.1 hx with rfl | hx
    · omega
    · have := h.bounds hx
      omega

theorem Laid.pairwise : ∀ {xs : List Stitch} {s : Nat}, Laid s xs → xs.Pairwise fun x y => x.start + x.span ≤ y.start
  | [], _, _ => .nil
  | x :: xs, s, ⟨hx, _, h⟩ => by
    refine List.pairwise_cons.2 ⟨fun y hy => ?_, h.pairwise⟩
    have := (h.bounds hy).1
    omega

theorem Laid.eq_of_shared (h : Laid s xs) (hx : x ∈ xs) (hy : y ∈ xs) (h₁ : x.start < y.start + y.span)
    (h₂ : y.start < x.start + x.span) : x = y := by
  by_contra hne
  have : Std.Symm fun x y : Stitch => x.start + x.span ≤ y.start ∨ y.start + y.span ≤ x.start := ⟨fun _ _ => Or.symm⟩
  have hp : xs.Pairwise fun x y : Stitch => x.start + x.span ≤ y.start ∨ y.start + y.span ≤ x.start :=
    h.pairwise.imp .inl
  have := hp.forall hx hy hne
  omega

theorem Laid.eq_of_start (h : Laid s xs) (hx : x ∈ xs) (hy : y ∈ xs) (hstart : x.start = y.start) : x = y := by
  have hx' := (h.bounds hx).2.1
  have hy' := (h.bounds hy).2.1
  exact h.eq_of_shared hx hy (by omega) (by omega)

theorem Row.span_pos {N : Nat} {row : List Stitch} (h : Row N row) : ∀ c ∈ row.map cell, 0 < c.columnSpan := by
  intro c hc
  obtain ⟨x, hx, rfl⟩ := List.mem_map.1 hc
  exact (h.laid.bounds hx).2.1

end Stitch

namespace SlotMatrix

open Stitch

/-- What is placed for a stitch. -/
def Places (p : Slot × Cell) (x : Stitch) : Prop :=
  p.1.start = x.start ∧ p.1.stop = x.start + x.span ∧ p.2 = x.cell

/-- The slot of a stitch: it names a cell of the span that catches just what the stitch absorbs, and this cell lacks the rows
below, `T` being the cells in the end. -/
structure Holds (C T : List Cell) (a : Slot) (x : Stitch) : Prop where
  start : a.start = x.start
  stop : a.stop = x.start + x.span
  exists_cell : ∃ c t, C[a.owner]? = some c ∧ T[a.owner]? = some t ∧ c.columnSpan = x.span ∧ c.kind.isContent = x.absorbs ∧
    (x.absorbs = true → t.rowSpan = c.rowSpan + x.below)

/-- The matrix of woven rows of which the given one is the last.  The cells are those in the end, but for the rows that the
last row announces. -/
structure Weaves (m : SlotMatrix) (T : List Cell) (above : List Stitch) : Prop where
  counted : ∃ all, m.Counted all
  laid : Laid 0 above
  proper : ∀ y ∈ above, y.Proper
  slots : List.Forall₂ (Holds m.cells T) m.lastRow above
  length : T.length = m.cells.length
  kept : ∀ (i : Nat) (c t : Cell), m.cells[i]? = some c → T[i]? = some t → c.kind = t.kind ∧ c.columnSpan = t.columnSpan ∧
    (c.kind.isContinuation = false → c.rowSpan = t.rowSpan ∨ ∃ a y, (a, y) ∈ m.lastRow.zip above ∧ a.owner = i ∧ 0 < y.below)

variable {m : SlotMatrix} {T : List Cell} {above row : List Stitch}

theorem rel_find? {α β : Type} {R : α → β → Prop} {f : α → Bool} {g : β → Bool} (hfg : ∀ a b, R a b → f a = g b) :
    ∀ {as : List α} {bs : List β}, List.Forall₂ R as bs → Option.Rel R (as.find? f) (bs.find? g)
  | [], [], .nil => .none
  | a :: as, b :: bs, .cons h ht => by
    rw [List.find?_cons, List.find?_cons, hfg a b h]
    cases g b with
    | true => exact .some h
    | false => exact rel_find? hfg ht

theorem forall₂_slotsFrom : ∀ {xs : List Stitch} {s i : Nat}, Laid s xs →
    List.Forall₂ Places (slotsFrom s i (xs.map Stitch.cell)) xs
  | [], _, _, _ => .nil
  | x :: xs, s, i, ⟨hx, _, h⟩ => .cons ⟨hx.symm, by rw [hx]; rfl, rfl⟩ (forall₂_slotsFrom h)

theorem forall₂_placing (hN : m.columnCount ≤ Count.ceiling) (hw : Woven m.columnCount above row) :
    List.Forall₂ Places (m.placing (row.map Stitch.cell)) row := by
  have hplace : m.placing (row.map Stitch.cell) = slotsFrom 0 m.cells.length (row.map Stitch.cell) := by
    refine placeFrom_eq_slotsFrom hN _ hw.span_pos ?_
    rw [Nat.zero_add]
    exact hw.width_le
  rw [hplace]
  exact forall₂_slotsFrom hw.laid

theorem exists_of_mem_zip {α β : Type} {as : List α} {bs : List β} {p : α × β} (h : p ∈ as.zip bs) :
    ∃ j : Nat, as[j]? = some p.1 ∧ bs[j]? = some p.2 := by
  obtain ⟨j, hj⟩ := List.mem_iff_getElem?.1 h
  exact ⟨j, List.getElem?_zip_eq_some.1 hj⟩

theorem exists_mem_zip_left {α β : Type} {as : List α} {bs : List β} (h : as.length = bs.length) {a : α} (ha : a ∈ as) :
    ∃ b, (a, b) ∈ as.zip bs := by
  rw [← List.map_fst_zip (Nat.le_of_eq h)] at ha
  obtain ⟨⟨_, b⟩, hp, rfl⟩ := List.mem_map.1 ha
  exact ⟨b, hp⟩

theorem exists_mem_zip_right {α β : Type} {as : List α} {bs : List β} (h : as.length = bs.length) {b : β} (hb : b ∈ bs) :
    ∃ a, (a, b) ∈ as.zip bs := by
  rw [← List.map_snd_zip (Nat.le_of_eq h.symm)] at hb
  obtain ⟨⟨a, _⟩, hp, rfl⟩ := List.mem_map.1 hb
  exact ⟨a, hp⟩

namespace Weaves

variable (h : m.Weaves T above)
include h

theorem holds {a : Slot} {y : Stitch} (hp : (a, y) ∈ m.lastRow.zip above) : Holds m.cells T a y :=
  (List.forall₂_iff_zip.1 h.slots).2 hp

/-- A continuation at the column of a stitch that goes on is caught by the cell of the stitch. -/
theorem caught?_eq_some {a : Slot} {y : Stitch} (hp : (a, y) ∈ m.lastRow.zip above) (hy : y.absorbs = true)
    {p : Slot × Cell} (hk : p.2.kind.isContinuation = true) (hstart : p.1.start = y.start) (hspan : p.2.columnSpan = y.span) :
    caught? m.lastRow m.cells p = some a.owner := by
  obtain ⟨hs, -, c, t, hc, -, hcs, hck, -⟩ := h.holds hp
  have hends : m.lastRow.map (fun a => (a.start, a.stop)) = above.map fun y => (y.start, y.start + y.span) := by
    rw [← List.forall₂_eq_eq_eq]
    exact List.forall₂_map_left_iff.2 (List.forall₂_map_right_iff.2 (h.slots.imp fun a y hay => by rw [hay.start, hay.stop]))
  have hpair : m.lastRow.Pairwise fun a b => a.stop ≤ b.start := by
    have hmap : (above.map fun y => (y.start, y.start + y.span)).Pairwise fun a b : Nat × Nat => a.2 ≤ b.1 :=
      List.pairwise_map.2 h.laid.pairwise
    rw [← hends] at hmap
    exact List.pairwise_map.1 hmap
  have hpos : ∀ b ∈ m.lastRow, b.start < b.stop := by
    intro b hb
    have hmem : (b.start, b.stop) ∈ above.map fun y => (y.start, y.start + y.span) :=
      hends ▸ List.mem_map_of_mem (f := fun a : Slot => (a.start, a.stop)) hb
    obtain ⟨z, hz, he⟩ := List.mem_map.1 hmem
    obtain ⟨h₁, h₂⟩ := Prod.mk.inj he
    have := (h.laid.bounds hz).2.1
    omega
  have hfind := find?_covers hpair hpos (List.of_mem_zip hp).1
  rw [hs, ← hstart] at hfind
  exact caught?_eq_some_iff.2 ⟨hk, ⟨a, (List.of_mem_zip hp).1, hfind, rfl⟩, c, hc, hck.trans hy, hcs.trans hspan.symm⟩

/-- **What the pen takes for catching is what catches.** -/
theorem caught?_eq_none {p : Slot × Cell} (hp : GridPen.spanAbove? (above.map pen) p.1.start ≠ some p.2.columnSpan) :
    caught? m.lastRow m.cells p = none := by
  cases hc : caught? m.lastRow m.cells p with
  | none => rfl
  | some t =>
    obtain ⟨-, ⟨a, -, hfind, rfl⟩, c, hct, hck, hcs⟩ := caught?_eq_some_iff.1 hc
    have hrel := rel_find? (f := fun a : Slot => a.covers p.1.start)
      (g := fun y : Stitch => decide (y.start ≤ p.1.start) && decide (p.1.start - y.start < y.span))
      (fun a y hay => by
        rw [Slot.covers, hay.start, hay.stop, Bool.eq_iff_iff]
        simp only [Bool.and_eq_true, decide_eq_true_eq]
        omega) h.slots
    rw [hfind] at hrel
    cases hy : above.find? (fun y => decide (y.start ≤ p.1.start) && decide (p.1.start - y.start < y.span)) with
    | none =>
      rw [hy] at hrel
      cases hrel
    | some y =>
      rw [hy] at hrel
      cases hrel with
      | some hay =>
        obtain ⟨c', -, hc', -, hspan, habs, -⟩ := hay.exists_cell
        obtain rfl := Option.some.inj (hct.symm.trans hc')
        have hfound : (above.map pen).find? (fun c => c.start ≤ p.1.start && p.1.start - c.start < c.span) = some y.pen := by
          rw [List.find?_map]
          exact congrArg _ hy
        have hypen : y.pen.absorbs = true := habs.symm.trans hck
        refine absurd ?_ hp
        rw [GridPen.spanAbove?, hfound]
        dsimp only
        rw [if_pos hypen, ← hcs, hspan]
        rfl

/-! ## One row -/

variable (hN : m.columnCount ≤ Count.ceiling) (hw : Woven m.columnCount above row)
include hN hw

/-- What becomes of the stitches of a row: a `continue` that is owed is caught by the cell above it, and nothing else is. -/
theorem fate {p : Slot × Cell} {x : Stitch} (hp : (p, x) ∈ (m.placing (row.map Stitch.cell)).zip row) :
    (caught? m.lastRow m.cells p = none ∧ (x.kind = .continuation → x.absorbs = false)) ∨
      x.absorbs = true ∧ ∃ a y, (a, y) ∈ m.lastRow.zip above ∧ caught? m.lastRow m.cells p = some a.owner ∧ y.Carries x := by
  obtain ⟨hstart, -, hcell⟩ := (List.forall₂_iff_zip.1 (forall₂_placing hN hw)).2 hp
  have hx := (List.of_mem_zip hp).2
  cases hk : x.kind with
  | continuation =>
    have hpk : p.2.kind.isContinuation = true := by rw [hcell, cell, Cell.ofKind, hk]; rfl
    have hspan : p.2.columnSpan = x.span := by rw [hcell]; rfl
    cases habs : x.absorbs with
    | true =>
      obtain ⟨y, hy, hcarry⟩ := hw.owed x hx hk habs
      obtain ⟨a, ha⟩ := exists_mem_zip_right h.slots.length_eq hy
      exact .inr ⟨rfl, a, y, ha, h.caught?_eq_some ha hcarry.absorbs hpk (hstart.trans hcarry.start.symm)
        (hspan.trans hcarry.span.symm), hcarry⟩
    | false =>
      refine .inl ⟨h.caught?_eq_none ?_, fun _ => rfl⟩
      rw [hstart, hspan]
      exact hw.stray x hx hk habs
  | empty =>
    exact .inl ⟨SlotMatrix.caught?_eq_none (by rw [hcell, cell, Cell.ofKind, hk]; rfl), fun he => by cases he⟩
  | content e =>
    exact .inl ⟨SlotMatrix.caught?_eq_none (by rw [hcell, cell, Cell.ofKind, hk]; rfl), fun he => by cases he⟩

omit hN hw in
theorem getElem?_of_caught? {p : Slot × Cell} (hp : p ∈ m.placing (row.map Stitch.cell)) {i : Nat} {c : Cell}
    (hc : m.cells[i]? = some c) (hcaught : caught? m.lastRow m.cells p = some i) :
    (m.settleRow (row.map Stitch.cell)).cells[i]? = some (addRows 1 c) := by
  obtain ⟨all, hall⟩ := h.counted
  have hi := (List.getElem?_eq_some_iff.1 hc).1
  have hle := hall.countP_caught?_le (row.map Stitch.cell) hi
  have hpos : 0 < (m.placing (row.map Stitch.cell)).countP fun p => caught? m.lastRow m.cells p == some i :=
    List.countP_pos_iff.2 ⟨p, hp, by simp [hcaught]⟩
  rw [getElem?_settleRow_of_lt hall.valid _ hi, hc, Option.map_some, Nat.le_antisymm hle hpos]

theorem holds_assign {p : Slot × Cell} {x : Stitch} (hp : (p, x) ∈ (m.placing (row.map Stitch.cell)).zip row) :
    Holds (m.settleRow (row.map Stitch.cell)).cells (T ++ row.map whole) (assign (caught? m.lastRow m.cells) p) x := by
  obtain ⟨all, hall⟩ := h.counted
  obtain ⟨hstart, hstop, hcell⟩ := (List.forall₂_iff_zip.1 (forall₂_placing hN hw)).2 hp
  refine ⟨hstart, hstop, ?_⟩
  obtain ⟨hmem, hx⟩ := List.of_mem_zip hp
  rcases h.fate hN hw hp with ⟨hnone, hk⟩ | ⟨habsorbs, a, y, hay, hsome, hcarry⟩
  · obtain ⟨j, hj, hxj⟩ := exists_of_mem_zip hp
    have howner : p.1.owner = T.length + j := by
      rw [h.length]
      exact owner_of_getElem?_placeFrom hj
    refine ⟨p.2, x.whole, ?_, ?_, ?_, ?_, fun _ => ?_⟩
    · rw [assign, hnone]
      exact getElem?_settleRow_of_mem hall.valid hmem
    · rw [assign, hnone]
      dsimp only [Option.getD_none]
      rw [howner, List.getElem?_append_right (Nat.le_add_right _ _), Nat.add_sub_cancel_left, List.getElem?_map, hxj]
      rfl
    · rw [hcell]
      rfl
    · rw [hcell]
      by_cases hcont : x.kind = .continuation
      · rw [hk hcont, cell, Cell.ofKind, hcont]
        rfl
      · refine ((hw.proper x hx).absorbs_eq ?_).symm
        cases hxk : x.kind <;> simp_all [CellKind.isContinuation]
    · rw [hcell, Nat.add_comm]
      rfl
  · obtain ⟨c, t, hc, ht, hspan, habs, hrows⟩ := (h.holds hay).exists_cell
    refine ⟨addRows 1 c, t, ?_, ?_, hspan.trans hcarry.span, ?_, fun _ => ?_⟩
    · rw [assign, hsome]
      exact h.getElem?_of_caught? hmem hc hsome
    · rw [assign, hsome]
      exact (List.getElem?_append_left (List.getElem?_eq_some_iff.1 ht).1).trans ht
    · rw [habsorbs, ← hcarry.absorbs, ← habs]
      rfl
    · rw [hrows hcarry.absorbs, hcarry.below]
      simp only [addRows]
      omega

omit h hN hw in
theorem mem_zip_lastRow (hv : m.Valid) {p : Slot × Cell} {x : Stitch}
    (hp : (p, x) ∈ (m.placing (row.map Stitch.cell)).zip row) :
    (assign (caught? m.lastRow m.cells) p, x) ∈ (m.settleRow (row.map Stitch.cell)).lastRow.zip row := by
  rw [lastRow_settleRow hv, List.zip_map_left]
  exact List.mem_map.2 ⟨(p, x), hp, rfl⟩

/-- A cell that has all its rows catches nothing, as what it would catch was to be announced. -/
theorem getElem?_of_done {i : Nat} {c t : Cell} (hc : m.cells[i]? = some c) (ht : T[i]? = some t) (hrows : c.rowSpan = t.rowSpan) :
    (m.settleRow (row.map Stitch.cell)).cells[i]? = some c := by
  obtain ⟨all, hall⟩ := h.counted
  have hzero : (m.placing (row.map Stitch.cell)).countP (fun p => caught? m.lastRow m.cells p == some i) = 0 := by
    refine List.countP_eq_zero.2 fun p hp hpi => ?_
    obtain ⟨x, hpx⟩ := exists_mem_zip_left (forall₂_placing hN hw).length_eq hp
    rcases h.fate hN hw hpx with ⟨hnone, -⟩ | ⟨-, a, y, hay, hsome, hcarry⟩
    · simp [hnone] at hpi
    · obtain rfl : a.owner = i := by simpa [hsome] using hpi
      obtain ⟨c₁, t₁, hc₁, ht₁, -, -, hsum⟩ := (h.holds hay).exists_cell
      obtain rfl := Option.some.inj (hc.symm.trans hc₁)
      obtain rfl := Option.some.inj (ht.symm.trans ht₁)
      have := hsum hcarry.absorbs
      have := hcarry.below
      omega
  rw [getElem?_settleRow_of_lt hall.valid _ (List.getElem?_eq_some_iff.1 hc).1, hc, hzero]
  rfl

/-- A cell that announces rows catches the stitch that goes on with it. -/
theorem exists_caught {a : Slot} {y : Stitch} (hay : (a, y) ∈ m.lastRow.zip above) (hbelow : 0 < y.below) :
    ∃ p x, (p, x) ∈ (m.placing (row.map Stitch.cell)).zip row ∧ caught? m.lastRow m.cells p = some a.owner ∧ y.Carries x := by
  have hy := (List.of_mem_zip hay).2
  have hplaced := forall₂_placing hN hw
  obtain ⟨x, hx, hxk, hxabs, hstart⟩ := hw.goes y hy hbelow
  obtain ⟨p, hpx⟩ := exists_mem_zip_right hplaced.length_eq hx
  rcases h.fate hN hw hpx with ⟨-, hstray⟩ | ⟨-, b, z, hbz, hsome, hcarry⟩
  · rw [hstray hxk] at hxabs
    cases hxabs
  · obtain rfl : z = y := h.laid.eq_of_start (List.of_mem_zip hbz).2 hy (hcarry.start.trans hstart)
    obtain ⟨hpstart, -, hpcell⟩ := (List.forall₂_iff_zip.1 hplaced).2 hpx
    have hspan : p.2.columnSpan = z.span := by
      rw [hpcell, hcarry.span]
      rfl
    exact ⟨p, x, hpx, h.caught?_eq_some hay hcarry.absorbs (caught?_eq_some_iff.1 hsome).1
      (hpstart.trans hcarry.start.symm) hspan, hcarry⟩

/-- An old cell has the row that the last row announced, and no other. -/
theorem kept_old {i : Nat} {c t : Cell} (hc : (m.settleRow (row.map Stitch.cell)).cells[i]? = some c) (ht : T[i]? = some t)
    (hk : c.kind.isContinuation = false) : c.rowSpan = t.rowSpan ∨
      ∃ a x, (a, x) ∈ (m.settleRow (row.map Stitch.cell)).lastRow.zip row ∧ a.owner = i ∧ 0 < x.below := by
  obtain ⟨all, hall⟩ := h.counted
  have hi : i < m.cells.length := h.length ▸ (List.getElem?_eq_some_iff.1 ht).1
  have hc₀ := List.getElem?_eq_getElem hi
  have hgrown := getElem?_settleRow_of_lt hall.valid (row.map Stitch.cell) hi
  rw [hc, hc₀, Option.map_some] at hgrown
  have hk₀ : (m.cells[i]).kind.isContinuation = false := by
    rw [Option.some.inj hgrown] at hk
    exact hk
  rcases (h.kept i _ t hc₀ ht).2.2 hk₀ with hrows | ⟨a, y, hay, rfl, hbelow⟩
  · left
    rw [Option.some.inj (hc.symm.trans (h.getElem?_of_done hN hw hc₀ ht hrows))]
    exact hrows
  · obtain ⟨p, x, hpx, hsome, hcarry⟩ := h.exists_caught hN hw hay hbelow
    obtain ⟨c₁, t₁, hc₁, ht₁, -, -, hsum⟩ := (h.holds hay).exists_cell
    obtain rfl := Option.some.inj (hc₀.symm.trans hc₁)
    obtain rfl := Option.some.inj (ht.symm.trans ht₁)
    obtain rfl := Option.some.inj (hc.symm.trans (h.getElem?_of_caught? (List.of_mem_zip hpx).1 hc₀ hsome))
    have hsum := hsum hcarry.absorbs
    rw [hcarry.below] at hsum
    by_cases hx0 : x.below = 0
    · left
      simp only [addRows]
      omega
    · right
      refine ⟨_, x, mem_zip_lastRow hall.valid hpx, ?_, Nat.pos_of_ne_zero hx0⟩
      rw [assign, hsome]
      rfl

theorem settleRow : (m.settleRow (row.map Stitch.cell)).Weaves (T ++ row.map whole) row := by
  obtain ⟨all, hall⟩ := h.counted
  have hplaced := forall₂_placing hN hw
  have hone : ∀ c ∈ row.map Stitch.cell, c.rowSpan = 1 := by
    intro c hc
    obtain ⟨x, -, rfl⟩ := List.mem_map.1 hc
    rfl
  refine ⟨⟨_, hall.settleRow _ hone⟩, hw.laid, hw.proper, ?_, ?_, fun i c t hc ht => ?_⟩
  · rw [lastRow_settleRow hall.valid]
    exact List.forall₂_map_left_iff.2 (List.forall₂_iff_zip.2 ⟨hplaced.length_eq, fun hp => h.holds_assign hN hw hp⟩)
  · rw [length_cells_settleRow hall.valid, List.length_append, h.length, List.length_map, hplaced.length_eq]
  · by_cases hi : i < T.length
    · rw [List.getElem?_append_left hi] at ht
      have hold := hc
      rw [getElem?_settleRow_of_lt hall.valid _ (h.length ▸ hi)] at hold
      obtain ⟨c₀, hc₀, rfl⟩ := Option.map_eq_some_iff.1 hold
      obtain ⟨hkind, hspan, -⟩ := h.kept i c₀ t hc₀ ht
      exact ⟨hkind, hspan, h.kept_old hN hw hc ht⟩
    · rw [List.getElem?_append_right (Nat.le_of_not_lt hi), List.getElem?_map] at ht
      obtain ⟨x, hx, rfl⟩ := Option.map_eq_some_iff.1 ht
      obtain ⟨p, hpx⟩ : ∃ p, ((m.placing (row.map Stitch.cell)).zip row)[i - T.length]? = some (p, x) := by
        have hj := (List.getElem?_eq_some_iff.1 hx).1
        rw [← hplaced.length_eq] at hj
        exact ⟨_, List.getElem?_zip_eq_some.2 ⟨List.getElem?_eq_getElem hj, hx⟩⟩
      have hmem := List.mem_of_getElem? hpx
      have howner : p.1.owner = i := by
        have howner : p.1.owner = m.cells.length + (i - T.length) :=
          owner_of_getElem?_placeFrom (List.getElem?_zip_eq_some.1 hpx).1
        have hlength := h.length
        omega
      subst howner
      rw [getElem?_settleRow_of_mem hall.valid (List.of_mem_zip hmem).1] at hc
      obtain rfl := Option.some.inj hc
      obtain ⟨-, -, hcell⟩ := (List.forall₂_iff_zip.1 hplaced).2 hmem
      refine ⟨by rw [hcell]; rfl, by rw [hcell]; rfl, fun hk => ?_⟩
      by_cases hx0 : x.below = 0
      · left
        rw [hcell, whole, hx0]
        rfl
      · right
        refine ⟨_, x, mem_zip_lastRow hall.valid hmem, ?_, Nat.pos_of_ne_zero hx0⟩
        rw [assign, SlotMatrix.caught?_eq_none hk]
        rfl

end Weaves

/-! ## All rows -/

theorem weaves_empty (N : Nat) : (empty N).Weaves [] [] := by
  refine ⟨⟨[], counted_empty N⟩, trivial, by simp, .nil, rfl, ?_⟩
  simp

theorem Weaves.foldl_settleRow : ∀ {rows : List (List Stitch)} {m : SlotMatrix} {T : List Cell} {above : List Stitch},
    m.Weaves T above → m.columnCount ≤ Count.ceiling → (above :: rows).IsChain (Woven m.columnCount) →
    ((rows.map fun row => row.map cell).foldl SlotMatrix.settleRow m).Weaves (T ++ rows.flatten.map whole)
      ((above :: rows).getLast (List.cons_ne_nil _ _))
  | [], m, T, above, h, _, _ => by
    show m.Weaves (T ++ []) above
    rw [List.append_nil]
    exact h
  | row :: rows, m, T, above, h, hN, hchain => by
    obtain ⟨hw, hchain⟩ := List.isChain_cons_cons.1 hchain
    obtain ⟨all, hall⟩ := h.counted
    have hcolumns : (m.settleRow (row.map cell)).columnCount = m.columnCount :=
      columnCount_foldl_settleRow [row.map cell] hall.valid
    have hnext := (h.settleRow hN hw).foldl_settleRow (hcolumns.symm ▸ hN) (hcolumns.symm ▸ hchain)
    rw [List.append_assoc, ← List.map_append] at hnext
    rw [List.getLast_cons_cons]
    exact hnext

theorem eq_of_fields {c t : Cell} (hkind : c.kind = t.kind) (hspan : c.columnSpan = t.columnSpan)
    (hrows : c.rowSpan = t.rowSpan) : c = t := by
  cases c
  cases t
  simp_all

theorem filter_eq_of_forall₂ {f : Cell → Bool} : ∀ {cs ts : List Cell},
    List.Forall₂ (fun c t => f c = f t ∧ (f c = true → c = t)) cs ts → cs.filter f = ts.filter f
  | [], [], .nil => rfl
  | c :: cs, t :: ts, .cons ⟨hf, heq⟩ h => by
    have ih := filter_eq_of_forall₂ h
    by_cases hc : f c = true
    · obtain rfl := heq hc
      rw [List.filter_cons_of_pos hc, List.filter_cons_of_pos hc, ih]
    · rw [List.filter_cons_of_neg hc, List.filter_cons_of_neg (hf ▸ hc), ih]

/-- **Woven rows are read as the cells that they announce.** -/
theorem cells_toLayout_woven {N : Nat} (hN : N ≤ Count.ceiling) {rows : List (List Stitch)}
    (hchain : ([] :: rows).IsChain (Woven N)) (hlast : ∀ x ∈ rows.getLast?.getD [], x.below = 0) :
    ((rows.map fun row => row.map cell).foldl placeRow (empty N)).merge.toLayout.cells =
      (rows.flatten.map whole).filter fun c => !c.kind.isContinuation := by
  have h := (weaves_empty N).foldl_settleRow hN hchain
  rw [List.nil_append] at h
  rw [cells_toLayout_foldl]
  refine filter_eq_of_forall₂ (List.forall₂_iff_get.2 ⟨h.length.symm, fun i h₁ h₂ => ?_⟩)
  obtain ⟨hkind, hspan, hrows⟩ := h.kept i _ _ (List.getElem?_eq_getElem h₁) (List.getElem?_eq_getElem h₂)
  have hnone : ∀ y ∈ ([] :: rows).getLast (List.cons_ne_nil _ _), y.below = 0 := by
    rcases List.eq_nil_or_concat rows with rfl | ⟨rows, row, rfl⟩
    · simp
    · simpa using hlast
  refine ⟨congrArg (fun k => !k.isContinuation) hkind, fun hk => ?_⟩
  rcases hrows (by simpa using hk) with hrows | ⟨a, y, hay, -, hbelow⟩
  · exact eq_of_fields hkind hspan hrows
  · rw [hnone y (List.of_mem_zip hay).2] at hbelow
    cases hbelow

end SlotMatrix
end Gridmark
