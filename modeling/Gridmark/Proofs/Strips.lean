import Gridmark.Proofs.Settling
/-!
# Strips — the columns of a cell in each of its rows

A cell that takes over a continuation grows by a row of its own width, but the row stands on the columns of the
continuation, and the slot above the first of these may start before it.  So a cell with content stands in consecutive rows
on as many columns as it spans, and from one row to the next these move to the right by less than their number
(`IsStrip`).  The cell is a rectangle just when they do not move, that is when every continuation that it took over starts
where the slot above it does (`isStrip_merge`).
-/
namespace Gridmark
namespace SlotMatrix

/-- The columns of the cell are the given number of columns from one row on, the same in each of its rows. -/
def IsRectangle (m : SlotMatrix) (i : Nat) (c : Cell) : Prop :=
  ∃ top start, ∀ row column, m.ownerAt? row column = some i ↔
    (top ≤ row ∧ row < top + c.rowSpan) ∧ start ≤ column ∧ column < start + c.columnSpan

/-- The cell has as many columns as it spans in each of its rows, from the given ones on and row under row. -/
structure IsStrip (m : SlotMatrix) (i : Nat) (c : Cell) (top : Nat) (starts : List Nat) : Prop where
  rows : starts.length = c.rowSpan
  ownerAt?_iff : ∀ row column, m.ownerAt? row column = some i ↔
    ∃ k start, starts[k]? = some start ∧ row = top + k ∧ start ≤ column ∧ column < start + c.columnSpan
  drift : starts.IsChain fun a b => a ≤ b ∧ b < a + c.columnSpan

/-! ## Slots that name a cell -/

/-- The slot stands in the row and names the cell. -/
def Names (m : SlotMatrix) (i row : Nat) (s : Slot) : Prop := ∃ slots, m.rows[row]? = some slots ∧ s ∈ slots ∧ s.owner = i

/-- No two slots of a row share a column. -/
def Apart (m : SlotMatrix) : Prop := ∀ slots ∈ m.rows, slots.Pairwise fun a b => a.stop ≤ b.start

theorem Apart.le_or_le {m : SlotMatrix} (h : m.Apart) {i j row : Nat} {s t : Slot} (hs : m.Names i row s)
    (ht : m.Names j row t) (hne : s ≠ t) : s.stop ≤ t.start ∨ t.stop ≤ s.start := by
  obtain ⟨slots, hrow, hs, -⟩ := hs
  obtain ⟨slots', hrow', ht, -⟩ := ht
  obtain rfl : slots = slots' := Option.some.inj (hrow.symm.trans hrow')
  have hp : slots.Pairwise fun a b : Slot => a.stop ≤ b.start ∨ b.stop ≤ a.start :=
    (h slots (List.mem_of_getElem? hrow)).imp .inl
  have : Std.Symm fun a b : Slot => a.stop ≤ b.start ∨ b.stop ≤ a.start := ⟨fun _ _ => Or.symm⟩
  exact hp.forall hs ht hne

theorem exists_names_of_ownerAt? {m : SlotMatrix} {row column i : Nat} (h : m.ownerAt? row column = some i) :
    ∃ s, m.Names i row s ∧ s.start ≤ column ∧ column < s.stop := by
  obtain ⟨s, hs, rfl⟩ := Option.map_eq_some_iff.1 h
  obtain ⟨slots, hrow, hfind⟩ := Option.bind_eq_some_iff.1 hs
  have hc := List.find?_some hfind
  simp only [Slot.covers, Bool.and_eq_true, decide_eq_true_eq] at hc
  exact ⟨s, ⟨slots, hrow, List.mem_of_find?_eq_some hfind, rfl⟩, hc⟩

theorem Apart.ownerAt?_iff {m : SlotMatrix} (h : m.Apart) {row column i : Nat} :
    m.ownerAt? row column = some i ↔ ∃ s, m.Names i row s ∧ s.start ≤ column ∧ column < s.stop := by
  refine ⟨exists_names_of_ownerAt?, ?_⟩
  rintro ⟨s, hs, hc⟩
  have hcovers : s.covers column = true := by simpa [Slot.covers] using hc
  obtain ⟨slots, hrow, hmem, rfl⟩ := hs
  cases ho : m.ownerAt? row column with
  | none =>
    rw [ownerAt?, hrow, Option.bind_some, Option.map_eq_none_iff, List.find?_eq_none] at ho
    exact absurd hcovers (ho s hmem)
  | some j =>
    obtain ⟨t, ht, htc⟩ := exists_names_of_ownerAt? ho
    by_cases hst : s = t
    · obtain ⟨-, -, -, hj⟩ := ht
      rw [hst, hj]
    · have := h.le_or_le ⟨slots, hrow, hmem, rfl⟩ ht hst
      omega

/-! ## The invariant -/

/-- The slots that name a cell are as wide as the cell and start at the given columns, row under row. -/
structure Stacks (m : SlotMatrix) (i span top : Nat) (starts : List Nat) : Prop where
  ne_nil : starts ≠ []
  names_iff : ∀ row s, m.Names i row s ↔ ∃ k start, starts[k]? = some start ∧ row = top + k ∧ s = ⟨start, start + span, i⟩
  drift : starts.IsChain fun a b => a ≤ b ∧ b < a + span

/-- Every further row of a cell stands where one of the continuations does. -/
def Takes (all : List PendingMerge) (top : Nat) (starts : List Nat) : Prop :=
  ∀ k start, starts[k + 1]? = some start → ∃ owner, ⟨top + (k + 1), start, owner⟩ ∈ all

/-- What holds while continuations are settled: some of all of them are still to come. -/
structure Stacked (m : SlotMatrix) (all todo : List PendingMerge) : Prop where
  apart : m.Apart
  content : ∀ i c, m.cells[i]? = some c → c.kind.isContent = true →
    ∃ top starts, starts.length = c.rowSpan ∧ m.Stacks i c.columnSpan top starts ∧ Takes all top starts
  pending : ∀ p ∈ todo, p ∈ all ∧ ∃ c, m.cells[p.owner]? = some c ∧ c.kind.isContinuation = true ∧
    m.Stacks p.owner c.columnSpan p.row [p.column]
  nodup : (todo.map PendingMerge.owner).Nodup

variable {m m' : SlotMatrix} {i j span top : Nat} {starts : List Nat} {all todo : List PendingMerge} {p : PendingMerge}

theorem Stacks.congr (h : m.Stacks i span top starts) (hn : ∀ row s, m'.Names i row s ↔ m.Names i row s) :
    m'.Stacks i span top starts :=
  ⟨h.ne_nil, fun row s => (hn row s).trans (h.names_iff row s), h.drift⟩

theorem Stacks.names {k start : Nat} (h : m.Stacks i span top starts) (hk : starts[k]? = some start) :
    m.Names i (top + k) ⟨start, start + span, i⟩ :=
  (h.names_iff _ _).2 ⟨k, start, hk, rfl, rfl⟩

theorem Stacks.eq_of_names {row column : Nat} {s : Slot} (h : m.Stacks i span row [column]) {r : Nat} (hs : m.Names i r s) :
    r = row ∧ s = ⟨column, column + span, i⟩ := by
  obtain ⟨k, start, hk, rfl, rfl⟩ := (h.names_iff _ _).1 hs
  cases k with
  | zero => exact ⟨rfl, by rw [← Option.some.inj hk]⟩
  | succ k => cases hk

/-! ## One continuation -/

/-- A taken over continuation hands its slot to its target, and nothing else changes hands. -/
theorem names_absorb_iff {target : Nat} (hp : m.Stacks p.owner span p.row [p.column]) (hne : target ≠ p.owner)
    (row : Nat) (s : Slot) :
    (m.absorb target p).Names i row s ↔ (i ≠ p.owner ∧ m.Names i row s) ∨
      (i = target ∧ row = p.row ∧ s = ⟨p.column, p.column + span, target⟩) := by
  have hrows : (m.absorb target p).rows[row]? =
      m.rows[row]?.map fun slots => if p.row = row then slots.map (Slot.reassign p.owner target) else slots := by
    rw [absorb, List.getElem?_modify]
    rfl
  constructor
  · rintro ⟨slots', hslots', hs, rfl⟩
    rw [hrows] at hslots'
    obtain ⟨slots, hslots, rfl⟩ := Option.map_eq_some_iff.1 hslots'
    split at hs
    · rename_i hrow
      obtain ⟨t, ht, rfl⟩ := List.mem_map.1 hs
      unfold Slot.reassign
      split
      · rename_i ho
        obtain ⟨-, rfl⟩ := hp.eq_of_names ⟨slots, hslots, ht, ho⟩
        exact .inr ⟨rfl, hrow.symm, rfl⟩
      · rename_i ho
        exact .inl ⟨ho, slots, hslots, ht, rfl⟩
    · rename_i hrow
      refine .inl ⟨fun ho => hrow ?_, slots, hslots, hs, rfl⟩
      exact (hp.eq_of_names ⟨slots, hslots, hs, ho⟩).1.symm
  · rintro (⟨ho, slots, hslots, hs, rfl⟩ | ⟨rfl, rfl, rfl⟩)
    · refine ⟨_, by rw [hrows, hslots]; rfl, ?_, rfl⟩
      split
      · exact List.mem_map.2 ⟨s, hs, if_neg ho⟩
      · exact hs
    · obtain ⟨slots, hslots, hs, -⟩ := hp.names (k := 0) rfl
      refine ⟨_, by rw [hrows, show m.rows[p.row]? = some slots from hslots]; rfl, ?_, rfl⟩
      dsimp only
      rw [if_pos rfl]
      exact List.mem_map.2 ⟨_, hs, if_pos rfl⟩

theorem Apart.absorb {target : Nat} (h : m.Apart) : (m.absorb target p).Apart := by
  have hreassign : ∀ s, (Slot.reassign p.owner target s).start = s.start ∧ (Slot.reassign p.owner target s).stop = s.stop := by
    intro s
    unfold Slot.reassign
    split <;> exact ⟨rfl, rfl⟩
  intro slots hslots
  obtain ⟨r, hr⟩ := List.mem_iff_getElem?.1 hslots
  rw [SlotMatrix.absorb, List.getElem?_modify] at hr
  obtain ⟨before, hb, rfl⟩ := Option.map_eq_some_iff.1 hr
  have hbefore := h before (List.mem_of_getElem? hb)
  split
  · refine List.pairwise_map.2 (hbefore.imp fun {a b} hab => ?_)
    rw [(hreassign a).2, (hreassign b).1]
    exact hab
  · exact hbefore

theorem exists_names_of_ownerAbove? {target : Nat} (h : m.ownerAbove? p = some target) :
    ∃ row s, p.row = row + 1 ∧ m.Names target row s ∧ s.start ≤ p.column ∧ p.column < s.stop := by
  unfold ownerAbove? at h
  split at h
  · cases h
  · rename_i row hrow
    obtain ⟨s, hs, hcovers⟩ := exists_names_of_ownerAt? h
    exact ⟨row, s, hrow, hs, hcovers⟩

/-- **A cell that takes over a continuation has no slot in its row**: two slots of one width that both start within the slot
above would share a column. -/
theorem Stacks.last_above {target : Nat} (hm : m.Apart) (ht : m.Stacks target span top starts)
    (hp : m.Stacks p.owner span p.row [p.column]) (hne : target ≠ p.owner) (ha : m.ownerAbove? p = some target) :
    p.row = top + starts.length ∧ ∃ start, starts.getLast? = some start ∧ start ≤ p.column ∧ p.column < start + span := by
  obtain ⟨row, s, hrow, hs, hcovers⟩ := exists_names_of_ownerAbove? ha
  obtain ⟨k, start, hk, rfl, rfl⟩ := (ht.names_iff _ _).1 hs
  obtain ⟨hk', hstart⟩ := List.getElem?_eq_some_iff.1 hk
  have hlast : k + 1 = starts.length := by
    -- else the cell has a slot beside the continuation, and the two start less than their width apart
    by_contra hend
    have hlt : k + 1 < starts.length := by omega
    have hdrift := List.isChain_iff_getElem.1 ht.drift k hlt
    have hnext : m.Names target p.row ⟨starts[k + 1], starts[k + 1] + span, target⟩ := by
      rw [hrow, Nat.add_assoc]
      exact ht.names (List.getElem?_eq_getElem hlt)
    have hhere : m.Names p.owner p.row ⟨p.column, p.column + span, p.owner⟩ := hp.names (k := 0) rfl
    have hapart := hm.le_or_le hnext hhere fun he => hne (congrArg Slot.owner he)
    rw [hstart] at hdrift
    dsimp only at hapart hcovers
    omega
  refine ⟨by omega, start, ?_, hcovers⟩
  rw [List.getLast?_eq_getElem?, ← hlast, Nat.add_sub_cancel, hk]

theorem getElem?_concat_iff {α : Type} {l : List α} {a b : α} {k : Nat} :
    (l ++ [a])[k]? = some b ↔ l[k]? = some b ∨ k = l.length ∧ b = a := by
  by_cases hk : k < l.length
  · rw [List.getElem?_append_left hk]
    simp [Nat.ne_of_lt hk]
  · by_cases hend : k = l.length
    · subst hend
      simp [eq_comm]
    · have hnone : (l ++ [a])[k]? = none := List.getElem?_eq_none (by simp; omega)
      simp [hend, hnone, Nat.le_of_not_lt hk]

theorem Stacks.concat {target : Nat} (hm : m.Apart) (ht : m.Stacks target span top starts)
    (hp : m.Stacks p.owner span p.row [p.column]) (hne : target ≠ p.owner) (ha : m.ownerAbove? p = some target) :
    (m.absorb target p).Stacks target span top (starts ++ [p.column]) := by
  obtain ⟨hrow, last, hlast, hdrift⟩ := ht.last_above hm hp hne ha
  refine ⟨by simp, fun row s => ?_, ?_⟩
  · rw [names_absorb_iff hp hne, ht.names_iff, hrow]
    simp only [getElem?_concat_iff]
    constructor
    · rintro (⟨-, k, start, hk, h⟩ | ⟨-, rfl, rfl⟩)
      · exact ⟨k, start, .inl hk, h⟩
      · exact ⟨starts.length, p.column, .inr ⟨rfl, rfl⟩, rfl, rfl⟩
    · rintro ⟨k, start, hk | ⟨rfl, rfl⟩, h⟩
      · exact .inl ⟨hne, k, start, hk, h⟩
      · exact .inr ⟨trivial, h⟩
  · refine List.isChain_append.2 ⟨ht.drift, .singleton _, fun a hla b hb => ?_⟩
    obtain rfl : p.column = b := Option.some.inj hb
    obtain rfl : last = a := Option.some.inj (hlast.symm.trans hla)
    exact hdrift

theorem Takes.concat (h : Takes all top starts) (hp : p ∈ all) (hrow : p.row = top + starts.length) :
    Takes all top (starts ++ [p.column]) := by
  intro k start hk
  rcases getElem?_concat_iff.1 hk with hk | ⟨hend, rfl⟩
  · exact h k start hk
  · refine ⟨p.owner, ?_⟩
    rw [hend, ← hrow]
    exact hp

/-! ## All continuations -/

theorem exists_of_canAbsorb {target owner : Nat} {c : Cell} (h : m.canAbsorb target owner = true)
    (hc : m.cells[owner]? = some c) :
    ∃ t, m.cells[target]? = some t ∧ t.kind.isContent = true ∧ t.columnSpan = c.columnSpan := by
  rw [canAbsorb, hc] at h
  split at h
  · rename_i t d ht hd
    obtain rfl := Option.some.inj hd
    obtain ⟨hk, hs⟩ := Bool.and_eq_true_iff.1 h
    exact ⟨t, ht, hk, eq_of_beq hs⟩
  · cases h

theorem ne_of_isContent {c d : Cell} (hc : m.cells[i]? = some c) (hd : m.cells[j]? = some d)
    (hcontent : c.kind.isContent = true) (hcontinuation : d.kind.isContinuation = true) : i ≠ j := by
  rintro rfl
  obtain rfl := Option.some.inj (hc.symm.trans hd)
  cases hk : c.kind <;> simp_all [CellKind.isContent, CellKind.isContinuation]

theorem Stacked.tail (h : m.Stacked all (p :: todo)) : m.Stacked all todo :=
  ⟨h.apart, h.content, fun q hq => h.pending q (List.mem_cons_of_mem p hq), (List.nodup_cons.1 (List.map_cons ▸ h.nodup)).2⟩

theorem Stacked.absorb {target : Nat} (h : m.Stacked all (p :: todo)) (ha : m.ownerAbove? p = some target)
    (hab : m.canAbsorb target p.owner = true) : (m.absorb target p).Stacked all todo := by
  obtain ⟨hall, c, hc, hkind, hp⟩ := h.pending p List.mem_cons_self
  obtain ⟨t, ht, htkind, hspan⟩ := exists_of_canAbsorb hab hc
  obtain ⟨top, starts, hlen, hstacks, htakes⟩ := h.content target t ht htkind
  have hne : target ≠ p.owner := ne_of_isContent ht hc htkind hkind
  rw [← hspan] at hp
  have hother : ∀ {i : Nat}, i ≠ p.owner → i ≠ target → ∀ row s,
      (m.absorb target p).Names i row s ↔ m.Names i row s := by
    intro i ho ht row s
    simp [names_absorb_iff hp hne, ho, ht]
  have hcells : ∀ {i : Nat}, i ≠ target → (m.absorb target p).cells[i]? = m.cells[i]? :=
    fun hi => List.getElem?_modify_ne _ _ hi.symm
  -- the target grows by one start; no other cell and no continuation to come has a slot that changes hands
  refine ⟨h.apart.absorb, fun i d hd hdkind => ?_, fun q hq => ?_, h.tail.nodup⟩
  · by_cases hi : i = target
    · subst hi
      rw [SlotMatrix.absorb, List.getElem?_modify_eq, ht] at hd
      obtain rfl := Option.some.inj hd
      exact ⟨top, starts ++ [p.column], by simp [hlen], hstacks.concat h.apart hp hne ha,
        htakes.concat hall (hstacks.last_above h.apart hp hne ha).1⟩
    · rw [hcells hi] at hd
      obtain ⟨top', starts', hlen', hst, htk⟩ := h.content i d hd hdkind
      exact ⟨top', starts', hlen', hst.congr (hother (ne_of_isContent hd hc hdkind hkind) hi), htk⟩
  · obtain ⟨hqall, d, hd, hdkind, hst⟩ := h.tail.pending q hq
    have hfresh := (List.nodup_cons.1 (List.map_cons ▸ h.nodup)).1
    have hqp : q.owner ≠ p.owner := fun he => hfresh (he ▸ List.mem_map_of_mem hq)
    have hqt : q.owner ≠ target := (ne_of_isContent ht hd htkind hdkind).symm
    exact ⟨hqall, d, by rw [hcells hqt, hd], hdkind, hst.congr (hother hqp hqt)⟩

/-- **Settling one continuation** keeps the slots of every cell stacked. -/
theorem Stacked.mergeOne (h : m.Stacked all (p :: todo)) : (m.mergeOne p).Stacked all todo := by
  unfold SlotMatrix.mergeOne
  split
  · rename_i target ha
    split
    · rename_i hab
      exact h.absorb ha hab
    · exact h.tail
  · exact h.tail

theorem Stacked.foldl_mergeOne : ∀ {todo : List PendingMerge} {m : SlotMatrix}, m.Stacked all todo →
    (todo.foldl SlotMatrix.mergeOne m).Stacked all []
  | [], _, h => h
  | _ :: _, _, h => h.mergeOne.foldl_mergeOne

/-! ## All rows -/

section Rows

variable {row : List Cell}

theorem names_placeRow_of_lt (hi : i < m.cells.length) (r : Nat) (s : Slot) :
    (m.placeRow row).Names i r s ↔ m.Names i r s := by
  constructor
  · rintro ⟨slots, hslots, hs, rfl⟩
    rcases List.mem_append.1 (List.mem_of_getElem? hslots) with hmem | hmem
    · by_cases hr : r < m.rows.length
      · rw [SlotMatrix.placeRow, List.getElem?_append_left hr] at hslots
        exact ⟨slots, hslots, hs, rfl⟩
      · have := (List.getElem?_eq_some_iff.1 hslots).1
        simp only [SlotMatrix.placeRow, List.length_append, List.length_singleton] at this
        obtain rfl : r = m.rows.length := by omega
        rw [SlotMatrix.placeRow, List.getElem?_concat_length] at hslots
        obtain rfl := Option.some.inj hslots
        obtain ⟨p, hp, rfl⟩ := List.mem_map.1 hs
        have := owner_lt_of_mem_placeFrom p hp
        omega
    · obtain rfl := List.mem_singleton.1 hmem
      obtain ⟨p, hp, rfl⟩ := List.mem_map.1 hs
      have := owner_lt_of_mem_placeFrom p hp
      omega
  · rintro ⟨slots, hslots, hs⟩
    have hr : r < m.rows.length := (List.getElem?_eq_some_iff.1 hslots).1
    exact ⟨slots, by rw [SlotMatrix.placeRow, List.getElem?_append_left hr, hslots], hs⟩

theorem names_placeRow_of_mem (hv : m.Valid) {p : Slot × Cell}
    (hp : p ∈ placeFrom m.columnCount 0 m.cells.length row) (r : Nat) (s : Slot) :
    (m.placeRow row).Names p.1.owner r s ↔ r = m.rows.length ∧ s = p.1 := by
  have hlast : (m.placeRow row).rows[m.rows.length]? =
      some ((placeFrom m.columnCount 0 m.cells.length row).map (·.1)) := List.getElem?_concat_length
  have hnodup : ((placeFrom m.columnCount 0 m.cells.length row).map fun p => p.1.owner).Nodup := by
    rw [map_owner_placeFrom]
    exact List.nodup_range'
  constructor
  · rintro ⟨slots, hslots, hs, ho⟩
    have hr : r = m.rows.length := by
      by_contra hne
      have hlt := (List.getElem?_eq_some_iff.1 hslots).1
      simp only [SlotMatrix.placeRow, List.length_append, List.length_singleton] at hlt
      rw [SlotMatrix.placeRow, List.getElem?_append_left (by omega)] at hslots
      have hold := hv slots (List.mem_of_getElem? hslots) s hs
      have hnew := owner_lt_of_mem_placeFrom p hp
      omega
    subst hr
    obtain rfl := Option.some.inj (hslots.symm.trans hlast)
    obtain ⟨q, hq, rfl⟩ := List.mem_map.1 hs
    exact ⟨rfl, by rw [List.inj_on_of_nodup_map hnodup hq hp ho]⟩
  · rintro ⟨rfl, rfl⟩
    exact ⟨_, hlast, List.mem_map_of_mem hp, rfl⟩

theorem stacks_placeRow (hv : m.Valid) {p : Slot × Cell}
    (hp : p ∈ placeFrom m.columnCount 0 m.cells.length row) :
    (m.placeRow row).Stacks p.1.owner p.2.columnSpan m.rows.length [p.1.start] := by
  obtain ⟨-, -, hstop, -⟩ := of_mem_placeFrom (Nat.zero_le _) p hp
  refine ⟨List.cons_ne_nil _ _, fun r s => ?_, .singleton _⟩
  rw [names_placeRow_of_mem hv hp]
  constructor
  · rintro ⟨rfl, rfl⟩
    exact ⟨0, _, rfl, rfl, by rw [← hstop]⟩
  · rintro ⟨k, start, hk, rfl, rfl⟩
    cases k with
    | zero =>
      obtain rfl := Option.some.inj hk
      exact ⟨rfl, by rw [← hstop]⟩
    | succ k => cases hk

theorem getElem?_cells_placeRow {c : Cell} : (m.placeRow row).cells[i]? = some c ↔ m.cells[i]? = some c ∨
    ∃ p ∈ placeFrom m.columnCount 0 m.cells.length row, p.1.owner = i ∧ p.2 = c := by
  rw [SlotMatrix.placeRow]
  dsimp only
  constructor
  · intro h
    by_cases hi : i < m.cells.length
    · rw [List.getElem?_append_left hi] at h
      exact .inl h
    · rw [List.getElem?_append_right (Nat.le_of_not_lt hi), List.getElem?_map] at h
      obtain ⟨p, hp, rfl⟩ := Option.map_eq_some_iff.1 h
      refine .inr ⟨p, List.mem_of_getElem? hp, ?_, rfl⟩
      rw [owner_of_getElem?_placeFrom hp]
      omega
  · rintro (h | ⟨p, hp, rfl, rfl⟩)
    · rw [List.getElem?_append_left (List.getElem?_eq_some_iff.1 h).1, h]
    · obtain ⟨j, hj⟩ := List.mem_iff_getElem?.1 hp
      rw [owner_of_getElem?_placeFrom hj, List.getElem?_append_right (Nat.le_add_right _ _), Nat.add_sub_cancel_left,
        List.getElem?_map, hj]
      rfl

theorem nodup_pending_placeRow (hold : (m.pending.map PendingMerge.owner).Nodup)
    (hlt : ∀ p ∈ m.pending, p.owner < m.cells.length) : ((m.placeRow row).pending.map PendingMerge.owner).Nodup := by
  have hnew : (pendingOf m.rows.length (placeFrom m.columnCount 0 m.cells.length row)).map PendingMerge.owner =
      ((placeFrom m.columnCount 0 m.cells.length row).filter fun p => p.2.kind.isContinuation).map fun p => p.1.owner := by
    rw [pendingOf, ← List.filterMap_eq_map, List.filterMap_filterMap, ← List.filterMap_eq_map, List.filterMap_filter]
    refine List.filterMap_congr fun p _ => ?_
    split <;> rfl
  have hnodup : ((placeFrom m.columnCount 0 m.cells.length row).map fun p => p.1.owner).Nodup := by
    rw [map_owner_placeFrom]
    exact List.nodup_range'
  rw [SlotMatrix.placeRow, List.map_append, hnew]
  refine hold.append (hnodup.sublist (List.filter_sublist.map _)) fun i hi hi' => ?_
  obtain ⟨p, hp, rfl⟩ := List.mem_map.1 hi
  obtain ⟨q, hq, ho⟩ := List.mem_map.1 hi'
  have := hlt p hp
  have := (owner_lt_of_mem_placeFrom q (List.mem_filter.1 hq).1).1
  omega

/-- **A row that is put under the others** takes over nothing yet. -/
theorem Stacked.placeRow (h : m.Stacked m.pending m.pending) (hv : m.Valid) (hrow : ∀ c ∈ row, c.rowSpan = 1) :
    (m.placeRow row).Stacked (m.placeRow row).pending (m.placeRow row).pending := by
  have hlt : ∀ {i : Nat} {c : Cell}, m.cells[i]? = some c → i < m.cells.length :=
    fun hc => (List.getElem?_eq_some_iff.1 hc).1
  refine ⟨fun slots hslots => ?_, fun i c hc hkind => ?_, fun q hq => ⟨hq, ?_⟩, ?_⟩
  · rcases List.mem_append.1 hslots with hslots | hslots
    · exact h.apart slots hslots
    · rw [List.mem_singleton.1 hslots]
      exact List.pairwise_map.2 (pairwise_placeFrom (Nat.zero_le _))
  · rcases getElem?_cells_placeRow.1 hc with hc | ⟨p, hp, rfl, rfl⟩
    · obtain ⟨top, starts, hlen, hst, htakes⟩ := h.content i c hc hkind
      refine ⟨top, starts, hlen, hst.congr (names_placeRow_of_lt (hlt hc)), fun k start hk => ?_⟩
      obtain ⟨owner, ho⟩ := htakes k start hk
      exact ⟨owner, List.mem_append_left _ ho⟩
    · obtain ⟨-, -, -, c, hc, he⟩ := of_mem_placeFrom (Nat.zero_le _) p hp
      refine ⟨_, _, ?_, stacks_placeRow hv hp, fun k start hk => by cases hk⟩
      rw [he]
      exact (hrow c hc).symm
  · rcases List.mem_append.1 hq with hq | hq
    · obtain ⟨-, c, hc, hkind, hst⟩ := h.pending q hq
      exact ⟨c, getElem?_cells_placeRow.2 (.inl hc), hkind, hst.congr (names_placeRow_of_lt (hlt hc))⟩
    · obtain ⟨p, hp, hs⟩ := List.mem_filterMap.1 hq
      split at hs
      · rename_i hkind
        cases hs
        exact ⟨p.2, getElem?_cells_placeRow.2 (.inr ⟨p, hp, rfl, rfl⟩), hkind, stacks_placeRow hv hp⟩
      · cases hs
  · refine nodup_pending_placeRow h.nodup fun q hq => ?_
    obtain ⟨-, c, hc, -⟩ := h.pending q hq
    exact hlt hc

end Rows

theorem Stacked.merge (h : m.Stacked m.pending m.pending) : m.merge.Stacked m.pending [] := by
  obtain ⟨ha, hc, -, -⟩ := h.foldl_mergeOne
  refine ⟨ha, fun i c hi hk => ?_, fun _ hp => (by cases hp), List.nodup_nil⟩
  obtain ⟨top, starts, hlen, hst, ht⟩ := hc i c hi hk
  exact ⟨top, starts, hlen, hst.congr fun _ _ => Iff.rfl, ht⟩

theorem Stacked.foldl_placeText : ∀ (rows : List Text) {m : SlotMatrix}, m.Stacked m.pending m.pending → m.Valid →
    (rows.foldl placeText m).Stacked (rows.foldl placeText m).pending (rows.foldl placeText m).pending
  | [], _, h, _ => h
  | row :: rows, m, h, hv => by
    have hrow : ∀ c ∈ RowCell.resolve (RowCell.readRow row) m.columnCount, c.rowSpan = 1 := by
      intro c hc
      obtain ⟨i, hi, rfl⟩ := List.mem_mapIdx.1 hc
      rfl
    exact foldl_placeText rows (h.placeRow hv hrow) (hv.placeRow _)

theorem stacked_ofRows (N : Nat) (rows : List Text) :
    (rows.foldl placeText (empty N)).merge.Stacked (rows.foldl placeText (empty N)).pending [] := by
  refine (Stacked.foldl_placeText rows (m := empty N) ⟨?_, ?_, ?_, List.nodup_nil⟩ ?_).merge
  · exact fun _ hs => by cases hs
  · exact fun _ _ hc => by cases hc
  · exact fun _ hp => by cases hp
  · exact fun _ hs => by cases hs

/-! ## The finished cells -/

theorem Stacks.isStrip {c : Cell} (hm : m.Apart) (h : m.Stacks i c.columnSpan top starts) (hlen : starts.length = c.rowSpan) :
    m.IsStrip i c top starts := by
  refine ⟨hlen, fun row column => ?_, h.drift⟩
  rw [hm.ownerAt?_iff]
  constructor
  · rintro ⟨s, hs, hcovers⟩
    obtain ⟨k, start, hk, rfl, rfl⟩ := (h.names_iff _ _).1 hs
    exact ⟨k, start, hk, rfl, hcovers⟩
  · rintro ⟨k, start, hk, rfl, hcovers⟩
    exact ⟨_, h.names hk, hcovers⟩

theorem IsStrip.eq_of_rectangle {c : Cell} {top' start' : Nat} (h : m.IsStrip i c top starts)
    (hrect : ∀ row column, m.ownerAt? row column = some i ↔
      (top' ≤ row ∧ row < top' + c.rowSpan) ∧ start' ≤ column ∧ column < start' + c.columnSpan)
    (hspan : 0 < c.columnSpan) {k start : Nat} (hk : starts[k]? = some start) : start = start' := by
  have hown : m.ownerAt? (top + k) start = some i := (h.ownerAt?_iff _ _).2 ⟨k, start, hk, rfl, Nat.le_refl _, by omega⟩
  obtain ⟨hrows, hle, -⟩ := (hrect _ _).1 hown
  obtain ⟨l, b, hl, hlk, hb, -⟩ := (h.ownerAt?_iff _ _).1 ((hrect (top + k) start').2 ⟨hrows, Nat.le_refl _, by omega⟩)
  obtain rfl : k = l := by omega
  obtain rfl : b = start := Option.some.inj (hl.symm.trans hk)
  omega

theorem IsStrip.isRectangle_of_eq {c : Cell} (h : m.IsStrip i c top starts) (start : Nat) (heq : ∀ b ∈ starts, b = start) :
    m.IsRectangle i c := by
  refine ⟨top, start, fun row column => ?_⟩
  rw [h.ownerAt?_iff]
  constructor
  · rintro ⟨k, b, hk, rfl, hcolumns⟩
    have hlt := (List.getElem?_eq_some_iff.1 hk).1
    rw [h.rows] at hlt
    rw [heq b (List.mem_of_getElem? hk)] at hcolumns
    exact ⟨by omega, hcolumns⟩
  · rintro ⟨hrows, hcolumns⟩
    have hlt : row - top < starts.length := by
      rw [h.rows]
      omega
    refine ⟨row - top, start, ?_, by omega, hcolumns⟩
    rw [List.getElem?_eq_getElem hlt, heq _ (List.getElem_mem hlt)]

/-- **A strip is a rectangle just when it does not move.** -/
theorem IsStrip.isRectangle_iff {c : Cell} (h : m.IsStrip i c top starts) :
    m.IsRectangle i c ↔ starts.IsChain (· = ·) := by
  constructor
  · rintro ⟨top', start', hrect⟩
    rw [List.isChain_iff_getElem]
    intro k hk
    -- a strip without columns has no second row
    have hdrift := List.isChain_iff_getElem.1 h.drift k hk
    have hspan : 0 < c.columnSpan := by omega
    rw [h.eq_of_rectangle hrect hspan (List.getElem?_eq_getElem (Nat.lt_of_succ_lt hk)),
      h.eq_of_rectangle hrect hspan (List.getElem?_eq_getElem hk)]
  · intro heq
    cases starts with
    | nil => exact h.isRectangle_of_eq 0 (by simp)
    | cons a starts =>
      have ha := (List.pairwise_cons.1 (List.isChain_iff_pairwise.1 heq)).1
      refine h.isRectangle_of_eq a fun b hb => ?_
      rcases List.mem_cons.1 hb with rfl | hb
      · rfl
      · exact (ha b hb).symm

theorem mem_cells_toLayout {c : Cell} (hi : m.cells[i]? = some c) (hk : c.kind.isContent = true) {row : Nat} {s : Slot}
    (hs : m.Names i row s) : c ∈ m.toLayout.cells := by
  obtain ⟨slots, hrow, hs, rfl⟩ := hs
  have howner : s.owner ∈ m.owners := by
    rw [owners, List.mem_eraseDups]
    exact List.mem_map_of_mem (List.mem_flatten.2 ⟨slots, List.mem_of_getElem? hrow, hs⟩)
  refine List.mem_filter.2 ⟨List.mem_filterMap.2 ⟨_, howner, hi⟩, ?_⟩
  cases hc : c.kind <;> simp_all [CellKind.isContent, CellKind.isContinuation]

/-- **Every cell with content is a strip** in the rows of its grid, which moves only with the continuations that the cell
took over, and it is a rectangle just when it does not move. -/
theorem isStrip_merge (N : Nat) (rows : List Text) (i : Nat) (c : Cell)
    (hc : (rows.foldl placeText (empty N)).merge.cells[i]? = some c) (hk : c.kind.isContent = true) :
    c ∈ (Layout.ofRows N rows).cells ∧ ∃ top starts,
      (rows.foldl placeText (empty N)).merge.IsStrip i c top starts ∧
      Takes (rows.foldl placeText (empty N)).pending top starts ∧
      ((rows.foldl placeText (empty N)).merge.IsRectangle i c ↔ starts.IsChain (· = ·)) := by
  have h := stacked_ofRows N rows
  obtain ⟨top, starts, hlen, hst, htakes⟩ := h.content i c hc hk
  have hstrip := hst.isStrip h.apart hlen
  obtain ⟨a, t, rfl⟩ := List.exists_cons_of_ne_nil hst.ne_nil
  exact ⟨mem_cells_toLayout hc hk (hst.names (k := 0) rfl), top, _, hstrip, htakes, hstrip.isRectangle_iff⟩

/-- Two rows of three columns; the continuation in the second starts at the last column of the cell that takes it over. -/
def shiftedRows : List Text := ["[2]: a, space".toList, "space, [2]: continue".toList]

theorem rows_shiftedRows : (shiftedRows.foldl placeText (empty 3)).merge.rows =
    [[⟨0, 2, 0⟩, ⟨2, 3, 1⟩], [⟨0, 1, 2⟩, ⟨1, 3, 0⟩]] := by decide

theorem isStrip_merge_shiftedRows : ∃ c, (shiftedRows.foldl placeText (empty 3)).merge.cells[0]? = some c ∧
    c ∈ (Layout.ofRows 3 shiftedRows).cells ∧ ∃ top starts,
      (shiftedRows.foldl placeText (empty 3)).merge.IsStrip 0 c top starts ∧
      Takes (shiftedRows.foldl placeText (empty 3)).pending top starts ∧
      ((shiftedRows.foldl placeText (empty 3)).merge.IsRectangle 0 c ↔ starts.IsChain (· = ·)) :=
  ⟨_, rfl, isStrip_merge 3 shiftedRows 0 _ rfl (by decide)⟩

/-- The cell of two rows and two columns covers no two rows of two columns. -/
theorem not_isRectangle_shiftedRows : ∃ c, (shiftedRows.foldl placeText (empty 3)).merge.cells[0]? = some c ∧
    c.kind.isContent = true ∧ c.rowSpan = 2 ∧ c.columnSpan = 2 ∧
    ¬∃ top start, ∀ row column, (top ≤ row ∧ row < top + 2) → (start ≤ column ∧ column < start + 2) →
      (shiftedRows.foldl placeText (empty 3)).merge.ownerAt? row column = some 0 := by
  refine ⟨_, rfl, by decide, by decide, by decide, ?_⟩
  rintro ⟨top, start, h⟩
  have hbelow := h (top + 1) start (by omega) (by omega)
  have hright := h top (start + 1) (by omega) (by omega)
  simp only [ownerAt?, rows_shiftedRows] at hbelow hright
  cases top with
  | zero =>
    cases start with
    | zero => simp [Slot.covers] at hbelow
    | succ start => simp [Slot.covers] at hright
  | succ top => simp at hbelow

end SlotMatrix
end Gridmark
