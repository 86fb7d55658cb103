import Gridmark.Proofs.SourceBlocks
/-!
# WellFormed — what holds of every document that was read

Whatever the text, reading it gives blocks with columns, whose cells lie within these columns and carry nothing on, and
elements whose parts are in the form in which they are written (`Document.wellFormed_read`).  The parts of an element come
from one line, its cell from the place that the row gives it, and a group from the elements of its lines.
-/
namespace Gridmark

open Text (trim)

/-! ## What is asked for -/

/-- Values in which the two characters for a line feed have become one. -/
def Value.Expanded (v : Text) : Prop := ¬newlinePair <:+: v

/-- Payloads of element lines, with nothing around their texts and no input that reads as an action. -/
def Payload.WellFormed : Payload → Prop
  | .plain => True
  | .action t => trim t = t
  | .input t => trim t = t ∧ ¬ElementLine.IsPrompt t
  | _ => False

/-- Elements that one line or one cell can hold, prose apart. -/
structure Element.WellFormed (e : Element) : Prop where
  kind : ElementLine.IsKind e.kind
  keys : ∀ p ∈ e.properties.entries, p.1 ≠ [] ∧ trim p.1 = p.1 ∧ ':' ∉ p.1 ∧ p.1 ≠ highlightKey
  values : ∀ p ∈ e.properties.entries, Value.Expanded p.2
  rationale : ∀ why ∈ e.rationale, Value.Expanded why
  payload : e.payload.WellFormed

/-- Groups of a groupable kind, with items and nothing else. -/
structure Element.WellFormedGroup (o : ReadOptions) (e : Element) : Prop where
  kind : o.isGroupable e.kind = true
  properties : e.properties = .empty
  rationale : e.rationale = none
  items : ∃ items, e.payload = .group items ∧ items ≠ [] ∧
    ∀ i ∈ items, Value.Expanded i.trigger ∧ Value.Expanded i.content

/-- Cells within so many columns; one without content has one row. -/
structure Cell.Within (columns : Nat) (c : Cell) : Prop where
  span_pos : 1 ≤ c.columnSpan
  span_le : c.columnSpan ≤ columns
  rows_pos : 1 ≤ c.rowSpan
  rows_eq : c.kind.isContent = false → c.rowSpan = 1

structure Layout.WellFormed (o : ReadOptions) (l : Layout) : Prop where
  columns : 1 ≤ l.columnCount
  cells : ∀ c ∈ l.cells, c.Within l.columnCount ∧ c.kind ≠ .continuation
  elements : ∀ e ∈ l.elements, (∃ body, e = .prose body) ∨ e.WellFormed ∨ l = .single e ∧ e.WellFormedGroup o

/-! ## Values and keys -/

namespace Value

theorem exists_of_expandNewlines {c : Char} (hc : c ≠ '\n') {t u : Text} (h : expandNewlines t = c :: u) :
    ∃ v, t = c :: v := by
  fun_cases expandNewlines t with
  | case1 => cases h
  | case2 t => exact absurd (List.cons.inj h).1.symm hc
  | case3 d t hd =>
    rw [expandNewlines_cons hd] at h
    exact ⟨t, by rw [(List.cons.inj h).1]⟩

theorem expanded_expandNewlines (t : Text) : Expanded (expandNewlines t) := by
  unfold Expanded
  fun_induction expandNewlines t with
  | case1 => simp [newlinePair]
  | case2 t ih =>
    rw [List.infix_cons_iff]
    rintro (h | h)
    · exact absurd (List.cons_prefix_cons.1 h).1 (by decide)
    · exact ih h
  | case3 c t hd ih =>
    rw [List.infix_cons_iff]
    rintro (h | h)
    · obtain ⟨hc, u, hu⟩ := List.cons_prefix_cons.1 h
      obtain ⟨v, hv⟩ := exists_of_expandNewlines (by decide) hu.symm
      exact hd v hc.symm hv
    · exact ih h

theorem expanded_read (t : Text) : Expanded (read t) := expanded_expandNewlines _

end Value

namespace Properties

theorem not_mem_of_splitFirst? {c : Char} : ∀ {t : Text} {p : Text × Text}, Text.splitFirst? c t = some p → c ∉ p.1
  | [], _, h => by cases h
  | x :: t, p, h => by
    rw [Text.splitFirst?] at h
    split at h
    · cases h
      exact List.not_mem_nil
    · rename_i hx
      obtain ⟨q, hq, rfl⟩ := Option.map_eq_some_iff.1 h
      rw [List.mem_cons]
      rintro (rfl | hm)
      · exact hx rfl
      · exact not_mem_of_splitFirst? hq hm

theorem of_readEntry? {t : Text} {p : Text × Text} (h : readEntry? t = some p) :
    (p.1 ≠ [] ∧ trim p.1 = p.1 ∧ ':' ∉ p.1) ∧ Value.Expanded p.2 := by
  unfold readEntry? at h
  split at h
  · rename_i key value hs
    split at h
    · cases h
    · rename_i hne
      cases h
      have hkey : ':' ∉ trim key := fun hm => not_mem_of_splitFirst? hs ((Text.trim_sublist key).mem hm)
      exact ⟨⟨hne, Text.trim_trim key, hkey⟩, Value.expanded_read value⟩
  · cases h

theorem of_mem_read {t : Text} {p : Text × Text} (h : p ∈ (read t).entries) :
    (p.1 ≠ [] ∧ trim p.1 = p.1 ∧ ':' ∉ p.1) ∧ Value.Expanded p.2 := by
  obtain ⟨fragment, -, hp⟩ := List.mem_filterMap.1 (mem_of_mem_ofList h)
  exact of_readEntry? hp

theorem exists_of_get? {p : Properties} {k v : Text} (h : p.get? k = some v) : ∃ e ∈ p.entries, e.2 = v := by
  obtain ⟨e, he, rfl⟩ := Option.map_eq_some_iff.1 h
  exact ⟨e, List.mem_of_find?_eq_some he, rfl⟩

theorem ne_of_get?_eq_none {p : Properties} {k : Text} (h : p.get? k = none) : ∀ e ∈ p.entries, e.1 ≠ k := by
  simpa [get?, Keyed.find?] using h

end Properties

/-! ## Elements of one line -/

namespace ElementLine

theorem not_isPrompt_of_prompt? {t : Text} (h : prompt? t = none) : ¬IsPrompt t := by
  rintro ⟨blanks, r, rfl, hb⟩
  have hs : Text.trimStart (blanks ++ ':' :: r) = ':' :: r := by
    rw [Text.trimStart, List.dropWhile_append_of_pos hb, List.dropWhile_cons_of_neg (by decide)]
  rw [prompt?, List.append_assoc, after?_append, Option.bind_some, afterColon?, hs] at h
  cases h

theorem wellFormed_boundPayload {t : Text} (ht : trim t = t) : (boundPayload t).WellFormed := by
  unfold boundPayload
  split
  · rename_i trigger _
    exact Text.trim_trim trigger
  · rename_i hp
    exact ⟨ht, not_isPrompt_of_prompt? hp⟩

theorem exists_of_body? {kind t : Text} {e : Element} (h : body? kind t = some e) :
    ∃ list payload, e = { Element.plain kind with properties := Properties.read list, payload := payload } ∧
      payload.WellFormed := by
  unfold body? at h
  split at h
  · unfold bound? at h
    split at h
    · cases h
    · rename_i suffix _
      obtain ⟨list, -, rfl⟩ := Option.map_eq_some_iff.1 h
      exact ⟨list, _, rfl, wellFormed_boundPayload (Text.trim_trim suffix)⟩
  · obtain ⟨list, -, rfl⟩ := Option.map_eq_some_iff.1 h
    exact ⟨list, .plain, rfl, trivial⟩

/-- **An element that a line writes is well formed.** -/
theorem wellFormed_of_read? {line : Text} {e : Element} (h : read? line = some e) : e.WellFormed := by
  have hkind := (readFrom_of_read? h).kind
  unfold read? at h
  split at h
  · cases h
  · rename_i kind rest _
    obtain ⟨f, hf, rfl⟩ := Option.map_eq_some_iff.1 h
    obtain ⟨list, payload, rfl, hp⟩ := exists_of_body? hf
    unfold Element.takeRationale at hkind ⊢
    split
    · rename_i why hw
      rw [hw] at hkind
      obtain ⟨p, hpm, hpw⟩ := Properties.exists_of_get? hw
      have hmem : ∀ {q}, q ∈ ((Properties.read list).drop Element.highlightKey).entries →
          q ∈ (Properties.read list).entries ∧ q.1 ≠ Element.highlightKey := by
        intro q hq
        obtain ⟨hq, hne⟩ := List.mem_filter.1 hq
        exact ⟨hq, of_decide_eq_true hne⟩
      refine ⟨hkind, fun q hq => ?_, fun q hq => (Properties.of_mem_read (hmem hq).1).2, fun w hw => ?_, hp⟩
      · obtain ⟨⟨h1, h2, h3⟩, -⟩ := Properties.of_mem_read (hmem hq).1
        exact ⟨h1, h2, h3, (hmem hq).2⟩
      · cases hw
        exact hpw ▸ (Properties.of_mem_read hpm).2
    · rename_i hw
      rw [hw] at hkind
      refine ⟨hkind, fun q hq => ?_, fun q hq => (Properties.of_mem_read hq).2, fun w hw => (by cases hw), hp⟩
      obtain ⟨⟨h1, h2, h3⟩, -⟩ := Properties.of_mem_read hq
      exact ⟨h1, h2, h3, Properties.ne_of_get?_eq_none hw q hq⟩

end ElementLine

theorem Element.WellFormed.expanded_getD {e : Element} (h : e.WellFormed) (key : Text) :
    Value.Expanded ((e.property? key).getD []) := by
  cases hv : e.property? key with
  | none => simp [Value.Expanded, Value.newlinePair]
  | some v =>
    obtain ⟨p, hp, rfl⟩ := Properties.exists_of_get? hv
    exact h.values p hp

theorem Element.WellFormed.expanded_toItem {e : Element} (h : e.WellFormed) :
    Value.Expanded e.toItem.trigger ∧ Value.Expanded e.toItem.content :=
  ⟨h.expanded_getD _, h.expanded_getD _⟩

/-! ## Cells -/

namespace SlotMatrix

variable {N : Nat}

theorem within_of_mem_placeFrom (hN : N ≤ Count.ceiling) {cs : List Cell} (h : ∀ c ∈ cs, 0 < c.columnSpan ∧ c.rowSpan = 1)
    {i : Nat} {p : Slot × Cell} (hp : p ∈ placeFrom N 0 i cs) : p.2.Within N := by
  obtain ⟨-, hstart, -, c, hc, he⟩ := of_mem_placeFrom (Nat.zero_le _) p hp
  obtain ⟨hspan, hrow⟩ := h c hc
  rw [he]
  refine ⟨?_, ?_, Nat.le_of_eq hrow.symm, fun _ => hrow⟩
  · dsimp only
    omega
  · dsimp only
    omega

def Fits (m : SlotMatrix) : Prop := ∀ c ∈ m.cells, c.Within m.columnCount

theorem Fits.placeText {m : SlotMatrix} (h : m.Fits) (hN : m.columnCount ≤ Count.ceiling) (row : Text) :
    (m.placeText row).Fits := by
  intro c hc
  rcases List.mem_append.1 hc with hc | hc
  · exact h c hc
  · obtain ⟨p, hp, rfl⟩ := List.mem_map.1 hc
    exact within_of_mem_placeFrom hN (fun d hd => RowCell.of_mem_resolve hd) hp

/-- Only a cell with content gets further rows. -/
theorem Fits.mergeOne {m : SlotMatrix} (h : m.Fits) (p : PendingMerge) : (m.mergeOne p).Fits := by
  unfold Fits
  rw [columnCount_mergeOne]
  unfold SlotMatrix.mergeOne
  split
  · rename_i target _
    split
    · rename_i habsorb
      intro c hc
      obtain ⟨i, hi⟩ := List.mem_iff_getElem?.1 hc
      rw [absorb, List.getElem?_modify] at hi
      obtain ⟨d, hd, rfl⟩ := Option.map_eq_some_iff.1 hi
      have hw := h d (List.mem_of_getElem? hd)
      split
      · rename_i ht
        have hcontent : d.kind.isContent = true := by
          rw [canAbsorb, ht, hd] at habsorb
          split at habsorb
          · rename_i ht' _
            cases ht'
            exact (Bool.and_eq_true_iff.1 habsorb).1
          · cases habsorb
        refine ⟨hw.span_pos, hw.span_le, Nat.le_succ_of_le hw.rows_pos, fun hk => ?_⟩
        exact absurd (hk.symm.trans hcontent) Bool.false_ne_true
      · exact hw
    · exact h
  · exact h

theorem Fits.foldl_placeText : ∀ (rows : List Text) {m : SlotMatrix}, m.Fits → m.columnCount ≤ Count.ceiling →
    (rows.foldl SlotMatrix.placeText m).Fits
  | [], _, h, _ => h
  | row :: rows, _, h, hN => foldl_placeText rows (h.placeText hN row) hN

theorem Fits.foldl_mergeOne : ∀ (ps : List PendingMerge) {m : SlotMatrix}, m.Fits → (ps.foldl SlotMatrix.mergeOne m).Fits
  | [], _, h => h
  | p :: ps, _, h => foldl_mergeOne ps (h.mergeOne p)

theorem Fits.merge {m : SlotMatrix} (h : m.Fits) : m.merge.Fits := h.foldl_mergeOne m.pending

end SlotMatrix

theorem Layout.of_mem_cells_ofRows {N : Nat} {rows : List Text} (hN : N ≤ Count.ceiling) {c : Cell}
    (h : c ∈ (Layout.ofRows N rows).cells) : c.Within N ∧ c.kind ≠ .continuation := by
  obtain ⟨hm, hk⟩ := List.mem_filter.1 h
  obtain ⟨i, -, hi⟩ := List.mem_filterMap.1 hm
  have hempty : (SlotMatrix.empty N).Fits := fun _ hc => by cases hc
  have hfits := (SlotMatrix.Fits.foldl_placeText rows hempty hN).merge c (List.mem_of_getElem? hi)
  rw [SlotMatrix.columnCount_merge, SlotMatrix.columnCount_foldl_placeText] at hfits
  refine ⟨hfits, ?_⟩
  rintro hc
  rw [hc] at hk
  cases hk

theorem Layout.wellFormed_of_mem_ofRows {N : Nat} {rows : List Text} {e : Element} (h : e ∈ (Layout.ofRows N rows).elements) :
    (∃ body, e = .prose body) ∨ e.WellFormed := by
  obtain ⟨c, hc, hk⟩ := List.mem_filterMap.1 h
  obtain ⟨row, -, t, -, ht⟩ := Layout.exists_of_mem_ofRows hc
  have hcontent : c.kind = .content e := by
    unfold Cell.element? CellKind.element? at hk
    split at hk
    · rename_i hc
      rw [hc, Option.some.inj hk]
    · cases hk
  obtain ⟨body, -, -, rfl⟩ := RowCell.exists_body (ht.trans hcontent)
  cases hr : ElementLine.read? body with
  | none => exact .inl ⟨body, rfl⟩
  | some f => exact .inr (ElementLine.wellFormed_of_read? hr)

/-! ## Blocks -/

namespace Layout

variable {o : ReadOptions} {e : Element}

theorem wellFormed_single (h : (∃ body, e = .prose body) ∨ e.WellFormed ∨ e.WellFormedGroup o) :
    (Layout.single e).WellFormed o := by
  refine ⟨Nat.le_refl 1, fun c hc => ?_, fun f hf => ?_⟩
  · rw [List.mem_singleton.1 hc]
    exact ⟨⟨Nat.le_refl 1, Nat.le_refl 1, Nat.le_refl 1, fun _ => rfl⟩, CellKind.noConfusion⟩
  · obtain rfl : f = e := List.mem_singleton.1 hf
    exact h.imp_right (Or.imp_right fun h => ⟨rfl, h⟩)

theorem WellFormed.eq_single {l : Layout} (h : l.WellFormed o) (hs : l.single? = some e) : l = .single e := by
  obtain ⟨span, rfl⟩ := eq_of_single? hs
  obtain ⟨hcell, -⟩ := h.cells _ List.mem_cons_self
  have hspan : span = 1 := Nat.le_antisymm hcell.span_le hcell.span_pos
  rw [hspan]
  rfl

theorem WellFormed.eq_prose {l : Layout} (h : l.WellFormed o) {body : Text} (hp : l.prose? = some body) : l = .single (.prose body) := by
  obtain ⟨e, hs, hb⟩ := Option.bind_eq_some_iff.1 hp
  have hl := h.eq_single hs
  rcases h.elements e (by rw [hl]; exact List.mem_singleton_self e) with ⟨t, rfl⟩ | he | ⟨-, he⟩
  · cases hb
    exact hl
  · have := he.payload
    unfold Element.prose? at hb
    split at hb
    · rename_i hm
      rw [hm] at this
      exact this.elim
    · cases hb
  · obtain ⟨items, hi, -⟩ := he.items
    rw [Element.prose?, hi] at hb
    cases hb

theorem wellFormed_ofRows {N : Nat} {rows : List Text} (h0 : 0 < N) (hN : N ≤ Count.ceiling) :
    (Layout.ofRows N rows).WellFormed o := by
  refine ⟨?_, fun c hc => ?_, fun e he => (wellFormed_of_mem_ofRows he).imp_right .inl⟩
  · rw [columnCount_ofRows]
    exact h0
  · rw [columnCount_ofRows]
    exact of_mem_cells_ofRows hN hc

end Layout

theorem Run.wellFormedGroup_of_mem_ofLines {o : ReadOptions} {source kind : Text} {items : List GroupItem}
    (h : Run.group kind items ∈ ofLines (SourceLine.ofText o source)) : (Element.group kind items).WellFormedGroup o := by
  refine ⟨isGroupable_of_mem_ofLines h, rfl, rfl, items, rfl, ?_⟩
  obtain ⟨us, hne, ⟨es, rfl, rfl, -⟩, hus⟩ := gathers_of_mem_ofLines h
  refine ⟨by simpa using hne, fun i hi => ?_⟩
  obtain ⟨e, he, rfl⟩ := List.mem_map.1 hi
  obtain ⟨line, -, -, -, hread⟩ := SourceLine.exists_of_mem_ofText (hus _ (List.mem_map_of_mem he))
  exact (ElementLine.wellFormed_of_read? (SourceLine.read_eq_item hread).1).expanded_toItem

theorem Run.wellFormed_toLayout {o : ReadOptions} {source : Text} {r : Run} (h : r ∈ ofLines (SourceLine.ofText o source)) :
    r.toLayout.WellFormed o := by
  cases r with
  | prose ts => exact Layout.wellFormed_single (.inl ⟨_, rfl⟩)
  | grid N rows =>
    obtain ⟨-, h0, hN, -⟩ := of_mem_ofLines_grid h
    exact Layout.wellFormed_ofRows h0 hN
  | group kind items => exact Layout.wellFormed_single (.inr (.inr (wellFormedGroup_of_mem_ofLines h)))
  | lone e =>
    obtain ⟨us, -, rfl, hus⟩ := gathers_of_mem_ofLines h
    obtain ⟨line, -, -, -, hread⟩ := SourceLine.exists_of_mem_ofText (hus _ List.mem_cons_self)
    exact Layout.wellFormed_single (.inr (.inl (ElementLine.wellFormed_of_read? (SourceLine.read_eq_lone hread).1)))

/-- **Every block that is read is well formed.** -/
theorem Document.wellFormed_read (o : ReadOptions) (source : Text) :
    ∀ l ∈ (Document.read o source).blocks, l.WellFormed o := by
  intro l hl
  rw [Document.read_eq] at hl
  obtain ⟨r, hr, rfl⟩ := List.mem_map.1 hl
  exact Run.wellFormed_toLayout hr

/-- An element with a rationale beside an empty cell. -/
def Layout.noted : Layout :=
  ⟨2, [.ofKind (.content ⟨['k'], Properties.ofList [(['a'], ['1'])], some ['x', '\n', 'y'], .plain⟩) 1, .ofKind .empty 1]⟩

theorem Layout.wellFormed_noted :
    Layout.noted ∈ (Document.read default "[2]: \x7b k: (highlight: x\\ny, a: 1), space \x7d".toList).blocks ∧
      Layout.noted.WellFormed default := by
  have h : Layout.noted ∈ (Document.read default "[2]: \x7b k: (highlight: x\\ny, a: 1), space \x7d".toList).blocks := by decide
  exact ⟨h, Document.wellFormed_read default _ _ h⟩

end Gridmark
