import Gridmark.Proofs.Runs
import Gridmark.Proofs.Walk
/-!
# Freestanding — an element on its own is never read as a grid of itself

The text of an element may look like grid rows: prose may hold anything.  But a grid that is read from it holds something
else (`toLayout_ne_single`).  Prose in a cell is shorter than the row around it, and the last line of any other element
ends with a bracket that ends no grid row.
-/
namespace Gridmark

open Text (trim joinWith segments)

/-! ## Nothing read is longer than its text -/

namespace Split

theorem mem_of_mem_dropEmptyEnd {t : Text} : ∀ {ts : List Text}, t ∈ dropEmptyEnd ts → t ∈ ts
  | [], h => by simp [dropEmptyEnd] at h
  | u :: us, h => by
    rw [dropEmptyEnd] at h
    split at h
    · split at h
      · cases h
      · exact List.mem_cons.2 (.inl (List.mem_singleton.1 h))
    · rename_i hd
      rcases List.mem_cons.1 h with h | h
      · exact List.mem_cons.2 (.inl h)
      · exact List.mem_cons_of_mem _ (mem_of_mem_dropEmptyEnd (hd ▸ h))

theorem sublist_of_mem_pieces {d : Delimiter} {p : Text} : ∀ {ts : List Token} {s : SplitState},
    p ∈ pieces d s ts → p.Sublist (Token.untokenize ts)
  | [], s, h => by
    rw [pieces, List.mem_singleton] at h
    rw [h]
    exact List.nil_sublist _
  | t :: ts, s, h => by
    have hu : Token.untokenize (t :: ts) = t.text ++ Token.untokenize ts := rfl
    have ih : ∀ q ∈ pieces d (s.step t.kind) ts, q.Sublist (Token.untokenize ts) := fun q hq => sublist_of_mem_pieces hq
    rw [pieces] at h
    rw [hu]
    split at h
    · rcases List.mem_cons.1 h with rfl | h
      · exact List.nil_sublist _
      · exact (ih p h).trans (List.sublist_append_right _ _)
    · cases hp : pieces d (s.step t.kind) ts with
      | nil => exact absurd hp (pieces_ne_nil _ _ _)
      | cons q qs =>
        rw [hp] at h ih
        rw [prepend] at h
        rcases List.mem_cons.1 h with rfl | h
        · exact (ih q List.mem_cons_self).append_left _
        · exact (ih p (List.mem_cons_of_mem _ h)).trans (List.sublist_append_right _ _)

theorem sublist_of_mem_splitTop {d : Delimiter} {p t : Text} (h : p ∈ splitTop d t) : p.Sublist t := by
  obtain ⟨q, hq, rfl⟩ := List.mem_map.1 (mem_of_mem_dropEmptyEnd h)
  have := sublist_of_mem_pieces hq
  rw [Token.untokenize_scan] at this
  exact (Text.trim_sublist q).trans this

end Split

namespace GridRow

/-- What stands behind the bracketed digits is the end of what stands behind the bracket. -/
theorem suffix_of_bracketed? {t r ds : Text} (h : bracketed? t = some (ds, r)) : ∃ u, t = '[' :: u ∧ r <:+ u := by
  unfold bracketed? at h
  split at h
  · rename_i u
    refine ⟨u, rfl, ?_⟩
    split at h
    · cases h
    · rename_i rest hrest _
      obtain ⟨r', hr', he⟩ := Option.map_eq_some_iff.1 h
      cases he
      have h1 : rest <:+ u := (List.suffix_cons _ _).trans (hrest ▸ List.dropWhile_suffix _)
      unfold ElementLine.afterColon? at hr'
      split at hr'
      · rename_i v hv
        cases hr'
        have h2 : v <:+ rest := (List.suffix_cons ':' v).trans (hv ▸ List.dropWhile_suffix Text.isBlank)
        exact (List.dropWhile_suffix Text.isBlank).trans (h2.trans h1)
      · cases hr'
    · cases h
  · cases h

theorem sublist_of_between? {a b : Char} {t r : Text} (h : Text.between? a b t = some r) : r.Sublist t := by
  cases t with
  | nil => cases h
  | cons c t =>
    simp only [Text.between?, Text.dropLast?] at h
    split at h
    · split at h
      · cases h
        exact (List.dropLast_sublist t).trans (List.sublist_cons_self c t)
      · cases h
    · cases h

theorem getLast?_of_between? {a b : Char} {t r : Text} (h : Text.between? a b t = some r) : t.getLast? = some b := by
  cases t with
  | nil => cases h
  | cons c t =>
    simp only [Text.between?, Text.dropLast?] at h
    split at h
    · split at h
      · rename_i hl
        rw [List.getLast?_cons, hl]
        rfl
      · cases h
    · cases h

/-- What a grid row reads as, and where its parts come from. -/
theorem read?_eq_some {line cells : Text} {n : Nat} (h : read? line = some (n, cells)) :
    ∃ digits rest, bracketed? line = some (digits, rest) ∧ Text.between? '\x7b' '\x7d' rest = some cells ∧
      Count.read? digits = some n ∧ n ≠ 0 := by
  unfold read? at h
  split at h
  · cases h
  · rename_i digits rest hb
    split at h
    · rename_i cells' n' hc hn
      split at h
      · cases h
      · cases h
        exact ⟨digits, rest, hb, hc, hn, ‹_›⟩
    · cases h

theorem length_read?_lt {line cells : Text} {n : Nat} (h : read? line = some (n, cells)) :
    cells.length < line.length := by
  obtain ⟨digits, rest, hb, hc, -, -⟩ := read?_eq_some h
  obtain ⟨u, rfl, hu⟩ := suffix_of_bracketed? hb
  have h1 := hu.length_le
  have h2 := (sublist_of_between? hc).length_le
  rw [List.length_cons]
  omega

theorem getLast?_of_read? {line cells : Text} {n : Nat} (h : read? line = some (n, cells)) :
    line.getLast? = some '\x7d' := by
  obtain ⟨digits, rest, hb, hc, -, -⟩ := read?_eq_some h
  obtain ⟨u, rfl, v, rfl⟩ := suffix_of_bracketed? hb
  rw [← List.cons_append, List.getLast?_append, getLast?_of_between? hc]
  rfl

end GridRow

/-! ## Where the contents of a grid come from -/

theorem RowCell.map_kind_resolve (cells : List RowCell) (columns : Nat) :
    (RowCell.resolve cells columns).map Cell.kind = cells.map RowCell.kind := by
  refine List.ext_getElem? fun i => ?_
  rw [List.getElem?_map, RowCell.resolve, List.getElem?_mapIdx, List.getElem?_map, Option.map_map]
  rfl

namespace SlotMatrix

theorem kind_mem_placeFrom (N : Nat) : ∀ (cs : List Cell) (cursor owner : Nat),
    ∀ p ∈ placeFrom N cursor owner cs, p.2.kind ∈ cs.map Cell.kind
  | [], _, _, p, h => by simp [placeFrom] at h
  | c :: cs, cursor, owner, p, h => by
    rw [placeFrom] at h
    split at h
    · exact List.mem_cons_of_mem _ (kind_mem_placeFrom N cs _ _ p h)
    · rcases List.mem_cons.1 h with rfl | h
      · exact List.mem_cons_self
      · exact List.mem_cons_of_mem _ (kind_mem_placeFrom N cs _ _ p h)

/-- Merging changes nothing of the cells but how many rows they have. -/
theorem map_mergeOne {α : Type} {f : Cell → α} (hf : ∀ c n, f { c with rowSpan := n } = f c) (m : SlotMatrix)
    (p : PendingMerge) : (m.mergeOne p).cells.map f = m.cells.map f := by
  unfold mergeOne
  split
  · split
    · refine List.ext_getElem? fun i => ?_
      rw [absorb, List.getElem?_map, List.getElem?_modify, List.getElem?_map, Option.map_eq_map, Option.map_map]
      congr 1
      funext c
      rw [Function.comp_apply]
      split
      · exact hf c _
      · rfl
    · rfl
  · rfl

theorem map_merge {α : Type} {f : Cell → α} (hf : ∀ c n, f { c with rowSpan := n } = f c) (m : SlotMatrix) :
    m.merge.cells.map f = m.cells.map f := by
  unfold merge
  show (m.pending.foldl mergeOne m).cells.map f = _
  generalize m.pending = ps
  induction ps generalizing m with
  | nil => rfl
  | cons p ps ih => rw [List.foldl_cons, ih, map_mergeOne hf]

theorem kind_mem_toLayout {m : SlotMatrix} {c : Cell} (h : c ∈ m.toLayout.cells) : c.kind ∈ m.cells.map Cell.kind := by
  obtain ⟨i, -, hi⟩ := List.mem_filterMap.1 (List.mem_filter.1 h).1
  exact List.mem_map_of_mem (List.mem_of_getElem? hi)

theorem columnCount_merge (m : SlotMatrix) : m.merge.columnCount = m.columnCount := by
  unfold merge
  show (m.pending.foldl mergeOne m).columnCount = _
  generalize m.pending = ps
  induction ps generalizing m with
  | nil => rfl
  | cons p ps ih =>
    rw [List.foldl_cons, ih]
    unfold mergeOne
    split
    · split <;> rfl
    · rfl

theorem columnCount_foldl_placeText : ∀ (rows : List Text) (m : SlotMatrix),
    (rows.foldl placeText m).columnCount = m.columnCount
  | [], m => rfl
  | row :: rows, m => by rw [List.foldl_cons, columnCount_foldl_placeText rows]; rfl

/-- The kinds of the cells come from the fragments of the rows. -/
theorem kind_mem_foldl_placeText : ∀ (rows : List Text) (m : SlotMatrix) (k : CellKind),
    k ∈ (rows.foldl placeText m).cells.map Cell.kind →
    k ∈ m.cells.map Cell.kind ∨ ∃ row ∈ rows, k ∈ (RowCell.readRow row).map RowCell.kind
  | [], m, k, h => .inl h
  | row :: rows, m, k, h => by
    rw [List.foldl_cons] at h
    rcases kind_mem_foldl_placeText rows _ k h with h | ⟨r, hr, h⟩
    · rw [placeText, placeRow, List.map_append, List.mem_append] at h
      rcases h with h | h
      · exact .inl h
      · obtain ⟨c, hc, rfl⟩ := List.mem_map.1 h
        obtain ⟨p, hp, rfl⟩ := List.mem_map.1 hc
        have := kind_mem_placeFrom _ _ _ _ p hp
        rw [RowCell.map_kind_resolve] at this
        exact .inr ⟨row, List.mem_cons_self, this⟩
    · exact .inr ⟨r, List.mem_cons_of_mem _ hr, h⟩

end SlotMatrix

theorem Layout.columnCount_ofRows (n : Nat) (rows : List Text) : (Layout.ofRows n rows).columnCount = n :=
  (SlotMatrix.columnCount_merge _).trans (SlotMatrix.columnCount_foldl_placeText rows _)

/-- **Every cell of a grid stands in one of its rows.** -/
theorem Layout.exists_of_mem_ofRows {n : Nat} {rows : List Text} {c : Cell} (h : c ∈ (Layout.ofRows n rows).cells) :
    ∃ row ∈ rows, ∃ t ∈ splitTop .comma row, (RowCell.read t).kind = c.kind := by
  have hk := SlotMatrix.kind_mem_toLayout h
  rw [SlotMatrix.map_merge fun _ _ => rfl] at hk
  rcases SlotMatrix.kind_mem_foldl_placeText rows _ _ hk with hk | ⟨row, hr, hk⟩
  · cases hk
  · rw [RowCell.readRow, List.map_map] at hk
    obtain ⟨t, ht, hk⟩ := List.mem_map.1 hk
    exact ⟨row, hr, t, ht, hk⟩

/-! ## Prose -/

theorem ElementLine.prose?_of_read? {t : Text} {e : Element} (h : ElementLine.read? t = some e) : e.prose? = none := by
  have hp : ∀ {kind rest : Text} {e : Element}, body? kind rest = some e → e.prose? = none := by
    intro kind rest e h
    unfold body? at h
    split at h
    · unfold bound? at h
      split at h
      · cases h
      · obtain ⟨l, -, rfl⟩ := Option.map_eq_some_iff.1 h
        unfold boundPayload Element.prose?
        split <;> rename_i hs <;> split at hs <;> simp_all
    · obtain ⟨l, -, rfl⟩ := Option.map_eq_some_iff.1 h
      rfl
  unfold read? at h
  split at h
  · cases h
  · obtain ⟨e', he', rfl⟩ := Option.map_eq_some_iff.1 h
    have hn : e'.prose? = none := hp he'
    unfold Element.takeRationale
    split <;> exact hn

theorem RowCell.read?_getD_of_ofBody {span : Option Nat} {t : Text} {e : Element}
    (h : (RowCell.ofBody span t).kind = .content e) : (ElementLine.read? t).getD (Element.prose t) = e := by
  unfold ofBody at h
  split at h
  · cases h
  · split at h
    · cases h
    · exact CellKind.content.inj h

/-- What a cell holds is read from a text that stands in it, and is prose if that is no element. -/
theorem RowCell.exists_body {t : Text} {e : Element} (h : (RowCell.read t).kind = .content e) :
    ∃ body : Text, body.Sublist t ∧ (trim t = t → trim body = body) ∧
      (ElementLine.read? body).getD (Element.prose body) = e := by
  unfold read at h
  split at h
  · rename_i span u hs
    obtain ⟨⟨ds, r⟩, hr, he⟩ := Option.map_eq_some_iff.1 hs
    cases he
    obtain ⟨v, rfl, hv⟩ := GridRow.suffix_of_bracketed? hr
    refine ⟨trim r, ?_, fun _ => Text.trim_trim r, read?_getD_of_ofBody h⟩
    exact (Text.trim_sublist r).trans (hv.sublist.trans (List.sublist_cons_self _ _))
  · exact ⟨t, List.Sublist.refl t, id, read?_getD_of_ofBody h⟩

theorem RowCell.length_prose_le {t body : Text} {e : Element} (h : (RowCell.read t).kind = .content e)
    (hb : e.prose? = some body) : body.length ≤ t.length := by
  obtain ⟨u, hu, -, rfl⟩ := RowCell.exists_body h
  cases hr : ElementLine.read? u with
  | some f =>
    rw [hr, Option.getD_some, ElementLine.prose?_of_read? hr] at hb
    cases hb
  | none =>
    rw [hr, Option.getD_none] at hb
    cases hb
    exact hu.length_le

/-! ## The last line of any other element -/

namespace Text

theorem exists_segments_concat {c : Char} (hc : c ≠ '\n') : ∀ t : Text, ∃ ss s, segments t = ss ++ [s] ∧
    segments (t ++ [c]) = ss ++ [s ++ [c]]
  | [] => ⟨[], [], rfl, by simp [segments, hc]⟩
  | d :: t => by
    obtain ⟨ss, s, h, hs⟩ := exists_segments_concat hc t
    rw [List.cons_append, segments, segments, h, hs]
    split
    · exact ⟨[] :: ss, s, rfl, rfl⟩
    · cases ss with
      | nil => exact ⟨[], d :: s, rfl, rfl⟩
      | cons u us => exact ⟨(d :: u) :: us, s, rfl, rfl⟩

theorem getLast?_trim {c : Char} (hc : isBlank c = false) (t : Text) : (trim (t ++ [c])).getLast? = some c := by
  have hs : ∃ u, trimStart (t ++ [c]) = u ++ [c] := by
    unfold trimStart
    rw [List.dropWhile_append]
    split
    · exact ⟨[], by rw [List.dropWhile_cons_of_neg (by simp [hc])]; rfl⟩
    · exact ⟨_, rfl⟩
  obtain ⟨u, hu⟩ := hs
  unfold trim
  rw [hu, trimEnd_eq_self (by simp [hc])]
  exact List.getLast?_concat

end Text

/-- The last line of a text ends as the text does. -/
theorem SourceLine.exists_ofSource_concat {c : Char} (hn : c ≠ '\n') (hc : Text.isBlank c = false) (t : Text) :
    ∃ l ∈ ofSource (t ++ [c]), l.getLast? = some c := by
  obtain ⟨ss, s, -, h⟩ := Text.exists_segments_concat hn t
  have hl := Text.getLast?_trim hc s
  refine ⟨trim (s ++ [c]), ?_, hl⟩
  have hne : trim (s ++ [c]) ≠ [] := by
    intro he
    rw [he] at hl
    cases hl
  rw [ofSource_eq, h, Text.trimAll_append, Text.trimAll_cons, if_neg hne]
  simp

namespace ElementLine

/-- A text that ends with a round or a square bracket. -/
def Closes (t : Text) : Prop := ∃ u c, t = u ++ [c] ∧ (c = ')' ∨ c = ']')

theorem Closes.append (a : Text) {b : Text} (h : Closes b) : Closes (a ++ b) := by
  obtain ⟨u, c, rfl, hc⟩ := h
  exact ⟨a ++ u, c, (List.append_assoc _ _ _).symm, hc⟩

theorem closes_round (t : Text) : Closes (round t) := ⟨'(' :: t, ')', rfl, .inl rfl⟩

theorem closes_writeItem (kind : Text) (item : GroupItem) : Closes (writeItem kind item) := (closes_round _).append _

theorem closes_joinWith : ∀ {ts : List Text}, ts ≠ [] → (∀ t ∈ ts, Closes t) → Closes (joinWith ['\n'] ts)
  | [], h, _ => absurd rfl h
  | [_], _, h => h _ List.mem_cons_self
  | _ :: u :: ts, _, h =>
    (closes_joinWith (List.cons_ne_nil u ts) fun v hv => h v (List.mem_cons_of_mem _ hv)).append _

theorem closes_write {e : Element} (h : e.prose? = none) : Closes (write e) := by
  unfold write
  split
  · rename_i body hb
    rw [Element.prose?, hb] at h
    cases h
  · refine closes_joinWith (by simp) fun t ht => ?_
    obtain ⟨i, -, rfl⟩ := List.mem_map.1 ht
    exact closes_writeItem _ i
  · unfold writeTagged
    dsimp only
    split
    · exact Closes.append _ ⟨_, ']', rfl, .inr rfl⟩
    · exact Closes.append _ ⟨_, ']', rfl, .inr rfl⟩
    · exact Closes.append _ (closes_round _)

end ElementLine

theorem ElementLine.write_of_prose? {e : Element} {body : Text} (h : e.prose? = some body) : write e = body := by
  unfold Element.prose? at h
  split at h
  · rename_i hb
    cases h
    rw [write, hb]
  · cases h

/-! ## No grid -/

theorem Layout.eq_of_single? {l : Layout} {e : Element} (h : l.single? = some e) :
    ∃ span, l = ⟨1, [⟨.content e, span, 1⟩]⟩ := by
  obtain ⟨n, cells⟩ := l
  unfold single? at h
  split at h
  · rename_i cell hc
    obtain rfl : cells = [cell] := hc
    split at h
    · rename_i hn
      obtain ⟨rfl, hr⟩ : n = 1 ∧ cell.rowSpan = 1 := hn
      obtain ⟨kind, span, rowSpan⟩ := cell
      cases kind <;> cases h
      exact ⟨span, by rw [show rowSpan = 1 from hr]⟩
    · cases h
  · cases h

theorem Text.length_of_mem_segments {s : Text} : ∀ {t : Text}, s ∈ segments t → s.length ≤ t.length
  | [], h => by
    rw [segments, List.mem_singleton] at h
    exact Nat.le_of_eq (congrArg List.length h)
  | c :: t, h => by
    rw [segments] at h
    split at h
    · rcases List.mem_cons.1 h with rfl | h
      · exact Nat.zero_le _
      · exact Nat.le_succ_of_le (length_of_mem_segments h)
    · cases hs : segments t with
      | nil => exact absurd hs (segments_ne_nil t)
      | cons u us =>
        rw [hs] at h
        rcases List.mem_cons.1 h with rfl | h
        · exact Nat.succ_le_succ (length_of_mem_segments (hs ▸ List.mem_cons_self))
        · exact Nat.le_succ_of_le (length_of_mem_segments (hs ▸ List.mem_cons_of_mem _ h))

theorem SourceLine.length_of_mem_ofSource {t line : Text} (h : line ∈ ofSource t) : line.length ≤ t.length := by
  rw [ofSource_eq] at h
  obtain ⟨s, hs, rfl⟩ := List.mem_map.1 (List.mem_filter.1 h).1
  exact Nat.le_trans (Text.length_trim_le s) (Text.length_of_mem_segments hs)

theorem SourceLine.read_eq_gridRow {o : ReadOptions} {line cells : Text} {n : Nat}
    (h : SourceLine.read o line = .gridRow n cells) : GridRow.read? line = some (n, cells) := by
  unfold read at h
  split at h
  · rename_i hg
    cases h
    exact hg
  · split at h
    · split at h <;> cases h
    · cases h

/-- **What an element is written as makes no grid of that element.** -/
theorem Run.toLayout_ne_single {o : ReadOptions} {e : Element} {n : Nat} {rows : List Text}
    (h : ofLines (SourceLine.ofText o (ElementLine.write e)) = [.grid n rows]) {l : Layout}
    (hl : l.single? = some e) : (Run.grid n rows).toLayout ≠ l := by
  have hls : SourceLine.ofText o (ElementLine.write e) = rows.map (.gridRow n) := (gathers_of_ofLines h).2
  have hmem : ∀ line ∈ SourceLine.ofSource (ElementLine.write e), ∃ row ∈ rows, GridRow.read? line = some (n, row) := by
    intro line hline
    have : SourceLine.read o line ∈ rows.map (.gridRow n) := hls ▸ List.mem_map_of_mem hline
    obtain ⟨row, hr, he⟩ := List.mem_map.1 this
    exact ⟨row, hr, SourceLine.read_eq_gridRow he.symm⟩
  rintro rfl
  cases hp : e.prose? with
  | none =>
    obtain ⟨t, c, ht, hc⟩ := ElementLine.closes_write hp
    have hn : c ≠ '\n' ∧ Text.isBlank c = false ∧ c ≠ '\x7d' := by rcases hc with rfl | rfl <;> decide
    obtain ⟨line, hline, hlast⟩ := SourceLine.exists_ofSource_concat hn.1 hn.2.1 t
    obtain ⟨row, -, hg⟩ := hmem line (ht ▸ hline)
    rw [GridRow.getLast?_of_read? hg] at hlast
    exact hn.2.2 (Option.some.inj hlast).symm
  | some body =>
    obtain ⟨span, hc⟩ := Layout.eq_of_single? hl
    have hmem : (⟨.content e, span, 1⟩ : Cell) ∈ (Layout.ofRows n rows).cells := by
      rw [show Layout.ofRows n rows = (Run.grid n rows).toLayout from rfl, hc]
      exact List.mem_cons_self
    obtain ⟨row, hr, t, ht, hk⟩ := Layout.exists_of_mem_ofRows hmem
    have h1 := RowCell.length_prose_le hk hp
    have h2 := (Split.sublist_of_mem_splitTop ht).length_le
    have hline : ∃ line ∈ SourceLine.ofSource (ElementLine.write e), GridRow.read? line = some (n, row) := by
      have : SourceLine.gridRow n row ∈ SourceLine.ofText o (ElementLine.write e) := hls ▸ List.mem_map_of_mem hr
      obtain ⟨line, hl, he⟩ := List.mem_map.1 this
      exact ⟨line, hl, SourceLine.read_eq_gridRow he⟩
    obtain ⟨line, hline, hg⟩ := hline
    have h3 := GridRow.length_read?_lt hg
    have h4 := SourceLine.length_of_mem_ofSource hline
    rw [ElementLine.write_of_prose? hp] at h4
    omega

end Gridmark
