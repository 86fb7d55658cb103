import Gridmark.Proofs.Blocks
import Gridmark.Proofs.Origins
import Gridmark.Proofs.Packing
/-!
# SourceBlocks — the blocks of a document that was read

A document that was read from a source is the runs of its lines.  What stands in a run is read off its lines, and what a
block is written as makes no more than one run, which is the block if the block comes back on its own (`Snapshot.Writes`).
-/
namespace Gridmark

open Picture
open Text (trim joinWith)

namespace Snapshot

/-- Whether a block is written as bare prose. -/
def isBare (p : Bool × Layout) : Bool := !p.1 && p.2.prose?.isSome

/-- The lines of a block, by what they write. -/
def chunk (o : ReadOptions) (p : Bool × Layout) : List SourceLine :=
  ((blockLines p.1 p.2).flatMap SourceLine.ofSource).map (SourceLine.read o)

/-- The lines of the block make one run, which is the block again. -/
structure Writes (o : ReadOptions) (p : Bool × Layout) (r : Run) : Prop where
  lines : Run.ofLines (chunk o p) = [r]
  layout : r.toLayout = p.2
  prose_iff : (∃ ts, r = .prose ts) ↔ isBare p = true
  grid_iff : ∀ N, (∃ rows, r = .grid N rows) ↔ N = 1 ∧ p.1 = true ∨ p.2.single? = none ∧ p.2.columnCount = N
  not_group : ∀ kind items, r ≠ .group kind items

end Snapshot

/-! ## The lines of a source -/

namespace SourceLine

theorem exists_of_mem_ofText {o : ReadOptions} {source : Text} {l : SourceLine} (h : l ∈ ofText o source) :
    ∃ line : Text, line ≠ [] ∧ '\n' ∉ line ∧ Text.Trimmed line ∧ read o line = l := by
  obtain ⟨line, hline, rfl⟩ := List.mem_map.1 h
  obtain ⟨hne, ht⟩ := of_mem_ofSource hline
  refine ⟨line, hne, fun hm => ?_, ht, rfl⟩
  obtain ⟨u, hu, rfl⟩ := List.mem_map.1 (List.mem_filter.1 hline).1
  exact Text.not_mem_of_mem_lines hu ((Text.trim_sublist u).mem hm)

variable {o : ReadOptions} {line : Text}

theorem read_eq_prose {t : Text} (h : read o line = .prose t) :
    t = line ∧ GridRow.read? line = none ∧ ElementLine.read? line = none := by
  unfold read at h
  split at h
  · cases h
  · rename_i hg
    split at h
    · split at h <;> cases h
    · rename_i he
      cases h
      exact ⟨rfl, hg, he⟩

theorem read_eq_lone {e : Element} (h : read o line = .lone e) :
    ElementLine.read? line = some e ∧ o.isGroupable e.kind = false := by
  unfold read at h
  split at h
  · cases h
  · split at h
    · rename_i he
      split at h
      · cases h
      · rename_i hg
        cases h
        exact ⟨he, by simpa using hg⟩
    · cases h

theorem read_eq_item {e : Element} (h : read o line = .item e) :
    ElementLine.read? line = some e ∧ o.isGroupable e.kind = true := by
  unfold read at h
  split at h
  · cases h
  · split at h
    · rename_i he
      split at h
      · rename_i hg
        cases h
        exact ⟨he, hg⟩
      · cases h
    · cases h

theorem ofText_prose {body : Text} (hne : body ≠ []) (hn : '\n' ∉ body) (ht : trim body = body)
    (hg : GridRow.read? body = none) (he : ElementLine.read? body = none) : ofText o body = [.prose body] := by
  have htrim : Text.Trimmed body := ht ▸ Text.trimmed_trim body
  rw [ofText, ofSource_line hne hn htrim, List.map_singleton, read, hg, he]

end SourceLine

theorem SourceLine.length_ofText_le {o : ReadOptions} {t : Text} (h : '\n' ∉ t) : (ofText o t).length ≤ 1 := by
  rw [ofText, List.length_map, ofSource_eq, Text.segments_of_not_mem h]
  exact List.length_filter_le _ _

namespace GridRow

theorem count_of_read? {line cells : Text} {n : Nat} (h : read? line = some (n, cells)) :
    0 < n ∧ n ≤ Count.ceiling ∧ cells.Sublist line := by
  obtain ⟨digits, rest, hb, hc, hn, h0⟩ := read?_eq_some h
  obtain ⟨u, rfl, hu⟩ := suffix_of_bracketed? hb
  refine ⟨Nat.pos_of_ne_zero h0, ?_, (sublist_of_between? hc).trans (hu.sublist.trans (List.sublist_cons_self _ _))⟩
  unfold Count.read? at hn
  split at hn
  · cases hn
  · split at hn
    · split at hn
      · cases hn
        assumption
      · cases hn
    · cases hn

end GridRow

/-! ## Prose -/

namespace Run

theorem continueWith_prose : ∀ ts before : List Text,
    continueWith (.prose before) (ts.map .prose) = [.prose (before ++ ts)]
  | [], before => by rw [List.append_nil]; rfl
  | t :: ts, before => by
    rw [List.map_cons, continueWith, extend?]
    dsimp only
    rw [continueWith_prose ts, List.append_assoc]
    rfl

theorem ofLines_prose {ts : List Text} (h : ts ≠ []) : ofLines (ts.map .prose) = [.prose ts] := by
  obtain ⟨t, ts, rfl⟩ := List.exists_cons_of_ne_nil h
  exact continueWith_prose ts [t]

end Run

namespace Snapshot

variable {o : ReadOptions} {source : Text}

/-- A block that no flag puts into a row is written as on its own. -/
theorem chunk_false (l : Layout) : chunk o (false, l) = SourceLine.ofText o l.write := by
  rw [chunk, Layout.write, SourceLine.ofText, SourceLine.ofSource_joinWith]

theorem Writes.alone {l : Layout} {r : Run} (h : Writes o (false, l) r) : (Document.read o l.write).blocks = [l] := by
  rw [Document.read_eq, ← chunk_false, h.lines, List.map_singleton, h.layout]

/-- A freestanding element that does not go into a row is no grid. -/
theorem grid_iff_of_single {e : Element} {r : Run} (h : ∀ N rows, r ≠ .grid N rows) (N : Nat) :
    (∃ rows, r = .grid N rows) ↔ N = 1 ∧ (false, Layout.single e).1 = true ∨
      (false, Layout.single e).2.single? = none ∧ (false, Layout.single e).2.columnCount = N := by
  refine ⟨fun hr => hr.elim fun rows hr => absurd hr (h N rows), fun hr => ?_⟩
  rcases hr with ⟨-, hr⟩ | ⟨hr, -⟩ <;> cases hr

/-- Bare prose is written as the lines it was read from. -/
theorem writes_prose {ts : List Text} (h : Run.prose ts ∈ Run.ofLines (SourceLine.ofText o source)) :
    Writes o (false, (Run.prose ts).toLayout) (.prose ts) := by
  obtain ⟨us, hne, hg, hus⟩ := Run.gathers_of_mem_ofLines h
  obtain rfl : us = ts.map .prose := hg
  have hline : ∀ t ∈ ts, (t ≠ [] ∧ '\n' ∉ t ∧ Text.Trimmed t) ∧ SourceLine.read o t = .prose t := by
    intro t ht
    obtain ⟨line, hne, hn, htr, hr⟩ := SourceLine.exists_of_mem_ofText (hus _ (List.mem_map_of_mem ht))
    obtain ⟨rfl, -, -⟩ := SourceLine.read_eq_prose hr
    exact ⟨⟨hne, hn, htr⟩, hr⟩
  have hwrite : ElementLine.write (Element.prose (joinWith ['\n'] ts)) = joinWith ['\n'] ts := rfl
  have hchunk : chunk o (false, (Run.prose ts).toLayout) = ts.map .prose := by
    rw [chunk_false, Run.toLayout, Layout.write_single, hwrite, SourceLine.ofText, SourceLine.ofSource_joinWith,
      SourceLine.ofSource_lines fun t ht => (hline t ht).1]
    exact List.map_congr_left fun t ht => (hline t ht).2
  exact ⟨by rw [hchunk, Run.ofLines_prose (by simpa using hne)], rfl, ⟨fun _ => rfl, fun _ => ⟨ts, rfl⟩⟩,
    grid_iff_of_single fun _ _ => Run.noConfusion, fun _ _ => Run.noConfusion⟩

theorem writes_bare {body : Text} {l : Layout} (hl : l = .single (.prose body)) (hne : body ≠ []) (hn : '\n' ∉ body)
    (ht : trim body = body) (hg : GridRow.read? body = none) (he : ElementLine.read? body = none) :
    Writes o (false, l) (.prose [body]) := by
  subst hl
  have hchunk : chunk o (false, .single (.prose body)) = [.prose body] := by
    rw [chunk_false]
    exact SourceLine.ofText_prose hne hn ht hg he
  exact ⟨by rw [hchunk]; rfl, rfl, ⟨fun _ => rfl, fun _ => ⟨_, rfl⟩⟩, grid_iff_of_single fun _ _ => Run.noConfusion,
    fun _ _ => Run.noConfusion⟩

theorem writes_lone {e : Element} {line : Text} (h : ElementLine.ReadFrom line e) (hn : '\n' ∉ line)
    (hr : ElementLine.read? (ElementLine.write e) = some e) (ho : o.isGroupable e.kind = false) :
    Writes o (false, .single e) (.lone e) := by
  have hchunk : chunk o (false, .single e) = [.lone e] := by
    obtain ⟨hline, hg⟩ := h.ofText_write_eq hn o
    rw [chunk_false, Layout.write_single, hline, SourceLine.read_eq_of_read? hg hr, ho, if_neg Bool.false_ne_true]
  have hp : (Layout.single e).prose? = none := ElementLine.prose?_of_read? hr
  refine ⟨by rw [hchunk]; rfl, rfl, ⟨fun h => h.elim fun _ h => Run.noConfusion h, fun h => ?_⟩,
    grid_iff_of_single fun _ _ => Run.noConfusion, fun _ _ => Run.noConfusion⟩
  rw [isBare, hp] at h
  cases h

/-! ## Grid rows -/

/-- A grid that comes back on its own is written as rows that are one run. -/
theorem exists_writes_of_alone {l : Layout} (h0 : 0 < l.columnCount) (hN : l.columnCount ≤ Count.ceiling)
    (hs : l.single? = none) (halone : (Document.read o l.write).blocks = [l]) : ∃ r, Writes o (false, l) r := by
  obtain ⟨insides, hlines⟩ := GridPen.exists_insides o hN
  have hchunk : chunk o (false, l) = insides.map (.gridRow l.columnCount) := by
    rw [chunk, blockLines, hs]
    rwa [Nat.max_eq_left h0] at hlines
  rw [Document.read_eq, ← chunk_false, hchunk] at halone
  have hne : insides ≠ [] := by
    rintro rfl
    cases halone
  rw [Run.ofLines_gridRows _ hne] at halone
  have hprose : l.prose? = none := by rw [Layout.prose?, hs]; rfl
  refine ⟨.grid l.columnCount insides, by rw [hchunk, Run.ofLines_gridRows _ hne], (List.cons.inj halone).1,
    ⟨fun h => h.elim fun _ h => Run.noConfusion h, ?_⟩, fun N => ⟨?_, ?_⟩, fun _ _ => Run.noConfusion⟩
  · intro hb
    rw [isBare, hprose] at hb
    cases hb
  · rintro ⟨_, hr⟩
    cases hr
    exact .inr ⟨hs, rfl⟩
  · rintro (⟨-, h⟩ | ⟨-, rfl⟩)
    · cases h
    · exact ⟨_, rfl⟩

/-- **Prose that fits is written into a row of one column.** -/
theorem exists_writes_of_fits {body : Text} (h : fitsInCell body = true) (o : ReadOptions) :
    ∃ r, Writes o (true, .single (.prose body)) r := by
  simp only [fitsInCell, Bool.and_eq_true, Bool.not_eq_true', beq_iff_eq] at h
  obtain ⟨⟨hn, hsplit⟩, hread⟩ := h
  have hn : '\n' ∉ body := by simpa using hn
  have hne : body ≠ [] := (Split.uncut_of_splitTop hsplit).2.2
  obtain ⟨hspan, hkind⟩ := RowCell.span?_eq_none_of_read hread
  have htext : GridPen.cellText (.content (.prose body)) = body := GridPen.cellText_eq_write (e := .prose body) hne hn
  have hshows : Shows (.single (.prose body)) [[Cell.ofKind (.content (.prose body)) 1]] := by
    refine ⟨List.cons_ne_nil _ _, rfl, isPicture_single rfl, ⟨fun _ hc => (by cases hc), trivial⟩, fun row hrow => ?_⟩
    rw [List.mem_singleton.1 hrow]
    refine ⟨?_, fun _ => ?_, .inl ?_⟩
    · show (RowCell.ofBody none (GridPen.cellText (.content (.prose body)))).kind = _
      rw [htext]
      exact hkind
    · show GridRow.span? (GridPen.cellText (.content (.prose body))) = none
      rw [htext]
      exact hspan
    · show splitTop .comma (GridPen.cellText (.content (.prose body))) = [GridPen.cellText (.content (.prose body))]
      rw [htext]
      exact hsplit
  obtain ⟨insides, hlines, hne, hl⟩ := hshows.exists_run (show 1 ≤ Count.ceiling by decide) o
  have hchunk : chunk o (true, .single (.prose body)) = insides.map (.gridRow 1) := hlines
  refine ⟨.grid 1 insides, by rw [hchunk, Run.ofLines_gridRows _ hne], hl, ⟨fun h => h.elim fun _ h => Run.noConfusion h, ?_⟩,
    fun N => ⟨?_, ?_⟩, fun _ _ => Run.noConfusion⟩
  · intro hb
    cases hb
  · rintro ⟨_, hr⟩
    cases hr
    exact .inl ⟨rfl, rfl⟩
  · rintro (⟨rfl, -⟩ | ⟨h, -⟩)
    · exact ⟨_, rfl⟩
    · cases h

end Snapshot

theorem Snapshot.alone_of_fits {body : Text} (h : fitsInCell body = true) (o : ReadOptions) :
    (Document.read o (Layout.single (.prose body)).write).blocks = [.single (.prose body)] := by
  simp only [fitsInCell, Bool.and_eq_true, Bool.not_eq_true', beq_iff_eq] at h
  obtain ⟨⟨hn, hsplit⟩, hread⟩ := h
  obtain ⟨-, ht, hne⟩ := Split.uncut_of_splitTop hsplit
  obtain ⟨hspan, hkind⟩ := RowCell.span?_eq_none_of_read hread
  have hg : GridRow.read? body = none := by
    cases hr : GridRow.read? body with
    | none => rfl
    | some p =>
      obtain ⟨digits, rest, hb, -⟩ := GridRow.read?_eq_some hr
      rw [GridRow.span?, hb] at hspan
      cases hspan
  have he : ElementLine.read? body = none := by
    cases hr : ElementLine.read? body with
    | none => rfl
    | some e =>
      have hp := RowCell.read?_getD_of_ofBody hkind
      rw [hr, Option.getD_some] at hp
      cases hp ▸ ElementLine.prose?_of_read? hr
  exact (writes_bare rfl hne (by simpa using hn) ht hg he).alone

/-! ## Grids that were read -/

theorem RowCell.of_mem_resolve {cells : List RowCell} {N : Nat} {c : Cell} (h : c ∈ RowCell.resolve cells N) :
    0 < c.columnSpan ∧ c.rowSpan = 1 := by
  obtain ⟨i, hi, rfl⟩ := List.mem_mapIdx.1 h
  refine ⟨?_, rfl⟩
  show 0 < RowCell.resolveSpan _ _ _ _ _
  unfold resolveSpan
  split <;> exact Nat.lt_of_lt_of_le Nat.zero_lt_one (Nat.le_max_right _ _)

theorem Run.of_mem_ofLines_grid {o : ReadOptions} {source : Text} {N : Nat} {rows : List Text}
    (h : Run.grid N rows ∈ Run.ofLines (SourceLine.ofText o source)) :
    rows ≠ [] ∧ 0 < N ∧ N ≤ Count.ceiling ∧ ∀ row ∈ rows, '\n' ∉ row := by
  obtain ⟨us, hne, hg, hus⟩ := gathers_of_mem_ofLines h
  obtain rfl : us = rows.map (.gridRow N) := hg
  have hrow : ∀ row ∈ rows, (0 < N ∧ N ≤ Count.ceiling) ∧ '\n' ∉ row := by
    intro row hr
    obtain ⟨line, -, hn, -, hread⟩ := SourceLine.exists_of_mem_ofText (hus _ (List.mem_map_of_mem hr))
    obtain ⟨h0, hN, hsub⟩ := GridRow.count_of_read? (SourceLine.read_eq_gridRow hread)
    exact ⟨⟨h0, hN⟩, fun hm => hn (hsub.mem hm)⟩
  have hne : rows ≠ [] := by simpa using hne
  obtain ⟨row, hr⟩ := List.exists_mem_of_ne_nil rows hne
  exact ⟨hne, (hrow row hr).1.1, (hrow row hr).1.2, fun row hr => (hrow row hr).2⟩

/-- What the only cell of a grid holds: prose of one line, or an element whose parts stand in one line. -/
theorem Layout.element_of_ofRows {N : Nat} {rows : List Text} {e : Element} (hn : ∀ row ∈ rows, '\n' ∉ row)
    (he : (Layout.ofRows N rows).single? = some e) :
    (∃ body, e = .prose body ∧ '\n' ∉ body ∧ trim body = body ∧ ElementLine.read? body = none) ∨
      ∃ t, '\n' ∉ t ∧ ElementLine.ReadFrom t e ∧ e.prose? = none := by
  obtain ⟨span, hl⟩ := Layout.eq_of_single? he
  have hm : (⟨.content e, span, 1⟩ : Cell) ∈ (Layout.ofRows N rows).cells := by
    rw [hl]
    exact List.mem_cons_self
  obtain ⟨row, hrow, t, ht, hk⟩ := Layout.exists_of_mem_ofRows hm
  obtain ⟨body, hbody, htrim, rfl⟩ := RowCell.exists_body hk
  have hnb : '\n' ∉ body := fun hb => hn row hrow ((hbody.trans (Split.sublist_of_mem_splitTop ht)).mem hb)
  have htt : trim t = t := by
    obtain ⟨u, -, rfl⟩ := List.mem_map.1 (Split.mem_of_mem_dropEmptyEnd ht)
    exact Text.trim_trim u
  cases hr : ElementLine.read? body with
  | none => exact .inl ⟨body, rfl, hnb, htrim htt, hr⟩
  | some f => exact .inr ⟨body, hnb, ElementLine.readFrom_of_read? hr, ElementLine.prose?_of_read? hr⟩

theorem Run.of_mem_ofLines_lone {o : ReadOptions} {source : Text} {e : Element}
    (h : Run.lone e ∈ Run.ofLines (SourceLine.ofText o source)) :
    ∃ t, '\n' ∉ t ∧ ElementLine.ReadFrom t e ∧ e.prose? = none ∧ o.isGroupable e.kind = false := by
  obtain ⟨us, -, rfl, hus⟩ := gathers_of_mem_ofLines h
  obtain ⟨line, -, hn, -, hread⟩ := SourceLine.exists_of_mem_ofText (hus _ List.mem_cons_self)
  obtain ⟨he, ho⟩ := SourceLine.read_eq_lone hread
  exact ⟨line, hn, ElementLine.readFrom_of_read? he, ElementLine.prose?_of_read? he, ho⟩

theorem Run.isGroupable_of_mem_ofLines {o : ReadOptions} {source kind : Text} {items : List GroupItem}
    (h : Run.group kind items ∈ Run.ofLines (SourceLine.ofText o source)) :
    o.isGroupable (Element.group kind items).kind = true := by
  obtain ⟨us, hne, ⟨es, rfl, -, hkind⟩, hus⟩ := gathers_of_mem_ofLines h
  obtain ⟨e, he⟩ : ∃ e, e ∈ es := List.exists_mem_of_ne_nil es (by simpa using hne)
  obtain ⟨line, -, -, -, hread⟩ := SourceLine.exists_of_mem_ofText (hus _ (List.mem_map_of_mem he))
  obtain ⟨hl, ho⟩ := SourceLine.read_eq_item hread
  have hk : (Element.group kind items).kind = e.kind := by
    rw [← hkind e he]
    exact (ElementLine.readFrom_of_read? hl).kind.lowercase
  rw [hk, ho]

end Gridmark
