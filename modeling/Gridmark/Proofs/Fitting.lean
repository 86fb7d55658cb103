import Gridmark.Proofs.Cuts
import Gridmark.Proofs.SourceBlocks
/-!
# Fitting — prose that a cell can hold

Whether prose goes into a row of one column is found out by looking at the prose alone: it has no line feed, it splits
into itself and it reads as itself.  That is the same as trying it (`fitsInCell_iff`).  If the row reads back, no line feed
can have been in the prose, for a row is one line.  No comma can have been lost in a cut either, and a fragment that has
all the commas of a text is the text (`eq_trim_of_count_le`).  And no span can have been read off it, for then the prose
that was read would be shorter.
-/
namespace Gridmark

open Text (trim)

/-! ## Fragments -/

namespace Split

open Token (scan)

variable {d : Delimiter} {s t : Text}

/-- A delimiter that was cut at is in no fragment. -/
theorem count_lt_of_mem_splitTop {l r : Text} (hs : s = l ++ d.char :: r)
    (hcut : pieces d .initial (scan s) = l :: pieces d .initial (scan r)) (h : t ∈ splitTop d s) :
    t.count d.char < s.count d.char := by
  have hcount : s.count d.char = l.count d.char + r.count d.char + 1 := by
    rw [hs, List.count_append, List.count_cons_self]
    omega
  have hpart : t = trim l ∨ t ∈ splitTop d r := by
    rw [splitTop_cons_of_cut hcut] at h
    split at h
    · cases h
    · exact List.mem_cons.1 h
  rcases hpart with rfl | hr
  · have := (Text.trim_sublist l).count_le d.char
    omega
  · have := (sublist_of_mem_splitTop hr).count_le d.char
    omega

/-- **A fragment with all the delimiters of a text is the text**, trimmed, and it is not cut again. -/
theorem eq_trim_of_count_le (h : t ∈ splitTop d s) (hc : s.count d.char ≤ t.count d.char) :
    t = trim s ∧ splitTop d t = [t] := by
  rcases splitTopOnce?_cases d s with ⟨-, ⟨st, hst⟩, -⟩ | ⟨l, r, -, hs, -, hcut⟩
  · rw [splitTop_of_walk hst] at h
    split at h
    · cases h
    · rename_i hne
      obtain rfl := List.mem_singleton.1 h
      obtain ⟨escaped, htrim⟩ := walk?_trim hst
      exact ⟨rfl, by rw [splitTop_of_walk htrim, Text.trim_trim, if_neg hne]⟩
  · exact absurd (count_lt_of_mem_splitTop hs hcut h) (Nat.not_lt.2 hc)

end Split

/-! ## Cells -/

namespace RowCell

theorem eq_of_ofBody {span : Option Nat} {t body : Text} (h : (ofBody span t).kind = .content (.prose body)) : t = body := by
  have he := read?_getD_of_ofBody h
  cases hr : ElementLine.read? t with
  | some e =>
    rw [hr, Option.getD_some] at he
    cases he ▸ ElementLine.prose?_of_read? hr
  | none =>
    rw [hr, Option.getD_none] at he
    cases he
    rfl

/-- **Prose that was read from a cell stands in it**, and is all of it only if the cell has no span. -/
theorem of_read_prose {t body : Text} (h : (read t).kind = .content (.prose body)) :
    body.Sublist t ∧ (t = body → read t = ⟨.content (.prose body), none⟩) := by
  rw [read] at h ⊢
  split at h
  · rename_i span rest hspan
    obtain rfl := eq_of_ofBody h
    obtain ⟨⟨digits, r⟩, hb, he⟩ := Option.map_eq_some_iff.1 hspan
    obtain ⟨u, rfl, hu⟩ := GridRow.suffix_of_bracketed? hb
    have hrest : rest.Sublist u := by
      cases he
      exact (Text.trim_sublist r).trans hu.sublist
    refine ⟨hrest.trans (List.sublist_cons_self _ _), fun ht => ?_⟩
    have hlen := hrest.length_le
    rw [← ht, List.length_cons] at hlen
    exact absurd hlen (Nat.not_succ_le_self _)
  · obtain rfl := eq_of_ofBody h
    exact ⟨List.Sublist.refl _, fun _ => by rw [ofBody_eq h, if_neg CellKind.noConfusion]⟩

end RowCell

/-! ## The row of one cell -/

namespace Snapshot

open Picture

/-- The row of one column that an element goes into. -/
def cellRow (e : Element) : Text :=
  ['[', '1', ']', ':', ' ', '\x7b', ' '] ++ GridPen.cellText (.content e) ++ [' ', '\x7d']

/-- What stands between the braces of that row. -/
def cellInside (e : Element) : Text := ' ' :: (GridPen.cellText (.content e) ++ [' '])

/-- **An element on its own is written as this row.** -/
theorem lines_write_single (e : Element) : (GridPen.write (.single e)).lines = [cellRow e] := by
  have hpicture : IsPicture 1 [[Cell.ofKind (.content e) 1]] := isPicture_single rfl
  have hfinish := GridPen.finish_write (by decide) Nat.one_pos hpicture ⟨fun _ hc => (by cases hc), trivial⟩ (by simp)
  rw [show cells [[Cell.ofKind (.content e) 1]] = [Cell.ofKind (.content e) 1] from rfl] at hfinish
  rw [GridPen.lines, GridPen.columns_write]
  exact congrArg (List.map (GridPen.rowText 1)) hfinish

theorem ofText_cellRow (o : ReadOptions) (e : Element) : SourceLine.ofText o (cellRow e) = [.gridRow 1 (cellInside e)] := by
  have hn : '\n' ∉ cellRow e := by simp [cellRow, GridPen.not_mem_cellText]
  have hne : cellRow e ≠ [] := by simp [cellRow]
  have ht : Text.Trimmed (cellRow e) := trimmed_rowText 1 [⟨0, 1, GridPen.cellText (.content e), true⟩]
  have hrow : cellRow e = GridPen.bracketed 1 ++ '\x7b' :: (cellInside e ++ ['\x7d']) := by
    rw [show GridPen.bracketed 1 = ['[', '1', ']', ':', ' '] from rfl]
    simp [cellRow, cellInside]
  have hread : GridRow.read? (cellRow e) = some (1, cellInside e) := by
    rw [hrow, GridRow.read?_bracketed Nat.one_pos (by decide)]
  rw [SourceLine.ofText, SourceLine.ofSource_line hne hn ht, List.map_singleton, SourceLine.read, hread]

theorem blocks_read_cellRow (o : ReadOptions) (e : Element) :
    (Document.read o (cellRow e)).blocks = [.ofRows 1 [cellInside e]] := by
  rw [Document.read_eq, ofText_cellRow]
  rfl

/-! ## Prose -/

theorem ofRows_of_fitsInCell {body : Text} (h : fitsInCell body = true) :
    Layout.ofRows 1 [cellInside (.prose body)] = .single (.prose body) := by
  obtain ⟨r, hr⟩ := exists_writes_of_fits h default
  have hchunk : chunk default (true, .single (.prose body)) = [.gridRow 1 (cellInside (.prose body))] := by
    rw [← ofText_cellRow default, chunk]
    show ((GridPen.write (.single (.prose body))).lines.flatMap SourceLine.ofSource).map _ = _
    rw [lines_write_single, List.flatMap_singleton]
    rfl
  have hrun := hr.lines
  rw [hchunk] at hrun
  have hlayout := hr.layout
  rw [← (List.cons.inj hrun).1] at hlayout
  exact hlayout

/-- What comes back from a cell is one trimmed line. -/
theorem of_ofRows_eq {body : Text} (h : Layout.ofRows 1 [cellInside (.prose body)] = .single (.prose body)) :
    body ≠ [] ∧ '\n' ∉ body ∧ trim body = body := by
  have hne : body ≠ [] := by
    rintro rfl
    exact absurd h (by decide)
  have hn : ∀ row ∈ [cellInside (.prose body)], '\n' ∉ row := by simp [cellInside, GridPen.not_mem_cellText]
  rcases Layout.element_of_ofRows hn (congrArg Layout.single? h) with ⟨b, hb, hnb, ht, -⟩ | ⟨t, -, -, hp⟩
  · cases hb
    exact ⟨hne, hnb, ht⟩
  · cases hp

theorem fitsInCell_of_ofRows {body : Text} (h : Layout.ofRows 1 [cellInside (.prose body)] = .single (.prose body)) :
    fitsInCell body = true := by
  obtain ⟨hne, hn, ht⟩ := of_ofRows_eq h
  have htext : GridPen.cellText (.content (.prose body)) = body := GridPen.cellText_eq_write (e := .prose body) hne hn
  have hinside : cellInside (.prose body) = ' ' :: (body ++ [' ']) := by rw [cellInside, htext]
  have htrim : trim (' ' :: (body ++ [' '])) = body := by
    rw [Text.trim_cons_blank (by decide), Text.trim_concat_blank (by decide), ht]
  have hmem : Cell.ofKind (.content (.prose body)) 1 ∈ (Layout.ofRows 1 [cellInside (.prose body)]).cells := by
    rw [h]
    exact List.mem_cons_self
  obtain ⟨row, hrow, t, hfragment, hkind⟩ := Layout.exists_of_mem_ofRows hmem
  obtain rfl := List.mem_singleton.1 hrow
  rw [hinside] at hfragment
  obtain ⟨hsub, hread⟩ := RowCell.of_read_prose hkind
  -- the body stands in the fragment, so the fragment has every comma of the row
  have hcommas : (' ' :: (body ++ [' '])).count Delimiter.comma.char ≤ t.count Delimiter.comma.char := by
    have := hsub.count_le ','
    simpa [Delimiter.char] using this
  obtain ⟨hwhole, hsplit⟩ := Split.eq_trim_of_count_le hfragment hcommas
  rw [htrim] at hwhole
  subst hwhole
  simp [fitsInCell, hn, hsplit, hread rfl]

/-- **Prose fits in a cell just when it comes back from the row of one column that it is written as.** -/
theorem fitsInCell_iff (o : ReadOptions) (body : Text) :
    (GridPen.write (.single (.prose body))).lines = [cellRow (.prose body)] ∧
      (fitsInCell body = true ↔ (Document.read o (cellRow (.prose body))).blocks = [.single (.prose body)]) := by
  refine ⟨lines_write_single _, ?_⟩
  rw [blocks_read_cellRow, List.cons.injEq, and_iff_left rfl]
  exact ⟨ofRows_of_fitsInCell, fitsInCell_of_ofRows⟩

/-- A comma in quotes stays in the cell, one outside is a cut; a span and a keyword are read as such. -/
example : fitsInCell "a \"b, c\"".toList = true ∧ fitsInCell ['a', ',', 'b'] = false ∧
    fitsInCell "[2]: a".toList = false ∧ fitsInCell RowCell.spaceWord = false := by decide

end Snapshot
end Gridmark
