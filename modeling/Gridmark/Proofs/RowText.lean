import Gridmark.Proofs.Counts
import Gridmark.Proofs.PenRows
import Gridmark.Proofs.Values
/-!
# RowText — a row of a picture is what its text reads as

The text of a row shows every span if the row is not full, and those above one if it is.  Either way the reader finds the
spans again: what a full row does not show is one column for each cell without a span, and as many columns are left as
there are such cells (`resolve_of_reads`).  A cell's own text has to stay whole between the commas and to say what the
cell holds (`RowLegible`).
-/
namespace Gridmark

open Picture
open Text (trim trimStart joinWith)

/-! ## Numbers in brackets -/

namespace GridRow

open GridPen (bracketed)

def mark (n : Nat) : Text := '[' :: (Text.ofNat n ++ [']', ':'])

theorem bracketed_append (n : Nat) (t : Text) : bracketed n ++ t = mark n ++ ' ' :: t := by
  simp [bracketed, mark]

theorem bracketed?_mark (n : Nat) (t : Text) : bracketed? (mark n ++ t) = some (Text.ofNat n, trimStart t) := by
  have hd : ∀ c ∈ Text.ofNat n, Text.isDecimalDigit c = true := fun c hc =>
    Text.isDecimalDigit_of_isDigit (Count.isDigit_of_mem_ofNat hc)
  obtain ⟨d, ds, hds⟩ := List.exists_cons_of_ne_nil (show Text.ofNat n ≠ [] from Nat.toDigits_ne_nil)
  have hc : Text.isDecimalDigit ']' = false := by decide
  have ht : (Text.ofNat n ++ (']' :: ':' :: t)).takeWhile Text.isDecimalDigit = d :: ds := by
    rw [List.takeWhile_append_of_pos hd, List.takeWhile_cons_of_neg (by simp [hc]), List.append_nil, hds]
  have hr : (Text.ofNat n ++ (']' :: ':' :: t)).dropWhile Text.isDecimalDigit = ']' :: ':' :: t := by
    rw [List.dropWhile_append_of_pos hd, List.dropWhile_cons_of_neg (by simp [hc])]
  have hb : mark n ++ t = '[' :: (Text.ofNat n ++ (']' :: ':' :: t)) := by simp [mark]
  rw [hb, bracketed?, ht, hr, hds]
  rfl

theorem trimmed_mark (n : Nat) : Text.Trimmed (mark n) := by
  have h : mark n = '[' :: (Text.ofNat n ++ [']'] ++ [':']) := by simp [mark]
  rw [h]
  exact Text.trimmed_cons_concat (by decide) (by decide) _

theorem span?_trim_bracketed_eq (n : Nat) (t : Text) :
    span? (trim (bracketed n ++ t)) = some (max ((Count.read? (Text.ofNat n)).getD Count.ceiling) 1, trim t) := by
  rw [bracketed_append, Text.trim_append_of_trimmed (trimmed_mark n) (List.cons_ne_nil _ _), span?, bracketed?_mark,
    Option.map_some, Text.trim_trimStart, Text.trim_trimEnd, Text.trim_cons_blank (by decide)]

theorem span?_trim_bracketed {n : Nat} (h0 : 0 < n) (h : n ≤ Count.ceiling) (t : Text) :
    span? (trim (bracketed n ++ t)) = some (n, trim t) := by
  rw [span?_trim_bracketed_eq, Count.read?_ofNat h, Option.getD_some, Nat.max_eq_left h0]

theorem read?_bracketed {n : Nat} (h0 : 0 < n) (h : n ≤ Count.ceiling) (t : Text) :
    read? (bracketed n ++ '\x7b' :: (t ++ ['\x7d'])) = some (n, t) := by
  have hs : trimStart (' ' :: '\x7b' :: (t ++ ['\x7d'])) = '\x7b' :: (t ++ ['\x7d']) := by
    rw [trimStart, List.dropWhile_cons_of_pos (by decide), List.dropWhile_cons_of_neg (by decide)]
  rw [bracketed_append, read?, bracketed?_mark, hs]
  dsimp only
  rw [Value.between?_append, Count.read?_ofNat h]
  exact if_neg (Nat.ne_of_gt h0)

end GridRow

namespace Split

theorem walk?_bracketed (n : Nat) (t : Text) :
    walk? .comma .initial (GridPen.bracketed n ++ t) = walk? .comma .initial t := by
  have hd : ∀ c ∈ Text.ofNat n, isBland (.ofChar c) = true := fun c hc => by
    have hs : ∀ d ∈ ['"', '(', '[', '\x7b', ')', ']', '\x7d', ','], c ≠ d := by
      have hno : ∀ d ∈ ['"', '(', '[', '\x7b', ')', ']', '\x7d', ','], d.isDigit = false := by
        simp only [List.forall_mem_cons]
        exact ⟨rfl, rfl, rfl, rfl, rfl, rfl, rfl, rfl, by simp⟩
      rintro d hd rfl
      exact absurd (Count.isDigit_of_mem_ofNat hc) (by simp [hno c hd])
    unfold TokenKind.ofChar
    grind [isBland]
  obtain ⟨e, he⟩ := walk?_bland hd 1 false
  have hb : GridPen.bracketed n ++ t = '[' :: (Text.ofNat n ++ (']' :: ':' :: ' ' :: t)) := by simp [GridPen.bracketed]
  have h1 : walk? .comma ⟨1, .none, e⟩ (']' :: ':' :: ' ' :: t) = walk? .comma .initial t := by
    rw [walk?_cons (fun _ h => absurd h (by decide)) (fun _ h => absurd h (by decide)),
      if_neg (fun hc => absurd hc.1 (by decide)),
      walk?_cons (fun _ h => absurd h (by decide)) (fun _ h => absurd h (by decide)),
      if_neg (fun hc => absurd hc.1 (by decide)), walk?_blank]
    cases e <;> rfl
  rw [hb, walk?_cons (fun _ h => absurd h (by decide)) (fun _ h => absurd h (by decide)),
    if_neg (fun hc => absurd hc.1 (by decide))]
  show walk? .comma ⟨1, .none, false⟩ (Text.ofNat n ++ (']' :: ':' :: ' ' :: t)) = _
  rw [walk?_append (joint_of_head (by simp) (by simp)), he, Option.bind_some, h1]

theorem Sealed.bracketed {t : Text} (h : Sealed t) (n : Nat) : Sealed (GridPen.bracketed n ++ t) := by
  obtain ⟨s, hs, ht⟩ := h
  exact ⟨s, by rw [walk?_bracketed, hs], ht⟩

theorem Uncut.bracketed {t : Text} (h : Uncut t) (n : Nat) : Uncut (GridPen.bracketed n ++ t) := by
  obtain ⟨s, hs⟩ := h
  exact ⟨s, by rw [walk?_bracketed, hs]⟩

end Split

/-! ## Cells -/

/-- The kind of a cell does not depend on its span. -/
theorem RowCell.ofBody_eq {t : Text} {k : CellKind} (h : (ofBody none t).kind = k) (span : Option Nat) :
    ofBody span t = ⟨k, if k = .empty then some (span.getD 1) else span⟩ := by
  subst h
  unfold ofBody
  split
  · rw [if_pos rfl]
  · split
    · rw [if_neg CellKind.noConfusion]
    · rw [if_neg CellKind.noConfusion]

/-- What a cell holds reads back from its own text, `shown` telling whether its span stands before it and `last` whether no
cell stands behind it. -/
structure CellKind.ReadsBack (shown last : Bool) (k : CellKind) : Prop where
  kind_eq : (RowCell.ofBody none (GridPen.cellText k)).kind = k
  span_eq : shown = false → GridRow.span? (GridPen.cellText k) = none
  whole : if last then splitTop .comma (GridPen.cellText k) = [GridPen.cellText k] ∨ shown = true ∧ GridPen.cellText k = []
    else splitTop .comma (GridPen.cellText k ++ [',', ' ', 'x']) = [GridPen.cellText k, ['x']]

theorem CellKind.readsBack_empty (shown last : Bool) : CellKind.ReadsBack shown last .empty :=
  ⟨by decide, fun _ => by decide, by cases last <;> decide +revert⟩

theorem CellKind.readsBack_continuation (shown last : Bool) : CellKind.ReadsBack shown last .continuation :=
  ⟨by decide, fun _ => by decide, by cases last <;> decide +revert⟩

namespace Picture

open GridPen (cellText bracketed)
open CellKind (ReadsBack)

def shows (explicit : Bool) (c : Cell) : Bool := explicit || 1 < c.columnSpan

/-- A cell as it is written, the spans of its row being all shown or only those above one. -/
def fragment (explicit : Bool) (c : Cell) : Text :=
  if shows explicit c then bracketed c.columnSpan ++ cellText c.kind else cellText c.kind

/-- Every cell of a row reads back from its own text. -/
def RowLegible (explicit : Bool) : List Cell → Prop
  | [] => True
  | [c] => ReadsBack (shows explicit c) true c.kind
  | c :: d :: cs => ReadsBack (shows explicit c) false c.kind ∧ RowLegible explicit (d :: cs)

/-- What is read of a cell: its kind, and its span unless that is the one column it has without a span. -/
def Reads (explicit : Bool) (c : Cell) (r : RowCell) : Prop :=
  r.kind = c.kind ∧ (r.span = some c.columnSpan ∨ explicit = false ∧ c.columnSpan = 1 ∧ r.span = none)

variable {explicit : Bool} {c : Cell} {row : List Cell}

theorem trim_cellText {last : Bool} (h : ReadsBack (shows explicit c) last c.kind) :
    trim (cellText c.kind) = cellText c.kind := by
  cases last with
  | false => exact (Split.sealed_of_splitTop h.whole).2
  | true =>
    rcases h.whole with h | ⟨-, h⟩
    · exact (Split.uncut_of_splitTop h).2.1
    · rw [h]
      rfl

theorem sealed_fragment (h : ReadsBack (shows explicit c) false c.kind) : Split.Sealed (fragment explicit c) := by
  have ht : Split.Sealed (cellText c.kind) := (Split.sealed_of_splitTop h.whole).1
  rw [fragment]
  split
  · exact ht.bracketed _
  · exact ht

theorem uncut_fragment (h : ReadsBack (shows explicit c) true c.kind) : Split.Uncut (fragment explicit c) := by
  have ht : Split.Uncut (cellText c.kind) := by
    rcases h.whole with h | ⟨-, h⟩
    · exact (Split.uncut_of_splitTop h).1
    · rw [h]
      exact ⟨_, rfl⟩
  rw [fragment]
  split
  · exact ht.bracketed _
  · exact ht

/-- The last cell of a row leaves a text, so it is not dropped. -/
theorem trim_fragment_ne_nil (h : ReadsBack (shows explicit c) true c.kind) : trim (fragment explicit c) ≠ [] := by
  rw [fragment]
  split
  · rw [GridRow.bracketed_append, Text.trim_append_of_trimmed (GridRow.trimmed_mark _) (List.cons_ne_nil _ _)]
    exact List.cons_ne_nil _ _
  · rename_i hs
    rw [trim_cellText h]
    rcases h.whole with h | ⟨h, -⟩
    · exact (Split.uncut_of_splitTop h).2.2
    · exact absurd h hs

theorem apart_fragments : ∀ {row : List Cell}, RowLegible explicit row → Split.Apart (row.map (fragment explicit))
  | [], _ => trivial
  | [_], h => uncut_fragment h
  | _ :: _ :: _, h => ⟨sealed_fragment h.1, apart_fragments h.2⟩

theorem exists_readsBack : ∀ {row : List Cell}, RowLegible explicit row → ∀ c ∈ row,
    ∃ last, ReadsBack (shows explicit c) last c.kind
  | [_], h, _, hc => by
    rw [List.mem_singleton.1 hc]
    exact ⟨true, h⟩
  | _ :: d :: cs, h, c, hc => by
    obtain ⟨hhead, htail⟩ : _ ∧ RowLegible explicit (d :: cs) := h
    rcases List.mem_cons.1 hc with rfl | hc
    · exact ⟨false, hhead⟩
    · exact exists_readsBack htail c hc

theorem getLast?_fragments : ∀ {row : List Cell}, RowLegible explicit row →
    ∀ t ∈ (row.map (fragment explicit)).getLast?, trim t ≠ []
  | [], _, _, ht => by cases ht
  | [c], h, t, ht => by
    cases ht
    exact trim_fragment_ne_nil h
  | _ :: d :: cs, h, t, ht => by
    have htail : RowLegible explicit (d :: cs) := h.2
    exact getLast?_fragments htail t ht

/-- **A cell is read back from its fragment.** -/
theorem reads_fragment {last : Bool} (h : ReadsBack (shows explicit c) last c.kind) (h0 : 0 < c.columnSpan)
    (hN : c.columnSpan ≤ Count.ceiling) : Reads explicit c (RowCell.read (trim (fragment explicit c))) := by
  rw [fragment]
  cases hs : shows explicit c with
  | true =>
    rw [if_pos rfl, RowCell.read, GridRow.span?_trim_bracketed h0 hN]
    dsimp only
    rw [trim_cellText h, RowCell.ofBody_eq h.kind_eq]
    refine ⟨rfl, .inl ?_⟩
    split <;> rfl
  | false =>
    have hsh := hs
    simp only [shows, Bool.or_eq_false_iff, decide_eq_false_iff_not] at hsh
    have h1 : c.columnSpan = 1 := by omega
    rw [if_neg Bool.false_ne_true, trim_cellText h, RowCell.read, h.span_eq hs]
    dsimp only
    rw [RowCell.ofBody_eq h.kind_eq]
    refine ⟨rfl, ?_⟩
    split
    · exact .inl (by rw [h1]; rfl)
    · exact .inr ⟨hsh.1, h1, rfl⟩

/-- What a cell holds is read back from its fragment, whatever span is shown. -/
theorem kind_read_fragment {last : Bool} (h : ReadsBack (shows explicit c) last c.kind) :
    (RowCell.read (trim (fragment explicit c))).kind = c.kind := by
  rw [fragment]
  cases hs : shows explicit c with
  | true =>
    rw [if_pos rfl, RowCell.read, GridRow.span?_trim_bracketed_eq]
    dsimp only
    rw [trim_cellText h, RowCell.ofBody_eq h.kind_eq]
  | false =>
    rw [if_neg Bool.false_ne_true, trim_cellText h, RowCell.read, h.span_eq hs]
    exact h.kind_eq

theorem splitTop_fragments (hne : row ≠ []) (h : RowLegible explicit row) :
    splitTop .comma (' ' :: (joinWith [',', ' '] (row.map (fragment explicit)) ++ [' '])) =
      (row.map (fragment explicit)).map trim :=
  Split.splitTop_joinWith (by simpa using hne) (apart_fragments h) (getLast?_fragments h) (.inr rfl)

/-! ## Spans -/

/-- The spans that a row shows, and one column for each cell that shows none, are the columns of the row. -/
theorem sum_of_reads : ∀ {row : List Cell} {rs : List RowCell}, List.Forall₂ (Reads explicit) row rs →
    (rs.filterMap RowCell.span).sum + RowCell.unspanned rs = width row
  | [], [], .nil => rfl
  | c :: row, r :: rs, .cons h ht => by
    have ih := sum_of_reads ht
    rw [RowCell.unspanned] at ih
    rw [RowCell.unspanned, width_cons]
    rcases h.2 with hs | ⟨-, h1, hs⟩
    · rw [List.filterMap_cons_some hs, List.sum_cons, List.filter_cons_of_neg (by simp [hs])]
      omega
    · rw [List.filterMap_cons_none hs, List.filter_cons_of_pos (by simp [hs]), List.length_cons]
      omega

theorem mapIdx_of_forall₂ {α β : Type} {R : α → β → Prop} : ∀ {as : List α} {bs : List β} {f : Nat → β → α},
    List.Forall₂ R as bs → (∀ i, ∀ a ∈ as, ∀ b, R a b → f i b = a) → bs.mapIdx f = as
  | [], [], _, .nil, _ => rfl
  | a :: as, b :: bs, f, .cons h ht, hf => by
    rw [List.mapIdx_cons, hf 0 a List.mem_cons_self b h,
      mapIdx_of_forall₂ ht fun i a' ha => hf (i + 1) a' (List.mem_cons_of_mem _ ha)]

/-- **A row gets its spans back**: what a row that shows only some of them leaves is one column for each of the others. -/
theorem resolve_of_reads {N : Nat} {rs : List RowCell} (h : List.Forall₂ (Reads explicit) row rs) (hfit : Fits N row)
    (hN : N ≤ Count.ceiling) (he : explicit = false → width row = N) : RowCell.resolve rs N = row := by
  have hsum := sum_of_reads h
  have hle := hfit.width_le
  have hfree : RowCell.remaining rs N = N - (rs.filterMap RowCell.span).sum := by
    rw [RowCell.remaining, Count.foldl_add (by omega), Nat.zero_add]
  refine mapIdx_of_forall₂ h fun i c hc r hr => ?_
  have hrow := hfit.rowSpan_eq c hc
  have hpos := hfit.span_pos c hc
  have hspan : RowCell.resolveSpan (RowCell.remaining rs N) (RowCell.unspanned rs) rs.length i r = c.columnSpan := by
    rcases hr.2 with hs | ⟨hx, h1, hs⟩
    · rw [RowCell.resolveSpan, hs]
      exact Nat.max_eq_left hpos
    · have hshare : RowCell.remaining rs N = RowCell.unspanned rs := by
        have := he hx
        omega
      rw [RowCell.resolveSpan, hs, hshare, h1]
      dsimp only
      split
      · rename_i hu
        rw [hu.1]
        rfl
      · rcases Nat.eq_zero_or_pos (RowCell.unspanned rs) with h0 | h0
        · rw [h0]
          rfl
        · rw [Nat.div_self h0]
          rfl
  rw [hspan, hr.1]
  show (⟨c.kind, c.columnSpan, 1⟩ : Cell) = c
  rw [← hrow]

/-! ## Rows -/

theorem map_penRow {α : Type} {f : PenCell → α} {g : Cell → α} (h : ∀ q, f (GridPen.penCell q) = g q.2) (row : List Cell) :
    (GridPen.penRow row).map f = row.map g := by
  have hr : row.map g = (placed 0 row).map (g ∘ Prod.snd) := by rw [← List.map_map, map_snd_placed]
  rw [GridPen.penRow, List.map_map, hr]
  exact List.map_congr_left fun q _ => h q

theorem rowText_penRow {N : Nat} (hfit : Fits N row) (hN : N ≤ Count.ceiling) :
    GridPen.rowText N (GridPen.penRow row) = bracketed N ++ '\x7b' ::
      (' ' :: (joinWith [',', ' '] (row.map (fragment (decide (width row < N)))) ++ [' ']) ++ ['\x7d']) := by
  have hw := hfit.width_le
  have hspans : ((GridPen.penRow row).map PenCell.span).foldl Count.add 0 = width row := by
    rw [map_penRow (g := Cell.columnSpan) fun _ => rfl, Count.foldl_add (by rw [← width]; omega), Nat.zero_add]
    rfl
  rw [GridPen.rowText, hspans, map_penRow (g := fragment (decide (width row < N))) fun _ => rfl]
  simp

/-- **A row of a picture is what its text reads as.** -/
theorem exists_read?_rowText {N : Nat} (h0 : 0 < N) (hN : N ≤ Count.ceiling) (hfit : Fits N row)
    (hl : RowLegible (decide (width row < N)) row) :
    ∃ inside, GridRow.read? (GridPen.rowText N (GridPen.penRow row)) = some (N, inside) ∧
      RowCell.resolve (RowCell.readRow inside) N = row := by
  have hw := hfit.width_le
  refine ⟨_, by rw [rowText_penRow hfit hN, GridRow.read?_bracketed h0 hN], ?_⟩
  rw [RowCell.readRow, splitTop_fragments hfit.nonempty hl, List.map_map, List.map_map]
  have hreads : List.Forall₂ (Reads (decide (width row < N))) row
      (row.map ((RowCell.read ∘ trim) ∘ fragment (decide (width row < N)))) := by
    refine List.forall₂_map_right_iff.2 (List.forall₂_same.2 fun c hc => ?_)
    have hspan := columnSpan_le_width hc
    obtain ⟨last, hb⟩ := exists_readsBack hl c hc
    exact reads_fragment hb (hfit.span_pos c hc) (by omega)
  refine resolve_of_reads hreads hfit hN fun he => ?_
  have := of_decide_eq_false he
  omega

theorem trimmed_rowText (N : Nat) (row : List PenCell) : Text.Trimmed (GridPen.rowText N row) := by
  refine ⟨fun c hc => ?_, fun c hc => ?_⟩
  · cases hc
    decide
  · rw [GridPen.rowText, List.getLast?_append] at hc
    cases hc
    decide

end Picture

end Gridmark
