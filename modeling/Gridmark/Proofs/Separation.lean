import Gridmark.Proofs.ReadBack
/-!
# Separation — which prose goes into rows

Any choice of prose that fits may go into rows of one column.  If some choice makes a text that is read as the document,
then each block is read as a run of its own, under this choice and under the choice of the writer alike, and the two
differ only in which neighbours join.  The writer keeps bare prose apart from bare prose as far as any choice does, but it
does not look at rows of one column: it may put two of them side by side, prose in either or a grid (`isColumn`).  Its text
is read as the document just when it does not (`Document.read_write_iff_of_separates`).
-/
namespace Gridmark

open Text (trim joinWith)

namespace Snapshot

variable {o : ReadOptions}

/-- Prose that a row of one column can hold. -/
def fits (l : Layout) : Bool := l.prose?.any fitsInCell

/-- Prose that no row can hold. -/
def stays (l : Layout) : Bool := l.prose?.any fun body => !fitsInCell body

theorem fits_iff {l : Layout} : fits l = true ↔ ∃ body, l.prose? = some body ∧ fitsInCell body = true := by
  unfold fits
  cases l.prose? <;> simp

/-! ## The run of a block -/

/-- The lines of the block make one run, which is the block; only prose that fits goes into a row. -/
structure Reads (o : ReadOptions) (p : Bool × Layout) (r : Run) : Prop where
  lines : Run.ofLines (chunk o p) = [r]
  layout : r.toLayout = p.2
  fits : p.1 = true → ∃ body, p.2 = .single (.prose body) ∧ fitsInCell body = true

theorem reads_of_fits {body : Text} (h : fitsInCell body = true) (wrap : Bool) :
    ∃ r, Reads o (wrap, .single (.prose body)) r := by
  cases wrap with
  | true =>
    obtain ⟨r, hr⟩ := exists_writes_of_fits h o
    exact ⟨r, hr.lines, hr.layout, fun _ => ⟨body, rfl, h⟩⟩
  | false =>
    have halone := alone_of_fits h o
    rw [Document.read_eq, ← chunk_false] at halone
    obtain ⟨r, hr, hl⟩ := List.map_eq_singleton_iff.1 halone
    exact ⟨r, hr, hl, fun hf => by cases hf⟩

/-- How a block is written tells which run it is: prose where it is bare, rows of one column, or a run that no flag changes
anything about. -/
theorem Reads.cases {p : Bool × Layout} {r : Run} (h : Reads o p r) :
    (isBare p = true ∧ isColumn p = false ∧ ∃ ts, r = .prose ts) ∨ (isColumn p = true ∧ ∃ rows, r = .grid 1 rows) ∨
      (p.2.prose? = none ∧ isColumn p = false ∧ (∀ ts, r ≠ .prose ts) ∧ ∀ rows, r ≠ .grid 1 rows) := by
  obtain ⟨wrap, l⟩ := p
  obtain ⟨hlines, rfl, hfits⟩ := h
  cases wrap with
  | true =>
    obtain ⟨body, hl, hf⟩ := hfits rfl
    dsimp only at hl
    obtain ⟨s, hs⟩ := exists_writes_of_fits hf o
    rw [hl, hs.lines] at hlines
    obtain rfl : s = r := by simpa using hlines
    exact .inr (.inl ⟨rfl, (hs.grid_iff 1).2 (.inl ⟨rfl, rfl⟩)⟩)
  | false =>
    rw [chunk_false] at hlines
    have hsort := Run.toLayout_sort hlines rfl
    cases r with
    | prose ts => exact .inl ⟨rfl, rfl, ts, rfl⟩
    | grid N rows =>
      obtain ⟨hs, hN⟩ := hsort
      by_cases h1 : N = 1
      · subst h1
        exact .inr (.inl ⟨by simp [isColumn, hs, hN], rows, rfl⟩)
      · refine .inr (.inr ⟨by simp [Layout.prose?, hs], by simp [isColumn, hN, h1], by simp, by simp [h1]⟩)
    | group kind items => exact .inr (.inr ⟨rfl, rfl, by simp, by simp⟩)
    | lone e =>
      obtain ⟨-, hg⟩ := Run.gathers_of_ofLines hlines
      obtain ⟨line, -, -, -, hread⟩ := SourceLine.exists_of_mem_ofText (hg ▸ List.mem_singleton_self _)
      exact .inr (.inr ⟨ElementLine.prose?_of_read? (SourceLine.read_eq_lone hread).1, rfl, by simp, by simp⟩)

theorem Reads.joins_cases {p q : Bool × Layout} {r s : Run} (hp : Reads o p r) (hq : Reads o q s)
    (hj : r.joins s = true) : (isBare p = true ∧ isBare q = true) ∨ (isColumn p = true ∧ isColumn q = true) ∨
      (p.2.prose? = none ∧ q.2.prose? = none) := by
  -- runs of different sorts do not join, which leaves the three cases in which both are of one sort
  rcases hp.cases with ⟨hb, -, ts, rfl⟩ | ⟨hc, rows, rfl⟩ | ⟨hn, -, hts, hrows⟩
  · rcases hq.cases with ⟨hb', -⟩ | ⟨-, rows', rfl⟩ | ⟨-, -, hts', -⟩
    · exact .inl ⟨hb, hb'⟩
    · cases hj
    · cases s <;> simp_all [Run.joins]
  · rcases hq.cases with ⟨-, -, ts', rfl⟩ | ⟨hc', -⟩ | ⟨-, -, -, hrows'⟩
    · cases hj
    · exact .inr (.inl ⟨hc, hc'⟩)
    · cases s <;> simp_all [Run.joins]
  · rcases hq.cases with ⟨-, -, ts', rfl⟩ | ⟨-, rows', rfl⟩ | ⟨hn', -⟩
    · cases r <;> simp_all [Run.joins]
    · cases r <;> simp_all [Run.joins]
    · exact .inr (.inr ⟨hn, hn'⟩)

theorem Reads.joins_of_isColumn {p q : Bool × Layout} {r s : Run} (hp : Reads o p r) (hq : Reads o q s)
    (hc : isColumn p = true) (hc' : isColumn q = true) : r.joins s = true := by
  rcases hp.cases with ⟨-, hn, -⟩ | ⟨-, rows, rfl⟩ | ⟨-, hn, -⟩
  · exact absurd hc (by simp [hn])
  · rcases hq.cases with ⟨-, hn', -⟩ | ⟨-, rows', rfl⟩ | ⟨-, hn', -⟩
    · exact absurd hc' (by simp [hn'])
    · rfl
    · exact absurd hc' (by simp [hn'])
  · exact absurd hc (by simp [hn])

theorem Reads.flag_eq_false {p : Bool × Layout} {r : Run} (h : Reads o p r)
    (hn : ∀ body, p.2.prose? = some body → fitsInCell body = false) : p.1 = false := by
  by_contra hp
  obtain ⟨body, hl, hf⟩ := h.fits (by simpa using hp)
  rw [hn body (by rw [hl]; rfl)] at hf
  cases hf

/-! ## The choice of the writer -/

theorem exists_wrapFlags_cons (afterBare : Bool) (b : Layout) (bs : List Layout) :
    ∃ flag after, wrapFlags afterBare (b :: bs) = flag :: wrapFlags after bs := by
  rw [wrapFlags]
  split <;> exact ⟨_, _, rfl⟩

/-- Neighbouring prose that the writer leaves bare is prose that no row can hold. -/
theorem fitsInCell_of_wrapFlags : ∀ {bs : List Layout} {afterBare : Bool} {i : Nat} {b c : Layout} {s t : Text},
    (wrapFlags afterBare bs)[i]? = some false → (wrapFlags afterBare bs)[i + 1]? = some false → bs[i]? = some b →
    bs[i + 1]? = some c → b.prose? = some s → c.prose? = some t → fitsInCell s = false ∧ fitsInCell t = false
  | b :: bs, afterBare, 0, _, c, s, t, hi, hj, hb, hc, hs, ht => by
    obtain rfl := Option.some.inj hb
    obtain ⟨bs, rfl⟩ : ∃ cs, bs = c :: cs := by
      cases bs with
      | nil => cases hc
      | cons d cs => exact ⟨cs, by rw [Option.some.inj hc]⟩
    simp only [wrapFlags, hs, ht, startsBare, List.getElem?_cons_zero, List.getElem?_cons_succ, Option.some.injEq] at hi hj
    cases hfs : fitsInCell s <;> cases hft : fitsInCell t <;> simp_all
  | b :: bs, afterBare, i + 1, _, _, _, _, hi, hj, hb, hc, hs, ht => by
    obtain ⟨flag, after, he⟩ := exists_wrapFlags_cons afterBare b bs
    rw [he] at hi hj
    exact fitsInCell_of_wrapFlags hi hj hb hc hs ht

theorem wrapFlags_of_flagged {b : Layout} {bs : List Layout} {afterBare : Bool}
    (h : (wrapFlags afterBare (b :: bs))[0]? = some true) :
    wrapFlags afterBare (b :: bs) = true :: wrapFlags false bs ∧ (afterBare = true ∨ startsBare bs = true) := by
  rw [wrapFlags] at h ⊢
  split at h
  · simp only [List.getElem?_cons_zero, Option.some.injEq] at h
    dsimp only
    rw [h]
    exact ⟨rfl, by simpa using (Bool.and_eq_true_iff.1 h).1⟩
  · cases h

/-- Two neighbours go into rows only above prose that no row can hold. -/
theorem stays_of_wrapFlags : ∀ {bs : List Layout} {afterBare : Bool} {i : Nat},
    (wrapFlags afterBare bs)[i]? = some true → (wrapFlags afterBare bs)[i + 1]? = some true →
    ∃ e, bs[i + 2]? = some e ∧ stays e = true
  | [b], afterBare, 0, _, hj => by
    obtain ⟨flag, after, he⟩ := exists_wrapFlags_cons afterBare b []
    rw [he] at hj
    cases hj
  | b :: c :: bs, afterBare, 0, hi, hj => by
    rw [(wrapFlags_of_flagged hi).1, List.getElem?_cons_succ] at hj
    have hstart : startsBare bs = true := by simpa using (wrapFlags_of_flagged hj).2
    cases bs with
    | nil => cases hstart
    | cons e bs =>
      refine ⟨e, rfl, ?_⟩
      unfold startsBare at hstart
      unfold stays
      cases he : e.prose? <;> simp_all
  | b :: bs, afterBare, i + 1, hi, hj => by
    obtain ⟨flag, after, he⟩ := exists_wrapFlags_cons afterBare b bs
    rw [he, List.getElem?_cons_succ] at hi hj
    show ∃ e, bs[i + 2]? = some e ∧ stays e = true
    exact stays_of_wrapFlags hi hj

theorem isChain_zip_iff {flags : List Bool} {bs : List Layout} {R : Bool × Layout → Bool × Layout → Prop} :
    (flags.zip bs).IsChain R ↔ ∀ i v w b c, flags[i]? = some v → flags[i + 1]? = some w → bs[i]? = some b →
      bs[i + 1]? = some c → R (v, b) (w, c) := by
  rw [List.isChain_iff_getElem]
  constructor
  · intro h i v w b c hv hw hb hc
    have hi : (flags.zip bs)[i]? = some (v, b) := List.getElem?_zip_eq_some.2 ⟨hv, hb⟩
    have hj : (flags.zip bs)[i + 1]? = some (w, c) := List.getElem?_zip_eq_some.2 ⟨hw, hc⟩
    obtain ⟨hlt, hj⟩ := List.getElem?_eq_some_iff.1 hj
    obtain ⟨_, hi⟩ := List.getElem?_eq_some_iff.1 hi
    rw [← hi, ← hj]
    exact h i hlt
  · intro h i hlt
    obtain ⟨hv, hb⟩ := List.getElem?_zip_eq_some.1 (List.getElem?_eq_getElem (Nat.lt_of_succ_lt hlt))
    obtain ⟨hw, hc⟩ := List.getElem?_zip_eq_some.1 (List.getElem?_eq_getElem hlt)
    exact h i _ _ _ _ hv hw hb hc

/-- A choice of prose that fits, with which the document is read from its text. -/
structure Separates (o : ReadOptions) (trailing : Bool) (flags : List Bool) (d : Document) : Prop where
  length : flags.length = d.blocks.length
  fits : ∀ p ∈ flags.zip d.blocks, p.1 = true → Snapshot.fits p.2 = true
  read : Document.read o (finish trailing (linesWith flags d.blocks)) = d

namespace Separates

variable {trailing : Bool} {flags : List Bool} {d : Document}

theorem eq_prose (h : Separates o trailing flags d) {b : Layout} (hb : b ∈ d.blocks) (hf : Snapshot.fits b = true) :
    ∃ body, b = .single (.prose body) ∧ fitsInCell body = true := by
  obtain ⟨body, hp, hbody⟩ := fits_iff.1 hf
  rw [← h.read, Document.read_eq] at hb
  obtain ⟨r, hr, rfl⟩ := List.mem_map.1 hb
  exact ⟨body, (Run.wellFormed_toLayout hr).eq_prose hp, hbody⟩

theorem exists_reads (h : Separates o trailing flags d) : ∀ p ∈ flags.zip d.blocks, ∃ r, Reads o p r := by
  have hmem : ∀ p ∈ flags.zip d.blocks, p.2 ∈ d.blocks := fun p hp => (List.of_mem_zip hp).2
  have hshort : ∀ p ∈ flags.zip d.blocks, (Run.ofLines (chunk o p)).length ≤ 1 := by
    rintro ⟨wrap, b⟩ hp
    have hb : b ∈ d.blocks := hmem _ hp
    rw [← h.read, Document.read_eq] at hb
    obtain ⟨r, hr, rfl⟩ := List.mem_map.1 hb
    exact length_ofLines_chunk_le hr fun hw => fits_iff.1 (h.fits _ hp hw)
  intro p hp
  obtain ⟨r, hr, hl⟩ := exists_run_of_read_linesWith h.length hshort h.read p hp
  exact ⟨r, hr, hl, fun hf => h.eq_prose (hmem p hp) (h.fits p hp hf)⟩

/-- Where some choice separates the blocks, each is read as a run of its own under any other choice as well. -/
theorem exists_reads_of_fits (h : Separates o trailing flags d) {p : Bool × Layout} (hb : p.2 ∈ d.blocks)
    (hf : p.1 = true → Snapshot.fits p.2 = true) : ∃ r, Reads o p r := by
  obtain ⟨wrap, b⟩ := p
  by_cases hfit : Snapshot.fits b = true
  · obtain ⟨body, rfl, hbody⟩ := h.eq_prose hb hfit
    exact reads_of_fits hbody wrap
  · have hsnd : (flags.zip d.blocks).map Prod.snd = d.blocks := List.map_snd_zip (Nat.le_of_eq h.length.symm)
    obtain ⟨⟨v, c⟩, hq, hc⟩ := List.mem_map.1 (hsnd.symm ▸ hb)
    obtain rfl : c = b := hc
    obtain ⟨r, hr⟩ := h.exists_reads _ hq
    have hwrap : wrap = false := by simpa using fun hw => hfit (hf hw)
    have hv : v = false := by simpa using fun hv => hfit (h.fits _ hq hv)
    subst hwrap hv
    exact ⟨r, hr⟩

end Separates

theorem Reads.unique {p : Bool × Layout} {r s : Run} (hr : Reads o p r) (hs : Reads o p s) : r = s := by
  simpa using hr.lines.symm.trans hs.lines

/-- Of two choices that leave neighbouring prose bare only where no row can hold it, the second makes neighbours join that do
not under the first just where it makes both of them rows of one column. -/
theorem not_joins_iff_of_not_joins {b c : Layout} {v w v' w' : Bool} {r s r' s' : Run} (hr : Reads o (v, b) r)
    (hs : Reads o (w, c) s) (hr' : Reads o (v', b) r') (hs' : Reads o (w', c) s') (hj : r.joins s = false)
    (hbare : v' = false → w' = false → ∀ t u, b.prose? = some t → c.prose? = some u →
      fitsInCell t = false ∧ fitsInCell u = false) :
    r'.joins s' = false ↔ ¬(isColumn (v', b) = true ∧ isColumn (w', c) = true) := by
  have hsame : v = false → w = false → v' = false → w' = false → r'.joins s' = false := by
    rintro rfl rfl rfl rfl
    rw [hr'.unique hr, hs'.unique hs, hj]
  constructor
  · rintro hj' ⟨hc, hc'⟩
    rw [hr'.joins_of_isColumn hs' hc hc'] at hj'
    cases hj'
  · intro hc
    by_contra hj'
    rcases hr'.joins_cases hs' (by simpa using hj') with ⟨hb, hb'⟩ | hcc | ⟨hn, hn'⟩
    · simp only [isBare, Bool.and_eq_true, Bool.not_eq_true', Option.isSome_iff_exists] at hb hb'
      obtain ⟨rfl, t, ht⟩ := hb
      obtain ⟨rfl, u, hu⟩ := hb'
      obtain ⟨hft, hfu⟩ := hbare rfl rfl t u ht hu
      refine hj' (hsame (hr.flag_eq_false fun body hp => ?_) (hs.flag_eq_false fun body hp => ?_) rfl rfl)
      · rw [← Option.some.inj (ht.symm.trans hp), hft]
      · rw [← Option.some.inj (hu.symm.trans hp), hfu]
    · exact hc hcc
    · have hnone : ∀ {l : Layout}, l.prose? = none → ∀ body, l.prose? = some body → fitsInCell body = false := by
        simp +contextual
      exact hj' (hsame (hr.flag_eq_false (hnone hn)) (hs.flag_eq_false (hnone hn')) (hr'.flag_eq_false (hnone hn))
        (hs'.flag_eq_false (hnone hn')))

/-- Neighbours that are both rows of one column. -/
def Crowded (p q : Bool × Layout) : Prop := isColumn p = true ∧ isColumn q = true

instance : DecidableRel Crowded := fun _ _ => inferInstanceAs (Decidable (_ ∧ _))

/-- Prose that fits stands beside no grid of one column, and no two of it stand above prose that stays. -/
structure Roomy (bs : List Layout) : Prop where
  grid : ∀ i b c, bs[i]? = some b → bs[i + 1]? = some c →
    ¬(fits b = true ∧ isColumn (false, c) = true) ∧ ¬(isColumn (false, b) = true ∧ fits c = true)
  prose : ∀ i b c e, bs[i]? = some b → bs[i + 1]? = some c → bs[i + 2]? = some e →
    ¬(fits b = true ∧ fits c = true ∧ stays e = true)

namespace Separates

variable {trailing : Bool} {flags : List Bool} {d : Document}

theorem exists_not_joins (h : Separates o trailing flags d) {i : Nat} {b c : Layout} (hb : d.blocks[i]? = some b)
    (hc : d.blocks[i + 1]? = some c) : ∃ v w r s, Reads o (v, b) r ∧ Reads o (w, c) s ∧ r.joins s = false := by
  choose! f hf using h.exists_reads
  have hread := (read_linesWith_iff_joins h.length (fun p hp => ⟨(hf p hp).lines, (hf p hp).layout⟩) trailing).1 h.read
  have hlt : i + 1 < flags.length := h.length ▸ (List.getElem?_eq_some_iff.1 hc).1
  have hv := List.getElem?_eq_getElem (Nat.lt_of_succ_lt hlt)
  have hw := List.getElem?_eq_getElem hlt
  exact ⟨_, _, _, _, hf _ (List.mem_of_getElem? (List.getElem?_zip_eq_some.2 ⟨hv, hb⟩)),
    hf _ (List.mem_of_getElem? (List.getElem?_zip_eq_some.2 ⟨hw, hc⟩)), isChain_zip_iff.1 hread i _ _ b c hv hw hb hc⟩

/-- **The text of the writer is read as the document just when it puts no rows of one column side by side.** -/
theorem read_write_iff (h : Separates o trailing flags d) : Document.read o (d.write trailing) = d ↔
    ((wrapFlags false d.blocks).zip d.blocks).IsChain fun p q => ¬Crowded p q := by
  have hown : ∀ p ∈ (wrapFlags false d.blocks).zip d.blocks, ∃ r, Reads o p r := fun p hp =>
    h.exists_reads_of_fits (List.of_mem_zip hp).2 fun hf => fits_iff.2 (fits_of_mem_zip hp hf)
  choose! g hg using hown
  rw [Document.write, read_linesWith_iff_joins (length_wrapFlags _ _) (fun p hp => ⟨(hg p hp).lines, (hg p hp).layout⟩) trailing,
    isChain_zip_iff, isChain_zip_iff]
  refine forall_congr' fun i => forall_congr' fun v' => forall_congr' fun w' => forall_congr' fun b =>
    forall_congr' fun c => forall₂_congr fun hv hw => forall₂_congr fun hb hc => ?_
  obtain ⟨v, w, r, s, hr, hs, hj⟩ := h.exists_not_joins hb hc
  refine not_joins_iff_of_not_joins hr hs (hg _ (List.mem_of_getElem? (List.getElem?_zip_eq_some.2 ⟨hv, hb⟩)))
    (hg _ (List.mem_of_getElem? (List.getElem?_zip_eq_some.2 ⟨hw, hc⟩))) hj ?_
  rintro rfl rfl t u ht hu
  exact fitsInCell_of_wrapFlags hv hw hb hc ht hu

theorem not_crowded_of_roomy (h : Separates o trailing flags d) (hroom : Roomy d.blocks) :
    ((wrapFlags false d.blocks).zip d.blocks).IsChain fun p q => ¬Crowded p q := by
  rw [isChain_zip_iff]
  rintro i v w b c hv hw hb hc ⟨hcol, hcol'⟩
  have hfits : ∀ {j : Nat} {l : Layout}, (wrapFlags false d.blocks)[j]? = some true → d.blocks[j]? = some l →
      Snapshot.fits l = true := by
    intro j l hj hl
    have hm : (true, l) ∈ (wrapFlags false d.blocks).zip d.blocks :=
      List.mem_of_getElem? (List.getElem?_zip_eq_some.2 ⟨hj, hl⟩)
    exact fits_iff.2 (fits_of_mem_zip hm rfl)
  cases v with
  | true =>
    cases w with
    | true =>
      obtain ⟨e, he, hstays⟩ := stays_of_wrapFlags hv hw
      exact hroom.prose i b c e hb hc he ⟨hfits hv hb, hfits hw hc, hstays⟩
    | false => exact (hroom.grid i b c hb hc).1 ⟨hfits hv hb, hcol'⟩
  | false =>
    cases w with
    | true => exact (hroom.grid i b c hb hc).2 ⟨hcol, hfits hw hc⟩
    | false =>
      obtain ⟨v, w, r, s, hr, hs, hj⟩ := h.exists_not_joins hb hc
      have hany : ∀ {l : Layout} (v : Bool), isColumn (false, l) = true → isColumn (v, l) = true := by
        intro l v hl
        cases v with
        | true => rfl
        | false => exact hl
      rw [hr.joins_of_isColumn hs (hany v hcol) (hany w hcol')] at hj
      cases hj

end Separates

end Snapshot

/-- **Where any choice of prose for the rows separates the blocks, the choice of the writer does so just when it puts no rows
of one column side by side**, and so it does in every document with room for its rows. -/
theorem Document.read_write_iff_of_separates (o : ReadOptions) (trailing : Bool) (d : Document)
    (h : ∃ flags, Snapshot.Separates o trailing flags d) :
    (Document.read o (d.write trailing) = d ↔
      ((Snapshot.wrapFlags false d.blocks).zip d.blocks).IsChain fun p q => ¬Snapshot.Crowded p q) ∧
      (Snapshot.Roomy d.blocks → Document.read o (d.write trailing) = d) := by
  obtain ⟨flags, h⟩ := h
  exact ⟨h.read_write_iff, fun hroom => h.read_write_iff.2 (h.not_crowded_of_roomy hroom)⟩

theorem Snapshot.distinct_prose_iff {v w : Bool} {s t : Text} :
    Distinct (v, .single (.prose s)) (w, .single (.prose t)) ↔ v ≠ w := by
  have hbare : ∀ v body, isBare (v, .single (.prose body)) = !v := fun v _ => Bool.and_true (!v)
  have hcolumn : ∀ v body, isColumn (v, .single (.prose body)) = v := fun v _ => Bool.or_false v
  rw [Distinct, hbare, hbare, hcolumn, hcolumn]
  cases v <;> cases w <;> simp

/-- Of prose that is one line each, every other one may go into a row. -/
theorem Snapshot.separates_prose {flags : List Bool} (bodies : List Text) (hlen : flags.length = bodies.length)
    (hbare : ∀ body ∈ bodies, body ≠ [] ∧ '\n' ∉ body ∧ trim body = body ∧ GridRow.read? body = none ∧
      ElementLine.read? body = none)
    (hfits : ∀ p ∈ flags.zip bodies, p.1 = true → fitsInCell p.2 = true) (halternate : flags.IsChain (· ≠ ·))
    (o : ReadOptions) (trailing : Bool) : Separates o trailing flags ⟨bodies.map fun body => .single (.prose body)⟩ := by
  have hzip : ∀ {p}, p ∈ flags.zip (bodies.map fun body => Layout.single (.prose body)) →
      ∃ flag body, (flag, body) ∈ flags.zip bodies ∧ p = (flag, .single (.prose body)) := by
    intro p hp
    rw [List.zip_map_right] at hp
    obtain ⟨q, hq, rfl⟩ := List.mem_map.1 hp
    exact ⟨q.1, q.2, hq, rfl⟩
  have hlength : flags.length = (bodies.map fun body => Layout.single (.prose body)).length := by
    rw [hlen, List.length_map]
  refine ⟨hlength, fun p hp hf => ?_, (read_linesWith_iff hlength (fun p hp => ?_) ?_ trailing).2 ?_⟩
  · obtain ⟨flag, body, hmem, rfl⟩ := hzip hp
    exact fits_iff.2 ⟨body, rfl, hfits _ hmem hf⟩
  · obtain ⟨flag, body, hmem, rfl⟩ := hzip hp
    cases flag with
    | true => exact exists_writes_of_fits (hfits _ hmem rfl) o
    | false =>
      obtain ⟨hne, hn, ht, hg, he⟩ := hbare body (List.of_mem_zip hmem).2
      exact ⟨_, writes_bare rfl hne hn ht hg he⟩
  · refine (List.isChain_map _).2 (List.isChain_iff_getElem.2 fun i hi h => ?_)
    cases h.1
  · rw [isChain_zip_iff]
    rintro i v w b c hv hw hb hc
    rw [List.getElem?_map] at hb hc
    obtain ⟨s, -, rfl⟩ := Option.map_eq_some_iff.1 hb
    obtain ⟨t, -, rfl⟩ := Option.map_eq_some_iff.1 hc
    obtain ⟨hlt, rfl⟩ := List.getElem?_eq_some_iff.1 hw
    obtain ⟨-, rfl⟩ := List.getElem?_eq_some_iff.1 hv
    exact distinct_prose_iff.2 (List.isChain_iff_getElem.1 halternate i hlt)

/-- Four paragraphs, the last of which no row can hold. -/
def Document.paragraphs : Document :=
  ⟨[.single (.prose ['a']), .single (.prose ['b']), .single (.prose ['c']), .single (.prose ['x', ',', 'y'])]⟩

theorem Document.separates_paragraphs : Snapshot.Separates default true [true, false, true, false] paragraphs :=
  Snapshot.separates_prose [['a'], ['b'], ['c'], ['x', ',', 'y']] rfl (by decide) (by decide) (by decide) default true

def Document.couplet : Document := ⟨[.single (.prose ['a']), .single (.prose ['b'])]⟩

theorem Document.separates_couplet : Snapshot.Separates default true [true, false] couplet :=
  Snapshot.separates_prose [['a'], ['b']] rfl (by decide) (by decide) (by decide) default true

theorem Document.roomy_couplet : Snapshot.Roomy couplet.blocks := by
  have hcolumn : ∀ b ∈ couplet.blocks, Snapshot.isColumn (false, b) = false := by decide
  refine ⟨fun i b c hb hc => ?_, fun i b c e _ _ he => ?_⟩
  · simp [hcolumn b (List.mem_of_getElem? hb), hcolumn c (List.mem_of_getElem? hc)]
  · cases he

theorem Document.read_write_paragraphs_couplet : Document.read default (paragraphs.write true) ≠ paragraphs ∧
    Document.read default (couplet.write true) = couplet := by
  constructor
  · intro h
    have hiff := (read_write_iff_of_separates default true paragraphs ⟨_, separates_paragraphs⟩).1
    exact absurd (hiff.1 h) (by decide)
  · exact (read_write_iff_of_separates default true couplet ⟨_, separates_couplet⟩).2 roomy_couplet

end Gridmark
