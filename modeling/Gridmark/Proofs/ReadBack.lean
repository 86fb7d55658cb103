import Gridmark.Proofs.Alone
/-!
# ReadBack — a document that was read comes back from its text

The lines of a block make no more than one run, so a document of a source comes back only if each block makes one, which
is the block, and no two of these join.  Which run a block makes depends on its neighbours, for prose beside prose goes
into a row.  So two things can go wrong: a block does not come back on its own, or two neighbours are read as one, both
being bare prose or both rows of one column (`Snapshot.Distinct`).  The document comes back just when neither does
(`Document.read_write_read_iff`).
-/
namespace Gridmark

open Picture

namespace Snapshot

variable {o : ReadOptions}

theorem length_ofLines_chunk_false_le {source : Text} {r : Run} (hr : r ∈ Run.ofLines (SourceLine.ofText o source)) :
    (Run.ofLines (chunk o (false, r.toLayout))).length ≤ 1 := by
  cases r with
  | prose ts =>
    rw [(writes_prose hr).lines]
    exact Nat.le_refl 1
  | lone e =>
    obtain ⟨t, hn, hfrom, -⟩ := Run.of_mem_ofLines_lone hr
    rw [chunk_false, Run.toLayout, Layout.write_single, (hfrom.ofText_write_eq hn o).1]
    exact Run.length_ofLines_le _
  | group kind items =>
    obtain ⟨us, hne, ⟨es, rfl, rfl, hkind⟩, hus⟩ := Run.gathers_of_mem_ofLines hr
    obtain ⟨e, he⟩ : ∃ e, e ∈ es := List.exists_mem_of_ne_nil es (by simpa using hne)
    obtain ⟨line, -, -, -, hread⟩ := SourceLine.exists_of_mem_ofText (hus _ (List.mem_map_of_mem he))
    obtain ⟨hread, ho⟩ := SourceLine.read_eq_item hread
    rw [← hkind e he] at hr ⊢
    have hitems : es.map Element.toItem ≠ [] := by simpa using hne
    obtain ⟨r, hlines⟩ := ElementLine.exists_ofLines_write_group (ElementLine.readFrom_of_read? hread).kind ho hitems
    rw [chunk_false, Run.toLayout, Layout.write_single, hlines]
    exact Nat.le_refl 1
  | grid N rows =>
    obtain ⟨-, h0, hN, hn⟩ := Run.of_mem_ofLines_grid hr
    have hcol : (Layout.ofRows N rows).columnCount = N := Layout.columnCount_ofRows N rows
    rw [Run.toLayout]
    cases hs : (Layout.ofRows N rows).single? with
    | some e =>
      rw [(Layout.wellFormed_ofRows (o := o) h0 hN).eq_single hs, chunk_false, Layout.write_single]
      rcases Layout.element_of_ofRows hn hs with ⟨body, rfl, hnb, -⟩ | ⟨t, hnt, hfrom, -⟩
      · exact (Run.length_ofLines_le _).trans (SourceLine.length_ofText_le hnb)
      · rw [(hfrom.ofText_write_eq hnt o).1]
        exact Run.length_ofLines_le _
    | none =>
      obtain ⟨insides, hlines⟩ := GridPen.exists_insides (l := Layout.ofRows N rows) o (by rwa [hcol])
      rw [chunk, blockLines, hs, hlines]
      by_cases hne : insides = []
      · simp [hne, Run.ofLines]
      · simp [Run.ofLines_gridRows _ hne]

/-- **The lines of a block that was read make no more than one run**, also where it goes into a row. -/
theorem length_ofLines_chunk_le {source : Text} {r : Run} (hr : r ∈ Run.ofLines (SourceLine.ofText o source)) {wrap : Bool}
    (hwrap : wrap = true → ∃ body, r.toLayout.prose? = some body ∧ fitsInCell body = true) :
    (Run.ofLines (chunk o (wrap, r.toLayout))).length ≤ 1 := by
  cases wrap with
  | true =>
    obtain ⟨body, hb, hf⟩ := hwrap rfl
    obtain ⟨s, hs⟩ := exists_writes_of_fits hf o
    rw [(Run.wellFormed_toLayout hr).eq_prose hb, hs.lines]
    exact Nat.le_refl 1
  | false => exact length_ofLines_chunk_false_le hr

/-! ## Neighbours -/

/-- Whether a block is written as rows of one column. -/
def isColumn (p : Bool × Layout) : Bool := p.1 || (p.2.single?.isNone && p.2.columnCount == 1)

/-- Neighbours that are not read as one. -/
def Distinct (p q : Bool × Layout) : Prop :=
  ¬(isBare p = true ∧ isBare q = true) ∧ ¬(isColumn p = true ∧ isColumn q = true)

instance : DecidableRel Distinct := fun _ _ => inferInstanceAs (Decidable (_ ∧ _))

/-- Only prose that fits goes into a row. -/
theorem fits_of_mem_zip : ∀ {bs : List Layout} {afterBare : Bool} {p : Bool × Layout},
    p ∈ (wrapFlags afterBare bs).zip bs → p.1 = true → ∃ body, p.2.prose? = some body ∧ fitsInCell body = true
  | [], _, _, h, _ => by simp at h
  | b :: bs, afterBare, p, h, hp => by
    rw [wrapFlags] at h
    split at h
    · rename_i body hb
      rcases List.mem_cons.1 h with rfl | h
      · exact ⟨body, hb, (Bool.and_eq_true_iff.1 hp).2⟩
      · exact fits_of_mem_zip h hp
    · rcases List.mem_cons.1 h with rfl | h
      · cases hp
      · exact fits_of_mem_zip h hp

theorem chunks_eq_map_zip : ∀ {flags : List Bool} {bs : List Layout}, flags.length = bs.length →
    chunks o flags bs = (flags.zip bs).map (chunk o)
  | [], [], _ => rfl
  | f :: fs, b :: bs, h => by
    rw [chunks, List.tail_cons, chunks_eq_map_zip (Nat.succ.inj h)]
    rfl

/-- Grids of one width, one under the other. -/
def SameGrid (b c : Layout) : Prop := b.single? = none ∧ c.single? = none ∧ b.columnCount = c.columnCount

theorem not_sameGrid_of_not_joins {r s : Run} (h : r.joins s = false) : ¬SameGrid r.toLayout s.toLayout := by
  rintro ⟨hr, hs, hc⟩
  cases r <;> cases s <;> first | cases hr | cases hs | skip
  rename_i m rows n rows'
  have hc : (Layout.ofRows m rows).columnCount = (Layout.ofRows n rows').columnCount := hc
  rw [Layout.columnCount_ofRows, Layout.columnCount_ofRows] at hc
  simp [Run.joins, hc] at h

theorem Writes.column_iff {p : Bool × Layout} {r : Run} (h : Writes o p r) :
    (∃ rows, r = .grid 1 rows) ↔ isColumn p = true := by
  rw [h.grid_iff 1, isColumn]
  simp only [Bool.or_eq_true, Bool.and_eq_true, Option.isNone_iff_eq_none, beq_iff_eq, true_and]

/-- **Runs of neighbours join just where the neighbours are read as one.** -/
theorem Writes.not_joins_iff {p q : Bool × Layout} {r s : Run} (hp : Writes o p r) (hq : Writes o q s)
    (hn : ¬SameGrid p.2 q.2) : r.joins s = false ↔ Distinct p q := by
  constructor
  · refine fun hj => ⟨fun h => ?_, fun h => ?_⟩ <;> obtain ⟨h1, h2⟩ := h
    · obtain ⟨ts, rfl⟩ := hp.prose_iff.2 h1
      obtain ⟨us, rfl⟩ := hq.prose_iff.2 h2
      cases hj
    · obtain ⟨rows, rfl⟩ := hp.column_iff.2 h1
      obtain ⟨rows', rfl⟩ := hq.column_iff.2 h2
      cases hj
  · rintro ⟨hbare, hcolumn⟩
    cases r with
    | lone e => rfl
    | group kind items => exact absurd rfl (hp.not_group kind items)
    | prose ts =>
      cases s with
      | prose us => exact absurd ⟨hp.prose_iff.1 ⟨ts, rfl⟩, hq.prose_iff.1 ⟨us, rfl⟩⟩ hbare
      | _ => rfl
    | grid m rows =>
      cases s with
      | grid n rows' =>
        refine decide_eq_false fun hmn => ?_
        subst hmn
        by_cases hm : m = 1
        · subst hm
          exact hcolumn ⟨hp.column_iff.1 ⟨rows, rfl⟩, hq.column_iff.1 ⟨rows', rfl⟩⟩
        · obtain ⟨h1, h2⟩ := ((hp.grid_iff m).1 ⟨rows, rfl⟩).resolve_left fun h => hm h.1
          obtain ⟨h3, h4⟩ := ((hq.grid_iff m).1 ⟨rows', rfl⟩).resolve_left fun h => hm h.1
          exact hn ⟨h1, h3, h2.trans h4.symm⟩
      | _ => rfl

theorem isChain_iff_of {α : Type} {K A B : α → α → Prop} : ∀ {as : List α},
    (∀ a ∈ as, ∀ b ∈ as, K a b → (A a b ↔ B a b)) → as.IsChain K → (as.IsChain A ↔ as.IsChain B)
  | [], _, _ => by simp
  | [a], _, _ => by simp
  | a :: b :: as, h, hk => by
    obtain ⟨hab, hk⟩ := List.isChain_cons_cons.1 hk
    rw [List.isChain_cons_cons, List.isChain_cons_cons, h a (by simp) b (by simp) hab,
      isChain_iff_of (fun c hc d hd => h c (List.mem_cons_of_mem _ hc) d (List.mem_cons_of_mem _ hd)) hk]

/-- **Blocks whose lines make a run each, which is the block, come back together just when no two neighbours join.** -/
theorem read_linesWith_iff_joins {flags : List Bool} {bs : List Layout} {f : Bool × Layout → Run}
    (hlen : flags.length = bs.length) (hf : ∀ p ∈ flags.zip bs, Run.ofLines (chunk o p) = [f p] ∧ (f p).toLayout = p.2)
    (trailing : Bool) : Document.read o (finish trailing (linesWith flags bs)) = ⟨bs⟩ ↔
      (flags.zip bs).IsChain fun p q => (f p).joins (f q) = false := by
  have hsnd : (flags.zip bs).map Prod.snd = bs := List.map_snd_zip (Nat.le_of_eq hlen.symm)
  have hlines : List.Forall₂ (fun ls r => Run.ofLines ls = [r]) (chunks o flags bs) ((flags.zip bs).map f) := by
    rw [chunks_eq_map_zip hlen, List.forall₂_map_left_iff, List.forall₂_map_right_iff, List.forall₂_same]
    exact fun p hp => (hf p hp).1
  have hlayouts : ((flags.zip bs).map f).map Run.toLayout = bs := by
    rw [List.map_map]
    exact (List.map_congr_left fun p hp => (hf p hp).2).trans hsnd
  constructor
  · intro h
    refine (List.isChain_map f).1 (Run.isChain_of_length_ofLines hlines ?_)
    rw [Document.read_eq, ofText_finish_linesWith] at h
    have hcount := congrArg List.length ((Document.mk.inj h).trans hlayouts.symm)
    rwa [List.length_map, List.length_map] at hcount
  · exact fun h => read_linesWith hlines ((List.isChain_map f).2 h) hlayouts trailing

/-- Blocks that are written as runs of their own read back just when no two neighbours are read as one. -/
theorem read_linesWith_iff {flags : List Bool} {bs : List Layout} (hlen : flags.length = bs.length)
    (hwrites : ∀ p ∈ flags.zip bs, ∃ r, Writes o p r) (happart : bs.IsChain fun b c => ¬SameGrid b c) (trailing : Bool) :
    Document.read o (finish trailing (linesWith flags bs)) = ⟨bs⟩ ↔ (flags.zip bs).IsChain Distinct := by
  choose! f hf using hwrites
  have happart : (flags.zip bs).IsChain fun p q => ¬SameGrid p.2 q.2 := by
    rw [← List.map_snd_zip (Nat.le_of_eq hlen.symm), List.isChain_map] at happart
    exact happart
  rw [read_linesWith_iff_joins hlen (fun p hp => ⟨(hf p hp).lines, (hf p hp).layout⟩) trailing]
  exact isChain_iff_of (fun p hp q hq => (hf p hp).not_joins_iff (hf q hq)) happart

theorem exists_of_forall₂ {α β γ : Type} {R : α → β → Prop} {f : α → γ} {g : β → γ} : ∀ {as : List α} {bs : List β},
    List.Forall₂ R as bs → bs.map g = as.map f → ∀ a ∈ as, ∃ b, R a b ∧ g b = f a
  | _, _, .cons h hs, he, a, ha => by
    obtain ⟨h1, h2⟩ := List.cons.inj he
    rcases List.mem_cons.1 ha with rfl | ha
    · exact ⟨_, h, h1⟩
    · exact exists_of_forall₂ hs h2 a ha

/-- **Blocks that make no more than one run each come back together only if each makes the run that it is.** -/
theorem exists_run_of_read_linesWith {flags : List Bool} {bs : List Layout} (hlen : flags.length = bs.length)
    (hshort : ∀ p ∈ flags.zip bs, (Run.ofLines (chunk o p)).length ≤ 1) {trailing : Bool}
    (h : Document.read o (finish trailing (linesWith flags bs)) = ⟨bs⟩) :
    ∀ p ∈ flags.zip bs, ∃ r, Run.ofLines (chunk o p) = [r] ∧ r.toLayout = p.2 := by
  have hsnd : (flags.zip bs).map Prod.snd = bs := List.map_snd_zip (Nat.le_of_eq hlen.symm)
  rw [Document.read_eq, ofText_finish_linesWith, chunks_eq_map_zip hlen] at h
  have hb := Document.mk.inj h
  have hcount : (Run.ofLines ((flags.zip bs).map (chunk o)).flatten).length = ((flags.zip bs).map (chunk o)).length := by
    rw [← List.length_map Run.toLayout, hb, List.length_map, ← List.length_map Prod.snd, hsnd]
  obtain ⟨rs, hrs, hflat⟩ := Run.exists_forall₂_of_length_ofLines (fun ls hls => by
    obtain ⟨p, hp, rfl⟩ := List.mem_map.1 hls
    exact hshort p hp) hcount
  rw [hflat, ← hsnd] at hb
  exact exists_of_forall₂ (List.forall₂_map_left_iff.1 hrs) hb

/-- **Blocks of a source come back together just when each comes back on its own and no two neighbours are read as one.** -/
theorem read_write_iff (source : Text) {bs : List Layout} (hbs : ∀ b ∈ bs, ∃ r, Run.OfSource o source r ∧ r.toLayout = b)
    (happart : bs.IsChain fun b c => ¬SameGrid b c) (trailing : Bool) :
    Document.read o (Document.write trailing ⟨bs⟩) = ⟨bs⟩ ↔
      (∀ b ∈ bs, (Document.read o b.write).blocks = [b]) ∧ ((wrapFlags false bs).zip bs).IsChain Distinct := by
  have hlen := length_wrapFlags bs false
  have hsnd : ((wrapFlags false bs).zip bs).map Prod.snd = bs := List.map_snd_zip (Nat.le_of_eq hlen.symm)
  have hrun : ∀ p ∈ (wrapFlags false bs).zip bs, ∃ r, Run.OfSource o source r ∧ r.toLayout = p.2 ∧
      (p.1 = true → ∃ body, r.toLayout.prose? = some body ∧ fitsInCell body = true) := by
    intro p hp
    obtain ⟨r, hr, he⟩ := hbs p.2 (List.of_mem_zip hp).2
    exact ⟨r, hr, he, he ▸ fits_of_mem_zip hp⟩
  have hiff : (∀ b ∈ bs, (Document.read o b.write).blocks = [b]) →
      (Document.read o (Document.write trailing ⟨bs⟩) = ⟨bs⟩ ↔ ((wrapFlags false bs).zip bs).IsChain Distinct) := by
    refine fun halone => read_linesWith_iff hlen (fun p hp => ?_) happart trailing
    obtain ⟨r, hr, he, hfits⟩ := hrun p hp
    have hw := hr.exists_writes (by rw [he]; exact halone p.2 (List.of_mem_zip hp).2) hfits
    rwa [he] at hw
  have halone : Document.read o (Document.write trailing ⟨bs⟩) = ⟨bs⟩ →
      ∀ b ∈ bs, (Document.read o b.write).blocks = [b] := by
    intro h b hb
    have hshort : ∀ p ∈ (wrapFlags false bs).zip bs, (Run.ofLines (chunk o p)).length ≤ 1 := fun p hp => by
      obtain ⟨r, hr, he, hfits⟩ := hrun p hp
      have := length_ofLines_chunk_le hr.mem hfits
      rwa [he] at this
    obtain ⟨p, hp, rfl⟩ := List.mem_map.1 (hsnd.symm ▸ hb)
    obtain ⟨s, hs, hl⟩ := exists_run_of_read_linesWith hlen hshort h p hp
    obtain ⟨r, hr, he, hfits⟩ := hrun p hp
    have := hr.alone_of_run hfits (by rw [he]; exact hs) (hl.trans he.symm)
    rwa [he] at this
  exact ⟨fun h => ⟨halone h, (hiff (halone h)).1 h⟩, fun h => (hiff h.1).2 h.2⟩

end Snapshot

/-- **A document that was read comes back from its text just when each block comes back on its own and no two neighbours
are read as one.**  A block comes back on its own if what it holds can be told apart in its text, and a freestanding one
does so only then. -/
theorem Document.read_write_read_iff (o : ReadOptions) (trailing : Bool) (source : Text)
    (hgroup : ∀ e ∈ (Document.read o source).elements, o.isGroupable e.kind = false) :
    (Document.read o ((Document.read o source).write trailing) = Document.read o source ↔
      (∀ b ∈ (Document.read o source).blocks, (Document.read o b.write).blocks = [b]) ∧
        ((Snapshot.wrapFlags false (Document.read o source).blocks).zip (Document.read o source).blocks).IsChain
          Snapshot.Distinct) ∧
      ∀ r ∈ Run.ofLines (SourceLine.ofText o source),
        (r.Legible → (Document.read o r.toLayout.write).blocks = [r.toLayout]) ∧
          (r.toLayout.single? ≠ none → (Document.read o r.toLayout.write).blocks = [r.toLayout] → r.Legible) := by
  have hsource : ∀ r ∈ Run.ofLines (SourceLine.ofText o source), Run.OfSource o source r := fun r hr => by
    rw [Document.read_eq] at hgroup
    exact ⟨hr, fun e he => hgroup e (List.mem_flatMap.2 ⟨_, List.mem_map_of_mem hr, he⟩)⟩
  refine ⟨?_, fun r hr => ⟨(hsource r hr).alone_of_legible, fun hs halone => ?_⟩⟩
  · rw [Document.read_eq o source]
    have happart := (Run.isChain_ofLines (SourceLine.ofText o source)).imp fun _ _ => Snapshot.not_sameGrid_of_not_joins
    refine Snapshot.read_write_iff source (fun b hb => ?_) ((List.isChain_map Run.toLayout).2 happart) trailing
    obtain ⟨r, hr, he⟩ := List.mem_map.1 hb
    exact ⟨r, hsource r hr, he⟩
  · obtain ⟨e, he⟩ := Option.ne_none_iff_exists'.1 hs
    exact ((hsource r hr).legible_iff he).2 halone

/-- Prose, a grid with a cell of two rows and an element. -/
def Document.sheetSource : Text :=
  ['h', 'i', '\n', '[', '2', ']', ':', '\x7b', 'a', ',', '[', '1', ']', ':', 'b', '\x7d', '\n', '[', '2', ']', ':', '\x7b',
    'c', 'o', 'n', 't', 'i', 'n', 'u', 'e', ',', 'c', '\x7d', '\n', 'k', ':', '(', 'a', ':', '1', ')']

/-- Prose between a row with prose in it and a grid of one column. -/
def Document.columnSource : Text :=
  ['[', '1', ']', ':', '\x7b', 'c', '\x7d', '\n', 'h', 'i', '\n', '[', '1', ']', ':', '\x7b', 'a', '\x7d', '\n',
    '[', '1', ']', ':', '\x7b', 'b', '\x7d']

theorem Document.ofLines_sheetSource : Run.ofLines (SourceLine.ofText default Document.sheetSource) =
    [.prose [['h', 'i']], .grid 2 [['a', ',', '[', '1', ']', ':', 'b'], RowCell.continueWord ++ [',', 'c']],
      .lone ⟨['k'], Properties.ofList [(['a'], ['1'])], none, .plain⟩] := by decide

def Picture.sheetRows : List (List Cell) :=
  [[.ofKind (.content (.prose ['a'])) 1, .ofKind (.content (.prose ['b'])) 1],
    [.ofKind .continuation 1, .ofKind (.content (.prose ['c'])) 1]]

theorem Picture.isFull_sheetRows : IsFull 2 sheetRows := by
  refine ⟨by decide, ?_⟩
  rw [sheetRows, List.isChain_cons_cons, List.isChain_cons_cons]
  refine ⟨fun q hq hc => ?_, fun q hq hc => ?_, List.isChain_singleton _⟩
  · simp only [placed, List.mem_cons, List.not_mem_nil, or_false] at hq
    rcases hq with rfl | rfl <;> cases hc
  · simp only [placed, List.mem_cons, List.not_mem_nil, or_false] at hq
    rcases hq with rfl | rfl
    · exact ⟨_, List.mem_cons_self, rfl, by decide⟩
    · cases hc

theorem Picture.rowLegible_sheetRows : ∀ row ∈ sheetRows, RowLegible false row := by
  simp only [sheetRows, List.forall_mem_cons]
  refine ⟨rowLegible_of_readsBack ?_, rowLegible_of_readsBack ?_, by simp⟩ <;> simp only [List.forall_mem_cons]
  · exact ⟨(Cell.safe_letter rfl (by decide)).readsBack, (Cell.safe_letter rfl (by decide)).readsBack, by simp⟩
  · exact ⟨CellKind.readsBack_continuation, (Cell.safe_letter rfl (by decide)).readsBack, by simp⟩

theorem Run.legible_sheetSource : ∀ r ∈ Run.ofLines (SourceLine.ofText default Document.sheetSource), r.Legible := by
  rw [Document.ofLines_sheetSource]
  simp only [List.forall_mem_cons]
  refine ⟨trivial, ⟨isFull_sheetRows, .inl (by decide), rowLegible_sheetRows⟩, ?_, by simp⟩
  show ElementLine.read? _ = _
  decide

theorem Document.read_write_sheet_column :
    Document.read default ((Document.read default sheetSource).write true) = Document.read default sheetSource ∧
      Document.read default ((Document.read default columnSource).write true) ≠ Document.read default columnSource := by
  constructor
  · have hiff := Document.read_write_read_iff default true sheetSource (by decide)
    refine hiff.1.2 ⟨fun b hb => ?_, by decide⟩
    rw [Document.read_eq] at hb
    obtain ⟨r, hr, rfl⟩ := List.mem_map.1 hb
    exact (hiff.2 r hr).1 (Run.legible_sheetSource r hr)
  · intro h
    exact absurd ((Document.read_write_read_iff default true columnSource (by decide)).1.1 h).2 (by decide)

end Gridmark
