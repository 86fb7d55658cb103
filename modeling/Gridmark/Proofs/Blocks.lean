import Gridmark.Proofs.Freestanding
/-!
# Blocks — a document block by block

A document is written block by block and read run by run.  Two neighbouring blocks would be read as one only where both
are prose, groups of one kind, or grids of one width (`mergesWith`), for a block that reads back on its own is read as a
run of its own sort.  Where no two neighbours are so, a document reads back if each of its blocks does, and no prose goes
into a row.
-/
namespace Gridmark

/-- Whether the texts of two layouts, one under the other, would be read as one block. -/
def Layout.mergesWith (b c : Layout) : Bool :=
  match b.single?, c.single? with
  | some e, some f => (e.isProse && f.isProse) || (e.isGroup && f.isGroup && e.kind == f.kind)
  | none, none => b.columnCount == c.columnCount
  | _, _ => false

theorem Layout.mergesWith_of_prose {b c : Layout} {s t : Text} (hb : b.prose? = some s) (hc : c.prose? = some t) :
    b.mergesWith c = true := by
  obtain ⟨e, he, hs⟩ := Option.bind_eq_some_iff.1 hb
  obtain ⟨f, hf, ht⟩ := Option.bind_eq_some_iff.1 hc
  unfold mergesWith
  rw [he, hf]
  simp [Element.isProse, hs, ht]

namespace Snapshot

def chunks (o : ReadOptions) : List Bool → List Layout → List (List SourceLine)
  | _, [] => []
  | flags, b :: bs =>
    ((blockLines (flags.headD false) b).flatMap SourceLine.ofSource).map (SourceLine.read o) :: chunks o flags.tail bs

theorem ofText_finish_linesWith (o : ReadOptions) (trailing : Bool) (flags : List Bool) (bs : List Layout) :
    SourceLine.ofText o (finish trailing (linesWith flags bs)) = (chunks o flags bs).flatten := by
  unfold SourceLine.ofText
  rw [SourceLine.ofSource_finish]
  induction bs generalizing flags with
  | nil => rfl
  | cons b bs ih => rw [linesWith, List.flatMap_append, List.map_append, ih, chunks, List.flatten_cons]

/-- **A document reads back** if the lines of each of its blocks make one run, which is the block, and no two neighbouring
runs join. -/
theorem read_linesWith {o : ReadOptions} {flags : List Bool} {bs : List Layout} {rs : List Run}
    (h : List.Forall₂ (fun ls r => Run.ofLines ls = [r]) (chunks o flags bs) rs)
    (hc : rs.IsChain fun r s => r.joins s = false) (hl : rs.map Run.toLayout = bs) (trailing : Bool) :
    Document.read o (finish trailing (linesWith flags bs)) = ⟨bs⟩ := by
  rw [Document.read_eq, ofText_finish_linesWith, Run.ofLines_flatten h hc, hl]

/-- No prose goes into a row where no two neighbours are prose. -/
theorem wrapFlags_eq_replicate : ∀ {bs : List Layout} (afterBare : Bool),
    bs.IsChain (fun b c => b.mergesWith c = false) → (afterBare = true → ∀ b ∈ bs.head?, b.prose? = none) →
    wrapFlags afterBare bs = List.replicate bs.length false
  | [], _, _, _ => rfl
  | b :: bs, afterBare, hc, hb => by
    obtain ⟨hn, ht⟩ := List.isChain_cons.1 hc
    rw [wrapFlags, List.length_cons, List.replicate_succ]
    cases hp : b.prose? with
    | none => rw [wrapFlags_eq_replicate false ht (by simp)]
    | some body =>
      have hns : ∀ c ∈ bs.head?, c.prose? = none := by
        intro c hcm
        cases hs : c.prose? with
        | none => rfl
        | some t => exact absurd (Layout.mergesWith_of_prose hp hs) (by simp [hn c hcm])
      have hbare : afterBare = false := by
        cases afterBare with
        | false => rfl
        | true => exact absurd (hb rfl b rfl) (by simp [hp])
      have hstart : startsBare bs = false := by
        cases bs with
        | nil => rfl
        | cons c cs => rw [startsBare, hns c rfl]
      have hwrap : ((afterBare || startsBare bs) && fitsInCell body) = false := by simp [hbare, hstart]
      dsimp only
      rw [hwrap, wrapFlags_eq_replicate _ ht fun _ => hns]

theorem chunks_replicate (o : ReadOptions) : ∀ bs : List Layout,
    chunks o (List.replicate bs.length false) bs = bs.map fun b => SourceLine.ofText o b.write
  | [] => rfl
  | b :: bs => by
    rw [List.length_cons, List.replicate_succ, chunks, List.tail_cons, chunks_replicate o bs, List.map_cons,
      SourceLine.ofText, Layout.write, SourceLine.ofSource_joinWith]
    rfl

end Snapshot

namespace Run

theorem isGroup_of_gathers {ls : List SourceLine} {kind : Text} {items : List GroupItem} (hne : ls ≠ [])
    (h : Gathers ls (.group kind items)) : items ≠ [] := by
  obtain ⟨es, rfl, rfl, -⟩ := h
  intro he
  rw [List.map_eq_nil_iff.1 he] at hne
  exact hne rfl

/-- What the run of a block that reads back on its own tells about the block. -/
theorem toLayout_sort {o : ReadOptions} {b : Layout} {r : Run} (h : ofLines (SourceLine.ofText o b.write) = [r])
    (hb : r.toLayout = b) :
    match r with
    | .prose _ => ∃ e, b.single? = some e ∧ e.isProse = true
    | .grid n _ => b.single? = none ∧ b.columnCount = n
    | .group kind _ => ∃ e, b.single? = some e ∧ e.isGroup = true ∧ e.kind = Text.lowercase kind
    | .lone _ => True := by
  cases r with
  | prose ts =>
    subst hb
    exact ⟨_, rfl, rfl⟩
  | grid n rows =>
    refine ⟨?_, hb ▸ Layout.columnCount_ofRows n rows⟩
    cases hs : b.single? with
    | none => rfl
    | some e =>
      have hw : b.write = ElementLine.write e := by
        unfold Layout.write Snapshot.blockLines
        rw [hs]
        rfl
      exact absurd hb (toLayout_ne_single (hw ▸ h) hs)
  | group kind items =>
    subst hb
    obtain ⟨hne, hg⟩ := gathers_of_ofLines h
    refine ⟨_, rfl, ?_, rfl⟩
    have := isGroup_of_gathers hne hg
    simpa [Element.isGroup, Element.items, Element.group] using this
  | lone e => trivial

theorem joins_eq_false {o : ReadOptions} {b c : Layout} {r s : Run}
    (hr : ofLines (SourceLine.ofText o b.write) = [r] ∧ r.toLayout = b)
    (hs : ofLines (SourceLine.ofText o c.write) = [s] ∧ s.toLayout = c) (h : b.mergesWith c = false) :
    r.joins s = false := by
  have h1 := toLayout_sort hr.1 hr.2
  have h2 := toLayout_sort hs.1 hs.2
  unfold Layout.mergesWith at h
  cases r <;> cases s <;> try rfl
  · obtain ⟨e, he, hep⟩ := h1
    obtain ⟨f, hf, hfp⟩ := h2
    rw [he, hf] at h
    simp [hep, hfp] at h
  · obtain ⟨he, rfl⟩ := h1
    obtain ⟨hf, rfl⟩ := h2
    rw [he, hf] at h
    simpa [joins] using h
  · obtain ⟨e, he, heg, hek⟩ := h1
    obtain ⟨f, hf, hfg, hfk⟩ := h2
    rw [he, hf] at h
    simp only [heg, hfg, hek, hfk, Bool.and_self, Bool.true_and, Bool.or_eq_false_iff, beq_eq_false_iff_ne] at h
    simp only [joins, decide_eq_false_iff_not]
    exact fun hk => h.2 (congrArg Text.lowercase hk)

theorem exists_runs_alone {o : ReadOptions} {bs : List Layout} (h : ∀ b ∈ bs, (Document.read o b.write).blocks = [b]) :
    ∃ rs, List.Forall₂ (fun b r => ofLines (SourceLine.ofText o b.write) = [r] ∧ r.toLayout = b) bs rs := by
  refine exists_forall₂ fun b hb => ?_
  have hblock := h b hb
  rw [Document.read_eq] at hblock
  exact List.map_eq_singleton_iff.1 hblock

end Run

/-- **Blocks that read back alone read back together**, if no two neighbours are prose, groups of one kind or grids of one
width. -/
theorem Document.read_write_of_alone (o : ReadOptions) (trailing : Bool) (d : Document)
    (halone : ∀ b ∈ d.blocks, (Document.read o b.write).blocks = [b])
    (hapart : d.blocks.IsChain fun b c => b.mergesWith c = false) : Document.read o (d.write trailing) = d := by
  obtain ⟨rs, hrs⟩ := Run.exists_runs_alone halone
  have hflags := Snapshot.wrapFlags_eq_replicate false hapart (by simp)
  unfold Document.write
  rw [hflags]
  have hc : rs.IsChain fun r s => r.joins s = false :=
    Run.isChain_of_forall₂ (S := fun b c => b.mergesWith c = false) (fun _ _ _ _ => Run.joins_eq_false) hrs hapart
  refine Snapshot.read_linesWith ?_ hc ?_ trailing
  · rw [Snapshot.chunks_replicate, List.forall₂_map_left_iff]
    exact hrs.imp fun _ _ h => h.1
  · have hb : List.Forall₂ (· = ·) d.blocks (rs.map Run.toLayout) :=
      List.forall₂_map_right_iff.2 (hrs.imp fun _ _ h => h.2.symm)
    rw [List.forall₂_eq_eq_eq] at hb
    exact hb.symm

/-- Prose, a grid with a cell of two rows, a group, a grid of one column and prose. -/
def Document.sampler : Document where
  blocks :=
    [.single (.prose "hello".toList),
      ⟨2, [⟨.content (.prose "x".toList), 1, 2⟩, .ofKind (.content (.prose "y".toList)) 1, .ofKind .empty 1]⟩,
      .single (.group "accordion".toList [⟨"a".toList, "b".toList⟩]),
      ⟨1, [.ofKind (.content (.prose "p".toList)) 1, .ofKind (.content (.prose "q".toList)) 1]⟩,
      .single (.prose "bye".toList)]

theorem Document.read_write_sampler : Document.read default (Document.sampler.write true) = Document.sampler := by
  refine Document.read_write_of_alone default true .sampler (fun b hb => ?_) (by decide)
  simp only [Document.sampler, List.mem_cons, List.not_mem_nil, or_false] at hb
  rcases hb with rfl | rfl | rfl | rfl | rfl <;> cbv

end Gridmark
