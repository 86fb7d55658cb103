import Mathlib
import Gridmark.Proofs.SourceText
/-!
# Runs — a document as the runs of its lines

Reading is cutting the lines into runs (`read_eq`).  What a run is, apart from what it has gathered, decides which lines it
takes (`joins`), so a run goes on over whatever reopens it and stops at anything else.  Neighbouring runs of a source do
not join (`isChain_ofLines`), and the other way round lists of lines of which each makes one run and no two neighbours
join make, one after the other, these runs (`ofLines_flatten`).
-/
namespace Gridmark
namespace Run

/-- Whether a line that opens the second run belongs to the first. -/
def joins : Run → Run → Bool
  | .prose _, .prose _ => true
  | .grid m _, .grid n _ => m = n
  | .group k _, .group l _ => k = l
  | _, _ => false

/-- The runs of lines behind an open run, that one included. -/
def continueWith (r : Run) : List SourceLine → List Run
  | [] => [r]
  | l :: ls =>
    match r.extend? l with
    | some r' => continueWith r' ls
    | none => r :: continueWith (start l) ls

def ofLines : List SourceLine → List Run
  | [] => []
  | l :: ls => continueWith (start l) ls

theorem extend?_eq_none {r : Run} {l : SourceLine} : r.extend? l = none ↔ r.joins (start l) = false := by
  cases r <;> cases l <;> simp [extend?, joins, start]

/-- Everything a line can do to an open run. -/
theorem extend?_eq_some {r r' : Run} {l : SourceLine} (h : r.extend? l = some r') :
    (∃ ts t, r = .prose ts ∧ l = .prose t ∧ r' = .prose (ts ++ [t])) ∨
    (∃ n rows row, r = .grid n rows ∧ l = .gridRow n row ∧ r' = .grid n (rows ++ [row])) ∨
    ∃ items e, r = .group e.kind items ∧ l = .item e ∧ r' = .group e.kind (items ++ [e.toItem]) := by
  cases r <;> cases l <;> simp only [extend?, reduceCtorEq, Option.some.injEq] at h
  · exact .inl ⟨_, _, rfl, rfl, h.symm⟩
  · split at h
    · rename_i hn
      cases hn
      cases h
      exact .inr (.inl ⟨_, _, _, rfl, rfl, rfl⟩)
    · cases h
  · split at h
    · rename_i hk
      cases hk
      cases h
      exact .inr (.inr ⟨_, _, rfl, rfl, rfl⟩)
    · cases h

/-- Growing changes nothing about what a run joins with. -/
theorem joins_of_extend? {r r' : Run} {l : SourceLine} (h : r.extend? l = some r') (s : Run) :
    r'.joins s = r.joins s ∧ s.joins r' = s.joins r := by
  obtain ⟨ts, t, rfl, -, rfl⟩ | ⟨n, rows, row, rfl, -, rfl⟩ | ⟨items, e, rfl, -, rfl⟩ := extend?_eq_some h <;>
    cases s <;> exact ⟨rfl, rfl⟩

/-- The lines that a run was made from. -/
def Gathers (ls : List SourceLine) : Run → Prop
  | .prose ts => ls = ts.map .prose
  | .grid n rows => ls = rows.map (.gridRow n)
  | .group kind items => ∃ es : List Element, ls = es.map .item ∧ items = es.map Element.toItem ∧ ∀ e ∈ es, e.kind = kind
  | .lone e => ls = [.lone e]

theorem gathers_start (l : SourceLine) : Gathers [l] (start l) := by
  cases l with
  | item e => exact ⟨[e], rfl, rfl, by simp⟩
  | _ => rfl

theorem Gathers.concat {ls : List SourceLine} {r r' : Run} {l : SourceLine} (hg : Gathers ls r)
    (h : r.extend? l = some r') : Gathers (ls ++ [l]) r' := by
  obtain ⟨ts, t, rfl, rfl, rfl⟩ | ⟨n, rows, row, rfl, rfl, rfl⟩ | ⟨items, e, rfl, rfl, rfl⟩ := extend?_eq_some h
  · simp only [Gathers] at hg ⊢
    rw [hg, List.map_append, List.map_singleton]
  · simp only [Gathers] at hg ⊢
    rw [hg, List.map_append, List.map_singleton]
  · obtain ⟨es, rfl, rfl, hk⟩ := hg
    refine ⟨es ++ [e], by simp, by simp, fun f hf => ?_⟩
    rcases List.mem_append.1 hf with hf | hf
    · exact hk f hf
    · rw [List.mem_singleton.1 hf]

theorem continueWith_ne_nil : ∀ (ls : List SourceLine) (r : Run), continueWith r ls ≠ []
  | [], r => by simp [continueWith]
  | l :: ls, r => by
    rw [continueWith]
    split
    · exact continueWith_ne_nil ls _
    · simp

/-- What joins with the first of the runs is what joins with the open one. -/
theorem joins_head_continueWith : ∀ (ls : List SourceLine) (r s : Run),
    ∀ r' ∈ (continueWith r ls).head?, s.joins r' = s.joins r
  | [], r, s, r', h => by
    cases h
    rfl
  | l :: ls, r, s, r', h => by
    rw [continueWith] at h
    split at h
    · rename_i r₁ hr₁
      rw [joins_head_continueWith ls r₁ s r' h, (joins_of_extend? hr₁ s).2]
    · cases h
      rfl

/-- **Neighbouring runs do not join.** -/
theorem isChain_continueWith : ∀ (ls : List SourceLine) (r : Run),
    (continueWith r ls).IsChain fun r s => r.joins s = false
  | [], r => by simp [continueWith]
  | l :: ls, r => by
    rw [continueWith]
    split
    · exact isChain_continueWith ls _
    · rename_i hl
      refine List.isChain_cons.2 ⟨fun s hs => ?_, isChain_continueWith ls _⟩
      rw [joins_head_continueWith ls (start l) r s hs, extend?_eq_none.1 hl]

theorem isChain_ofLines : ∀ ls : List SourceLine, (ofLines ls).IsChain fun r s => r.joins s = false
  | [] => List.isChain_nil
  | l :: ls => isChain_continueWith ls (start l)

/-- Cutting loses no line: the runs were made from lists of lines that are, one after the other, all of them. -/
theorem exists_gathers_continueWith : ∀ (ls : List SourceLine) {us : List SourceLine} {r : Run}, us ≠ [] → Gathers us r →
    ∃ lss : List (List SourceLine), lss.flatten = us ++ ls ∧
      List.Forall₂ (fun us r => us ≠ [] ∧ Gathers us r) lss (continueWith r ls)
  | [], us, r, hne, h => ⟨[us], by simp, .cons ⟨hne, h⟩ .nil⟩
  | l :: ls, us, r, hne, h => by
    rw [continueWith]
    split
    · rename_i r' hr'
      obtain ⟨lss, hf, hl⟩ := exists_gathers_continueWith ls (by simp) (h.concat hr')
      exact ⟨lss, by rw [hf, List.append_assoc]; rfl, hl⟩
    · obtain ⟨lss, hf, hl⟩ := exists_gathers_continueWith ls (List.cons_ne_nil l []) (gathers_start l)
      exact ⟨us :: lss, by rw [List.flatten_cons, hf]; rfl, .cons ⟨hne, h⟩ hl⟩

theorem exists_gathers_ofLines : ∀ ls : List SourceLine, ∃ lss : List (List SourceLine), lss.flatten = ls ∧
    List.Forall₂ (fun us r => us ≠ [] ∧ Gathers us r) lss (ofLines ls)
  | [] => ⟨[], rfl, .nil⟩
  | l :: ls => exists_gathers_continueWith ls (List.cons_ne_nil l []) (gathers_start l)

theorem exists_of_mem_right {α β : Type} {R : α → β → Prop} {b : β} : ∀ {as : List α} {bs : List β},
    List.Forall₂ R as bs → b ∈ bs → ∃ a ∈ as, R a b
  | _, _, .cons h hs, hb => by
    rcases List.mem_cons.1 hb with rfl | hb
    · exact ⟨_, List.mem_cons_self, h⟩
    · obtain ⟨a, ha, hr⟩ := exists_of_mem_right hs hb
      exact ⟨a, List.mem_cons_of_mem _ ha, hr⟩

theorem exists_forall₂ {α β : Type} {R : α → β → Prop} : ∀ {as : List α}, (∀ a ∈ as, ∃ b, R a b) →
    ∃ bs, List.Forall₂ R as bs
  | [], _ => ⟨[], .nil⟩
  | a :: as, h => by
    obtain ⟨b, hb⟩ := h a List.mem_cons_self
    obtain ⟨bs, hbs⟩ := exists_forall₂ fun c hc => h c (List.mem_cons_of_mem a hc)
    exact ⟨b :: bs, .cons hb hbs⟩

theorem map_eq_of_forall₂ {α β γ : Type} {f : α → γ} {g : β → γ} : ∀ {as : List α} {bs : List β},
    List.Forall₂ (fun a b => f a = g b) as bs → as.map f = bs.map g
  | _, _, .nil => rfl
  | _, _, .cons h hs => by rw [List.map_cons, List.map_cons, h, map_eq_of_forall₂ hs]

theorem gathers_of_mem_ofLines {ls : List SourceLine} {r : Run} (h : r ∈ ofLines ls) :
    ∃ us, us ≠ [] ∧ Gathers us r ∧ ∀ l ∈ us, l ∈ ls := by
  obtain ⟨lss, rfl, hl⟩ := exists_gathers_ofLines ls
  obtain ⟨us, hus, hne, hg⟩ := exists_of_mem_right hl h
  exact ⟨us, hne, hg, fun l hl => List.mem_flatten.2 ⟨us, hus, hl⟩⟩

/-- Lines that make one run are the lines it was made from. -/
theorem gathers_of_ofLines {ls : List SourceLine} {r : Run} (h : ofLines ls = [r]) : ls ≠ [] ∧ Gathers ls r := by
  obtain ⟨lss, hf, hl⟩ := exists_gathers_ofLines ls
  rw [h] at hl
  cases hl with
  | cons hg hnil =>
    cases hnil
    rw [List.flatten_cons, List.flatten_nil, List.append_nil] at hf
    exact hf ▸ hg

theorem continueWith_map_item {kind : Text} : ∀ (es : List Element) (before : List GroupItem), (∀ e ∈ es, e.kind = kind) →
    continueWith (.group kind before) (es.map .item) = [.group kind (before ++ es.map Element.toItem)]
  | [], before, _ => by simp [continueWith]
  | e :: es, before, h => by
    rw [List.map_cons, continueWith, extend?, if_pos (h e List.mem_cons_self).symm]
    dsimp only
    rw [continueWith_map_item es _ fun f hf => h f (List.mem_cons_of_mem e hf)]
    simp

/-- Elements of one kind make one group, with an item of each. -/
theorem ofLines_map_item {kind : Text} {es : List Element} (hne : es ≠ []) (h : ∀ e ∈ es, e.kind = kind) :
    ofLines (es.map .item) = [.group kind (es.map Element.toItem)] := by
  obtain ⟨e, es, rfl⟩ := List.exists_cons_of_ne_nil hne
  rw [List.map_cons, ofLines, start, h e List.mem_cons_self,
    continueWith_map_item es _ fun f hf => h f (List.mem_cons_of_mem e hf)]
  rfl

/-- Lines that stay in the open run only make it grow. -/
theorem continueWith_append {r' : Run} (ms : List SourceLine) : ∀ {ls : List SourceLine} {r : Run},
    continueWith r ls = [r'] → continueWith r (ls ++ ms) = continueWith r' ms
  | [], r, h => by
    rw [continueWith, List.cons.injEq] at h
    rw [h.1, List.nil_append]
  | l :: ls, r, h => by
    rw [continueWith] at h
    rw [List.cons_append, continueWith]
    split at h
    · exact continueWith_append ms h
    · exact absurd (List.cons.inj h).2 (continueWith_ne_nil ls _)

theorem continueWith_of_not_joins {r s : Run} (h : r.joins s = false) : ∀ {ms : List SourceLine} {ss : List Run},
    ofLines ms = s :: ss → continueWith r ms = r :: s :: ss
  | [], _, hm => by cases hm
  | m :: ms, ss, hm => by
    have hj : r.joins s = r.joins (start m) :=
      joins_head_continueWith ms (start m) r s (by rw [show continueWith (start m) ms = s :: ss from hm]; rfl)
    rw [continueWith, extend?_eq_none.2 (hj ▸ h)]
    exact congrArg (r :: ·) hm

/-- **Lists of lines that each make one run make these runs one after the other**, if no two neighbours join. -/
theorem ofLines_flatten : ∀ {lss : List (List SourceLine)} {rs : List Run},
    List.Forall₂ (fun ls r => ofLines ls = [r]) lss rs → rs.IsChain (fun r s => r.joins s = false) →
    ofLines lss.flatten = rs
  | _, _, .nil, _ => rfl
  | ls :: lss, r :: rs, .cons h hs, hc => by
    cases ls with
    | nil => cases h
    | cons l ls =>
      have hr : ofLines ((l :: ls) ++ lss.flatten) = continueWith r lss.flatten := continueWith_append _ h
      rw [List.flatten_cons, hr]
      have ih := ofLines_flatten hs hc.tail
      cases rs with
      | nil =>
        cases hs
        rfl
      | cons s ss => exact continueWith_of_not_joins (List.isChain_cons_cons.1 hc).1 ih

theorem isChain_of_forall₂ {α : Type} {R : α → Run → Prop} {S : α → α → Prop}
    (h : ∀ (a b : α) (r s : Run), R a r → R b s → S a b → r.joins s = false) : ∀ {as : List α} {rs : List Run},
    List.Forall₂ R as rs → as.IsChain S → rs.IsChain fun r s => r.joins s = false
  | _, _, .nil, _ => List.isChain_nil
  | _, _, .cons _ .nil, _ => List.isChain_singleton _
  | _, _, .cons hr (.cons hs hrs), hc =>
    List.isChain_cons_cons.2 ⟨h _ _ _ _ hr hs (List.isChain_cons_cons.1 hc).1,
      isChain_of_forall₂ h (.cons hs hrs) (List.isChain_cons_cons.1 hc).2⟩

theorem joins_congr {r s : Run} (h : r.joins s = true) (t : Run) : r.joins t = s.joins t := by
  cases r <;> cases s <;> cases t <;> simp_all [joins]

/-- Which lines an open run takes depends on what it joins with alone. -/
theorem exists_continueWith_eq {s : Run} (r' : Run) : ∀ {ls : List SourceLine} {r : Run}, (∀ t, r.joins t = r'.joins t) →
    continueWith r ls = [s] → ∃ s', continueWith r' ls = [s'] ∧ ∀ t, s.joins t = s'.joins t
  | [], r, h, hs => by
    rw [continueWith, List.cons.injEq] at hs
    exact ⟨r', rfl, hs.1 ▸ h⟩
  | l :: ls, r, h, hs => by
    rw [continueWith] at hs
    split at hs
    · rename_i r₁ hr₁
      cases hr' : r'.extend? l with
      | none => rw [extend?_eq_none, ← h, ← extend?_eq_none, hr₁] at hr'; cases hr'
      | some r₁' =>
        obtain ⟨s', hs', ht⟩ := exists_continueWith_eq r₁' (fun t => by
          rw [(joins_of_extend? hr₁ t).1, (joins_of_extend? hr' t).1, h]) hs
        exact ⟨s', by rw [continueWith, hr']; exact hs', ht⟩
    · exact absurd (List.cons.inj hs).2 (continueWith_ne_nil ls _)

/-- Lists of lines that each make one run make no more runs than that behind an open one, and fewer if two of them join. -/
theorem length_continueWith_flatten_le : ∀ {lss : List (List SourceLine)} {rs : List Run} {r : Run},
    List.Forall₂ (fun ls r => ofLines ls = [r]) lss rs → (continueWith r lss.flatten).length ≤ rs.length + 1 ∧
      (¬(r :: rs).IsChain (fun r s => r.joins s = false) → (continueWith r lss.flatten).length ≤ rs.length)
  | _, _, r, .nil => ⟨Nat.le_refl _, fun h => absurd (List.isChain_singleton r) h⟩
  | ls :: lss, s :: rs, r, .cons h hs => by
    cases ls with
    | nil => cases h
    | cons l ls =>
      have hjoin : r.joins s = r.joins (start l) := by
        have hhead := joins_head_continueWith ls (start l) r s
        rw [show continueWith (start l) ls = [s] from h] at hhead
        exact hhead rfl
      rw [List.flatten_cons, List.cons_append, continueWith]
      cases he : r.extend? l with
      | none =>
        obtain ⟨h1, h2⟩ := length_continueWith_flatten_le (r := s) hs
        have hc : continueWith (start l) (ls ++ lss.flatten) = continueWith s lss.flatten := continueWith_append _ h
        dsimp only
        rw [hc, List.length_cons, List.length_cons]
        refine ⟨by omega, fun hn => ?_⟩
        have hjr : r.joins s = false := hjoin.trans (extend?_eq_none.1 he)
        have := h2 fun hc => hn (List.isChain_cons_cons.2 ⟨hjr, hc⟩)
        omega
      | some r₁ =>
        have hr : r.joins (start l) = true := by
          cases hj : r.joins (start l) with
          | true => rfl
          | false => rw [extend?_eq_none.2 hj] at he; cases he
        obtain ⟨r₂, hr₂, -⟩ := exists_continueWith_eq r₁ (fun t => by
          rw [(joins_of_extend? he t).1, joins_congr hr t]) h
        have hc : continueWith r₁ (ls ++ lss.flatten) = continueWith r₂ lss.flatten := continueWith_append _ hr₂
        obtain ⟨h1, -⟩ := length_continueWith_flatten_le (r := r₂) hs
        dsimp only
        rw [hc, List.length_cons]
        exact ⟨by omega, fun _ => h1⟩

theorem length_ofLines_flatten_le {lss : List (List SourceLine)} {rs : List Run}
    (h : List.Forall₂ (fun ls r => ofLines ls = [r]) lss rs) : (ofLines lss.flatten).length ≤ rs.length ∧
      (¬rs.IsChain (fun r s => r.joins s = false) → (ofLines lss.flatten).length < rs.length) := by
  cases h with
  | nil => exact ⟨Nat.le_refl _, fun h => absurd List.isChain_nil h⟩
  | @cons ls r lss rs h hs =>
    cases ls with
    | nil => cases h
    | cons l ls =>
      have hc : ofLines ((l :: ls) ++ lss.flatten) = continueWith r lss.flatten := continueWith_append _ h
      obtain ⟨h1, h2⟩ := length_continueWith_flatten_le (r := r) hs
      rw [List.flatten_cons, hc, List.length_cons]
      exact ⟨h1, fun hn => Nat.lt_succ_of_le (h2 hn)⟩

/-- **Where such lists make as many runs as they are, no two neighbours join.** -/
theorem isChain_of_length_ofLines {lss : List (List SourceLine)} {rs : List Run}
    (h : List.Forall₂ (fun ls r => ofLines ls = [r]) lss rs) (hl : (ofLines lss.flatten).length = rs.length) :
    rs.IsChain fun r s => r.joins s = false := by
  by_contra hn
  have := (length_ofLines_flatten_le h).2 hn
  omega

theorem length_continueWith_le : ∀ (ls : List SourceLine) (r : Run), (continueWith r ls).length ≤ ls.length + 1
  | [], _ => Nat.le_refl _
  | l :: ls, r => by
    rw [continueWith]
    split
    · exact Nat.le_succ_of_le (length_continueWith_le ls _)
    · exact Nat.succ_le_succ (length_continueWith_le ls _)

theorem length_ofLines_le : ∀ ls : List SourceLine, (ofLines ls).length ≤ ls.length
  | [] => Nat.le_refl _
  | l :: ls => length_continueWith_le ls (start l)

/-- Lists of lines that make at most one run each, and together as many as they are, make one run each. -/
theorem exists_forall₂_of_length_ofLines {lss : List (List SourceLine)} (h : ∀ ls ∈ lss, (ofLines ls).length ≤ 1)
    (hl : (ofLines lss.flatten).length = lss.length) :
    ∃ rs, List.Forall₂ (fun ls r => ofLines ls = [r]) lss rs ∧ ofLines lss.flatten = rs := by
  -- lists without lines make no run, so only the others count
  have hruns : ∀ lss : List (List SourceLine), (∀ ls ∈ lss, (ofLines ls).length ≤ 1) →
      ∃ rs, List.Forall₂ (fun ls r => ofLines ls = [r]) (lss.filter (· ≠ [])) rs := by
    intro lss
    induction lss with
    | nil => exact fun _ => ⟨[], .nil⟩
    | cons ls lss ih =>
      intro h
      obtain ⟨rs, hrs⟩ := ih fun ms hm => h ms (List.mem_cons_of_mem _ hm)
      cases ls with
      | nil => exact ⟨rs, hrs⟩
      | cons l ls =>
        have h1 := h _ List.mem_cons_self
        have h2 := List.length_pos_iff.2 (continueWith_ne_nil ls (start l))
        obtain ⟨r, hr⟩ := List.length_eq_one_iff.1 (Nat.le_antisymm h1 h2)
        exact ⟨r :: rs, .cons hr hrs⟩
  obtain ⟨rs, hrs⟩ := hruns lss h
  have hle := (length_ofLines_flatten_le hrs).1
  rw [List.flatten_filter_ne_nil, hl, ← hrs.length_eq] at hle
  have hall : lss.filter (· ≠ []) = lss := List.filter_sublist.eq_of_length_le hle
  rw [hall] at hrs
  exact ⟨rs, hrs, ofLines_flatten hrs (isChain_of_length_ofLines hrs (hl.trans hrs.length_eq))⟩

theorem toDocument_foldl_add : ∀ (ls : List SourceLine) (bs : List Layout) (r : Run),
    (ls.foldl Assembly.add ⟨bs, some r⟩).toDocument = ⟨bs ++ (continueWith r ls).map toLayout⟩
  | [], bs, r => rfl
  | l :: ls, bs, r => by
    rw [List.foldl_cons, continueWith]
    cases h : r.extend? l with
    | some r' =>
      have ha : Assembly.add ⟨bs, some r⟩ l = ⟨bs, some r'⟩ := by
        unfold Assembly.add
        rw [Option.bind_some, h]
      rw [ha, toDocument_foldl_add ls bs r']
    | none =>
      have ha : Assembly.add ⟨bs, some r⟩ l = ⟨bs ++ [r.toLayout], some (start l)⟩ := by
        unfold Assembly.add
        rw [Option.bind_some, h]
        rfl
      rw [ha, toDocument_foldl_add ls _ (start l), List.append_assoc]
      rfl

end Run

namespace SourceLine

def ofText (o : ReadOptions) (source : Text) : List SourceLine := (ofSource source).map (read o)

end SourceLine

namespace Document

/-- **A document is the runs of its lines, each as a block.** -/
theorem read_eq (o : ReadOptions) (source : Text) :
    Document.read o source = ⟨(Run.ofLines (SourceLine.ofText o source)).map Run.toLayout⟩ := by
  unfold Document.read Assembly.addSource SourceLine.ofText
  rw [← List.foldl_map]
  cases (SourceLine.ofSource source).map (SourceLine.read o) with
  | nil => rfl
  | cons l ls => exact Run.toDocument_foldl_add ls [] (Run.start l)

end Document
end Gridmark
