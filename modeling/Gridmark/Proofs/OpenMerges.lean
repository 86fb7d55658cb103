import Mathlib
import Gridmark.GridPen
import Gridmark.Proofs.Picture
/-!
# OpenMerges — the merges a pen owes, against a picture

Half way through a row of a picture the pen owes one merge for every continuation of the row, written for those behind it
and open for those before it.  The order of the merges does not matter, for no two of them stand at one column: taking the
one that is due and sorting by column see the same list.
-/
namespace Gridmark

open Picture

namespace OpenMerge

theorem perm_insertByColumn (m : OpenMerge) : ∀ ns, (insertByColumn m ns).Perm (m :: ns)
  | [] => List.Perm.refl _
  | n :: ns => by
    unfold insertByColumn
    split
    · exact List.Perm.refl _
    · exact ((perm_insertByColumn m ns).cons n).trans (List.Perm.swap m n ns)

theorem perm_sortByColumn : ∀ ms, (sortByColumn ms).Perm ms
  | [] => List.Perm.refl _
  | m :: ms => (perm_insertByColumn m _).trans ((perm_sortByColumn ms).cons m)

theorem pairwise_insertByColumn (m : OpenMerge) : ∀ {ns : List OpenMerge}, ns.Pairwise (fun a b => a.column ≤ b.column) →
    (insertByColumn m ns).Pairwise fun a b => a.column ≤ b.column
  | [], _ => List.pairwise_singleton _ _
  | n :: ns, h => by
    obtain ⟨hn, hns⟩ := List.pairwise_cons.1 h
    unfold insertByColumn
    split
    · rename_i hle
      refine List.pairwise_cons.2 ⟨fun k hk => ?_, h⟩
      rcases List.mem_cons.1 hk with rfl | hk
      · exact hle
      · exact Nat.le_trans hle (hn k hk)
    · rename_i hle
      refine List.pairwise_cons.2 ⟨fun k hk => ?_, pairwise_insertByColumn m hns⟩
      rcases List.mem_cons.1 ((perm_insertByColumn m ns).mem_iff.1 hk) with rfl | hk
      · omega
      · exact hn k hk

theorem pairwise_sortByColumn : ∀ ms, (sortByColumn ms).Pairwise fun a b => a.column ≤ b.column
  | [] => List.Pairwise.nil
  | m :: ms => pairwise_insertByColumn m (pairwise_sortByColumn ms)

theorem eq_of_column {es : List OpenMerge} (h : es.Pairwise fun a b => a.column < b.column) {a b : OpenMerge}
    (ha : a ∈ es) (hb : b ∈ es) (hab : a.column = b.column) : a = b := by
  induction es with
  | nil => cases ha
  | cons e es ih =>
    obtain ⟨he, hes⟩ := List.pairwise_cons.1 h
    rcases List.mem_cons.1 ha with rfl | ha'
    · rcases List.mem_cons.1 hb with rfl | hb'
      · rfl
      · exact absurd hab (Nat.ne_of_lt (he b hb'))
    · rcases List.mem_cons.1 hb with rfl | hb'
      · exact absurd hab (Nat.ne_of_gt (he a ha'))
      · exact ih hes ha' hb'

theorem sortByColumn_eq_of_perm {ms es : List OpenMerge} (h : ms.Perm es)
    (hs : es.Pairwise fun a b => a.column < b.column) : sortByColumn ms = es := by
  have hp : (sortByColumn ms).Perm es := (perm_sortByColumn ms).trans h
  refine List.Perm.eq_of_pairwise (fun a b ha hb h1 h2 => ?_) (pairwise_sortByColumn ms) (hs.imp Nat.le_of_lt) hp
  exact eq_of_column hs (hp.mem_iff.1 ha) hb (Nat.le_antisymm h1 h2)

/-- Taking what is due marks the first merge that is, if there is one. -/
theorem takeDue?_cases (column : Nat) : ∀ ms : List OpenMerge,
    (∃ as m bs, ms = as ++ m :: bs ∧ m.written = false ∧ m.column = column ∧
      takeDue? column ms = some (m, as ++ { m with written := true } :: bs)) ∨
    (takeDue? column ms = none ∧ ∀ m ∈ ms, ¬(m.written = false ∧ m.column = column))
  | [] => .inr ⟨rfl, by simp⟩
  | n :: ms => by
    unfold takeDue?
    split
    · rename_i hn
      exact .inl ⟨[], n, ms, rfl, hn.1, hn.2, rfl⟩
    · rename_i hn
      rcases takeDue?_cases column ms with ⟨as, m, bs, rfl, h1, h2, h3⟩ | ⟨h1, h2⟩
      · exact .inl ⟨n :: as, m, bs, rfl, h1, h2, by rw [h3]; rfl⟩
      · refine .inr ⟨by rw [h1]; rfl, fun m hm => ?_⟩
        rcases List.mem_cons.1 hm with rfl | hm
        · exact hn
        · exact h2 m hm

theorem takeDue?_eq_none {column : Nat} {ms : List OpenMerge} (h : ∀ m ∈ ms, m.written = true ∨ m.column ≠ column) :
    takeDue? column ms = none := by
  rcases takeDue?_cases column ms with ⟨as, m, bs, rfl, h1, h2, -⟩ | ⟨h1, -⟩
  · rcases h m (List.mem_append_right _ List.mem_cons_self) with h | h
    · rw [h1] at h
      cases h
    · exact absurd h2 h
  · exact h1

/-- The only merge that is due is taken, wherever it stands. -/
theorem takeDue?_of_perm {ms as bs : List OpenMerge} {m : OpenMerge} (hp : ms.Perm (as ++ m :: bs))
    (hm : m.written = false) (ho : ∀ n ∈ as ++ bs, n.written = true ∨ n.column ≠ m.column) :
    ∃ ms', takeDue? m.column ms = some (m, ms') ∧ ms'.Perm (as ++ { m with written := true } :: bs) := by
  rcases takeDue?_cases m.column ms with ⟨cs, n, ds, rfl, h1, h2, h3⟩ | ⟨-, h2⟩
  · have hn : n = m := by
      have : n ∈ as ++ m :: bs := hp.mem_iff.1 (List.mem_append_right _ List.mem_cons_self)
      rcases List.mem_cons.1 (List.perm_middle.mem_iff.1 this) with h | h
      · exact h
      · rcases ho n h with h | h
        · rw [h1] at h
          cases h
        · exact absurd h2 h
    subst hn
    have hrest : (cs ++ ds).Perm (as ++ bs) :=
      (List.perm_cons n).1 (List.perm_middle.symm.trans (hp.trans List.perm_middle))
    exact ⟨_, h3, List.perm_middle.trans ((hrest.cons _).trans List.perm_middle.symm)⟩
  · exact absurd ⟨hm, rfl⟩ (h2 m (hp.mem_iff.2 (List.mem_append_right _ List.mem_cons_self)))

/-! ## The merges of a picture -/

variable {below : List (List Cell)}

/-- The merge of a continuation, the given rows being below its row. -/
def ofContinuation (below : List (List Cell)) (written : Bool) (q : Nat × Cell) : Option OpenMerge :=
  if q.2.kind.isContinuation then some ⟨q.1, q.2.columnSpan, depth q.1 below + 1, written⟩ else none

/-- The merge that a cell owes to the next row. -/
def going (below : List (List Cell)) (q : Nat × Cell) : Option OpenMerge :=
  if 0 < depth q.1 below then some ⟨q.1, q.2.columnSpan, depth q.1 below, false⟩ else none

/-- The merge that a new cell owes to the next row. -/
def starting (below : List (List Cell)) (q : Nat × Cell) : Option OpenMerge :=
  if q.2.kind.isContinuation then none else going below q

theorem column_ofContinuation {written : Bool} {q : Nat × Cell} {m : OpenMerge}
    (h : ofContinuation below written q = some m) : m.column = q.1 := by
  unfold ofContinuation at h
  split at h
  · cases h
    rfl
  · cases h

theorem ofContinuation_of_continuation {q : Nat × Cell} (h : q.2.kind = .continuation) (written : Bool) :
    ofContinuation below written q = some ⟨q.1, q.2.columnSpan, depth q.1 below + 1, written⟩ := by
  rw [ofContinuation, h]
  rfl

theorem ofContinuation_of_new {q : Nat × Cell} (h : q.2.kind.isContinuation = false) (written : Bool) :
    ofContinuation below written q = none := by
  rw [ofContinuation, h]
  rfl

theorem written_of_mem {written : Bool} {ps : List (Nat × Cell)} {m : OpenMerge}
    (hm : m ∈ ps.filterMap (ofContinuation below written)) : m.written = written := by
  obtain ⟨q, -, hq⟩ := List.mem_filterMap.1 hm
  unfold ofContinuation at hq
  split at hq
  · cases hq
    rfl
  · cases hq

theorem column_going {q : Nat × Cell} {m : OpenMerge} (h : going below q = some m) : m.column = q.1 := by
  unfold going at h
  split at h
  · cases h
    rfl
  · cases h

/-- One row on, the merge of a continuation is what its cell owes to the next row. -/
theorem nextRow?_ofContinuation (written : Bool) (q : Nat × Cell) :
    (ofContinuation below written q).bind nextRow? = if q.2.kind.isContinuation then going below q else none := by
  unfold ofContinuation
  split
  · rw [Option.bind_some, nextRow?, going]
    by_cases h : 0 < depth q.1 below
    · rw [if_pos h, if_pos (by dsimp only; omega)]
      rfl
    · rw [if_neg h, if_neg (by dsimp only; omega)]
  · rfl

/-- Merges at the columns of a row's cells come in the order of their columns. -/
theorem pairwise_filterMap_placed {f : Nat × Cell → Option OpenMerge} (hf : ∀ q m, f q = some m → m.column = q.1)
    {s : Nat} {cs : List Cell} (hpos : ∀ c ∈ cs, 0 < c.columnSpan) :
    ((placed s cs).filterMap f).Pairwise fun a b => a.column < b.column := by
  refine List.pairwise_filterMap.2 ((pairwise_placed s cs).imp_of_mem fun {p q} hp _ h a ha b hb => ?_)
  have h0 := hpos p.2 (bounds_of_mem_placed hp).1
  rw [hf p a ha, hf q b hb]
  omega

/-- The merges behind the pen and those before it come in the order of their columns. -/
theorem pairwise_ofContinuation {done rem : List Cell} (hpos : ∀ c ∈ done ++ rem, 0 < c.columnSpan) :
    ((placed 0 done).filterMap (ofContinuation below true) ++
      (placed (width done) rem).filterMap (ofContinuation below false)).Pairwise fun a b => a.column < b.column := by
  have hdone := fun c hc => hpos c (List.mem_append_left rem hc)
  have hrem := fun c hc => hpos c (List.mem_append_right done hc)
  refine List.pairwise_append.2 ⟨pairwise_filterMap_placed (fun _ _ => column_ofContinuation) hdone,
    pairwise_filterMap_placed (fun _ _ => column_ofContinuation) hrem, fun a ha b hb => ?_⟩
  obtain ⟨q, hq, ha⟩ := List.mem_filterMap.1 ha
  obtain ⟨r, hr, hb⟩ := List.mem_filterMap.1 hb
  have h1 := bounds_of_mem_placed hq
  have h2 := (bounds_of_mem_placed hr).2.1
  have h3 := hdone q.2 h1.1
  rw [column_ofContinuation ha, column_ofContinuation hb]
  omega

theorem perm_filterMap_append {α β : Type} {f g h : α → Option β} : ∀ {l : List α},
    (∀ a ∈ l, (f a = h a ∧ g a = none) ∨ (f a = none ∧ g a = h a)) →
    (l.filterMap f ++ l.filterMap g).Perm (l.filterMap h)
  | [], _ => List.Perm.refl _
  | a :: l, hl => by
    have ih := perm_filterMap_append fun b hb => hl b (List.mem_cons_of_mem _ hb)
    rcases hl a List.mem_cons_self with ⟨h1, h2⟩ | ⟨h1, h2⟩
    · rw [List.filterMap_cons_none h2]
      cases ha : h a with
      | none => rwa [List.filterMap_cons_none (h1.trans ha), List.filterMap_cons_none ha]
      | some b =>
        rw [List.filterMap_cons_some (h1.trans ha), List.filterMap_cons_some ha]
        exact ih.cons b
    · rw [List.filterMap_cons_none h1]
      cases ha : h a with
      | none => rwa [List.filterMap_cons_none (h2.trans ha), List.filterMap_cons_none ha]
      | some b =>
        rw [List.filterMap_cons_some (h2.trans ha), List.filterMap_cons_some ha]
        exact List.perm_middle.trans (ih.cons b)

theorem exists_ofContinuation {row next : List Cell} (hr : ∀ c ∈ row, 0 < c.columnSpan) (ha : Aligned row next)
    {p : Nat × Cell} {m : OpenMerge} (hp : p ∈ placed 0 row) (hm : going (next :: below) p = some m) :
    ∃ q ∈ placed 0 next, ofContinuation below false q = some m := by
  unfold going at hm
  split at hm
  · rename_i hd
    cases hm
    rw [depth] at hd ⊢
    split at hd
    · rename_i hany
      obtain ⟨q, hq, hc⟩ := List.any_eq_true.1 hany
      simp only [continuesAt, Bool.and_eq_true, beq_iff_eq] at hc
      obtain ⟨c, hcm, hcs, -⟩ := ha q hq hc.2
      have hpc := eq_of_mem_placed hr hp hcm hc.1.symm
      exact ⟨q, hq, by rw [if_pos hany, ofContinuation, if_pos hc.2, hc.1, hpc, hcs]⟩
    · cases hd
  · cases hm

theorem exists_going {row next : List Cell} (ha : Aligned row next) {q : Nat × Cell} {m : OpenMerge}
    (hq : q ∈ placed 0 next) (hm : ofContinuation below false q = some m) :
    ∃ p ∈ placed 0 row, going (next :: below) p = some m := by
  unfold ofContinuation at hm
  split at hm
  · rename_i hc
    cases hm
    obtain ⟨c, hcm, hcs, -⟩ := ha q hq hc
    have hany : (placed 0 next).any (continuesAt q.1) = true :=
      List.any_eq_true.2 ⟨q, hq, by simp [continuesAt, hc]⟩
    have hd : depth q.1 (next :: below) = depth q.1 below + 1 := by rw [depth, if_pos hany]
    exact ⟨(q.1, c), hcm, by rw [going, hd, if_pos (Nat.succ_pos _), hcs]⟩
  · cases hm

/-- **What a row owes to the next row is what the continuations of the next row are.** -/
theorem perm_going {row next : List Cell} (hr : ∀ c ∈ row, 0 < c.columnSpan) (hn : ∀ c ∈ next, 0 < c.columnSpan)
    (ha : Aligned row next) :
    ((placed 0 row).filterMap (going (next :: below))).Perm ((placed 0 next).filterMap (ofContinuation below false)) := by
  have h1 := pairwise_filterMap_placed (f := going (next :: below)) (fun _ _ => column_going) (s := 0) hr
  have h2 := pairwise_filterMap_placed (f := ofContinuation below false) (fun _ _ => column_ofContinuation) (s := 0) hn
  refine (List.perm_ext_iff_of_nodup (h1.imp fun h e => ?_) (h2.imp fun h e => ?_)).2 fun m => ?_
  · rw [e] at h
    exact Nat.lt_irrefl _ h
  · rw [e] at h
    exact Nat.lt_irrefl _ h
  rw [List.mem_filterMap, List.mem_filterMap]
  constructor
  · rintro ⟨p, hp, hm⟩
    exact exists_ofContinuation hr ha hp hm
  · rintro ⟨q, hq, hm⟩
    exact exists_going ha hq hm

theorem going_nil (row : List Cell) : (placed 0 row).filterMap (going []) = [] :=
  List.filterMap_eq_nil_iff.2 fun _ _ => rfl

end OpenMerge
end Gridmark
