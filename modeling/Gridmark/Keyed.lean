import Gridmark.Text.Basic
/-!
# Keyed — lists in the order of their keys

Where elements are looked up by a key and listed in its order they are kept that way: keys increase by code points, and so
each key occurs once.  Putting an element in keeps the order (`ordered_put`), and a look-up then sees it and nothing else
has changed (`find?_put`).  There is one such list with given elements (`eq_of_mem_iff`).
-/
namespace Gridmark
namespace Keyed

variable {α : Type} {key : α → Text}

/-- The list with an element at its place, where it replaces the one with its key. -/
def put (key : α → Text) (a : α) : List α → List α
  | [] => [a]
  | b :: bs =>
    if key a < key b then a :: b :: bs
    else if key a = key b then a :: bs
    else b :: put key a bs

def find? (key : α → Text) (k : Text) (as : List α) : Option α := as.find? fun a => key a = k

def Ordered (key : α → Text) (as : List α) : Prop := as.Pairwise fun a b => key a < key b

theorem lt_of_not_lt {s t : Text} (h : ¬s < t) (hne : s ≠ t) : t < s :=
  List.not_le.1 fun hle => hne (List.le_antisymm hle (List.not_lt.1 h))

theorem mem_put {a b : α} : ∀ {as : List α}, b ∈ put key a as → b = a ∨ b ∈ as
  | [], h => by simpa [put] using h
  | c :: cs, h => by
    unfold put at h
    split at h
    · simpa using h
    · split at h
      · exact (List.mem_cons.1 h).imp id (List.mem_cons_of_mem _)
      · rcases List.mem_cons.1 h with h | h
        · exact .inr (h ▸ List.mem_cons_self)
        · exact (mem_put h).imp id (List.mem_cons_of_mem _)

theorem ordered_put (a : α) : ∀ {as : List α}, Ordered key as → Ordered key (put key a as)
  | [], _ => List.pairwise_singleton _ _
  | b :: bs, h => by
    have ⟨hb, hbs⟩ := List.pairwise_cons.1 h
    unfold put
    split
    · next hlt =>
      refine List.pairwise_cons.2 ⟨fun c hc => ?_, h⟩
      rcases List.mem_cons.1 hc with rfl | hc
      · exact hlt
      · exact List.lt_trans hlt (hb c hc)
    · next hlt =>
      split
      · next heq => exact List.pairwise_cons.2 ⟨fun c hc => heq ▸ hb c hc, hbs⟩
      · next hne =>
        refine List.pairwise_cons.2 ⟨fun c hc => ?_, ordered_put a hbs⟩
        rcases mem_put hc with rfl | hc
        · exact lt_of_not_lt hlt hne
        · exact hb c hc

theorem ordered_filter (p : α → Bool) {as : List α} (h : Ordered key as) : Ordered key (as.filter p) :=
  List.Pairwise.filter p h

theorem find?_put (a : α) (k : Text) : ∀ {as : List α},
    find? key k (put key a as) = if key a = k then some a else find? key k as
  | [] => by by_cases h : key a = k <;> simp [find?, put, h]
  | b :: bs => by
    have ih : find? key k (put key a bs) = if key a = k then some a else find? key k bs := find?_put a k
    unfold find? at ih ⊢
    unfold put
    split
    · by_cases h : key a = k <;> simp [h]
    · split
      · next heq => by_cases h : key a = k <;> simp [h, ← heq]
      · next hne =>
        by_cases hb : key b = k
        · have : key a ≠ k := fun h => hne (h.trans hb.symm)
          simp [hb, this]
        · simp [hb, ih]

theorem eq_of_mem_iff : ∀ {as bs : List α}, Ordered key as → Ordered key bs → (∀ a, a ∈ as ↔ a ∈ bs) → as = bs
  | [], [], _, _, _ => rfl
  | [], b :: bs, _, _, h => absurd ((h b).2 List.mem_cons_self) List.not_mem_nil
  | a :: as, [], _, _, h => absurd ((h a).1 List.mem_cons_self) List.not_mem_nil
  | a :: as, b :: bs, ha, hb, h => by
    have ⟨ha, has⟩ := List.pairwise_cons.1 ha
    have ⟨hb, hbs⟩ := List.pairwise_cons.1 hb
    have hab : a = b := by
      rcases List.mem_cons.1 ((h a).1 List.mem_cons_self) with hab | hab
      · exact hab
      · rcases List.mem_cons.1 ((h b).2 List.mem_cons_self) with hba | hba
        · exact hba.symm
        · exact absurd (List.lt_trans (ha b hba) (hb a hab)) (List.lt_irrefl _)
    subst hab
    refine congrArg (a :: ·) (eq_of_mem_iff has hbs fun c => ⟨fun hc => ?_, fun hc => ?_⟩)
    · rcases List.mem_cons.1 ((h c).1 (List.mem_cons_of_mem _ hc)) with rfl | hc'
      · exact absurd (ha c hc) (List.lt_irrefl _)
      · exact hc'
    · rcases List.mem_cons.1 ((h c).2 (List.mem_cons_of_mem _ hc)) with rfl | hc'
      · exact absurd (hb c hc) (List.lt_irrefl _)
      · exact hc'

end Keyed
end Gridmark
