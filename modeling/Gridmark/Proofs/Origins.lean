import Gridmark.Proofs.Elements
/-!
# Origins — what an element that was read is made of

Whatever an element that a line writes is made of stands in the line: its kind, but for the case of its letters, its keys and
what it does when it is activated (`ReadFrom`).  So it is written on one line again, and if this line reads as the element
then it does so wherever it stands on its own.  Values need no such care, for a line feed in a value is written out.
-/
namespace Gridmark

open Text (trim trimStart)

namespace ElementLine

/-! ## Kinds -/

theorem toNat_lt_of_isKindRest {c : Char} (h : isKindRest c = true) : c.toNat < 128 := by
  simp only [isKindRest, Char.isAlphanum, Char.isAlpha, Char.isUpper, Char.isLower, Char.isDigit, Bool.or_eq_true,
    Bool.and_eq_true, decide_eq_true_eq, beq_iff_eq] at h
  rcases h with ((((⟨-, h⟩ | ⟨-, h⟩) | ⟨-, h⟩)) | rfl) | rfl
  · exact Nat.lt_of_le_of_lt (UInt32.le_iff_toNat_le.1 h) (by decide)
  · exact Nat.lt_of_le_of_lt (UInt32.le_iff_toNat_le.1 h) (by decide)
  · exact Nat.lt_of_le_of_lt (UInt32.le_iff_toNat_le.1 h) (by decide)
  · decide
  · decide

theorem isKindChar_lowerChar {c : Char} (h : isKindRest c = true) :
    isKindChar (Text.lowerChar c) = true ∧ (isKindStart c = true →
      ((Text.lowerChar c).isLower || Text.lowerChar c == '_') = true) := by
  have hall : ∀ n < 128, isKindRest (Char.ofNat n) = true → isKindChar (Text.lowerChar (Char.ofNat n)) = true ∧
      (isKindStart (Char.ofNat n) = true →
        ((Text.lowerChar (Char.ofNat n)).isLower || Text.lowerChar (Char.ofNat n) == '_') = true) := by decide
  have := hall c.toNat (toNat_lt_of_isKindRest h)
  rw [Char.ofNat_toNat] at this
  exact this h

theorem lowerAfter_eq_map : ∀ {t : Text} (before : Text), (∀ c ∈ t, isKindRest c = true) →
    Text.lowerAfter before t = t.map Text.lowerChar
  | [], _, _ => rfl
  | c :: t, before, h => by
    have hc := h c List.mem_cons_self
    rw [Text.lowerAfter, lowerAfter_eq_map _ fun d hd => h d (List.mem_cons_of_mem _ hd), List.map_cons]
    · rintro rfl
      exact absurd hc (by decide)
    · rintro rfl
      exact absurd hc (by decide)

theorem isKind_lowercase {c : Char} {t : Text} (hc : isKindStart c = true) (ht : ∀ d ∈ t, isKindRest d = true) :
    IsKind (Text.lowercase (c :: t)) := by
  have hrest : isKindRest c = true := by
    revert hc
    unfold isKindStart isKindRest Char.isAlphanum
    cases c.isAlpha <;> simp +contextual
  have hall : ∀ d ∈ c :: t, isKindRest d = true := fun d hd => (List.mem_cons.1 hd).elim (· ▸ hrest) (ht d)
  rw [Text.lowercase, lowerAfter_eq_map [] hall, List.map_cons]
  refine ⟨(isKindChar_lowerChar hrest).2 hc, fun d hd => ?_⟩
  obtain ⟨a, ha, rfl⟩ := List.mem_map.1 hd
  exact (isKindChar_lowerChar (ht a ha)).1

/-! ## Parts of a line -/

theorem sublist_of_afterColon? {t r : Text} (h : afterColon? t = some r) : r.Sublist t := by
  unfold afterColon? at h
  split at h
  · rename_i rest hs
    cases h
    have h1 : (':' :: rest).Sublist t := hs ▸ List.dropWhile_sublist _
    exact (List.dropWhile_sublist _).trans ((List.sublist_cons_self _ _).trans h1)
  · cases h

theorem of_head? {line kind rest : Text} (h : head? line = some (kind, rest)) :
    IsKind (Text.lowercase kind) ∧ rest.Sublist line := by
  unfold head? at h
  split at h
  · cases h
  · rename_i c t
    split at h
    · rename_i hc
      obtain ⟨r, hr, he⟩ := Option.map_eq_some_iff.1 h
      cases he
      refine ⟨isKind_lowercase hc fun d hd => List.all_eq_true.1 List.all_takeWhile d hd, ?_⟩
      exact (sublist_of_afterColon? hr).trans ((List.dropWhile_sublist _).trans (List.sublist_cons_self c t))
    · cases h

theorem sublist_of_firstCut? {d : Delimiter} {p : Text × List Token} : ∀ {ts : List Token} {s : SplitState},
    Split.firstCut? d s ts = some p → (p.1 ++ Token.untokenize p.2).Sublist (Token.untokenize ts)
  | [], _, h => by cases h
  | t :: ts, s, h => by
    have hu : Token.untokenize (t :: ts) = t.text ++ Token.untokenize ts := rfl
    rw [Split.firstCut?] at h
    rw [hu]
    split at h
    · cases h
      exact List.sublist_append_right _ _
    · obtain ⟨q, hq, rfl⟩ := Option.map_eq_some_iff.1 h
      rw [List.append_assoc]
      exact (sublist_of_firstCut? hq).append_left _

theorem sublist_of_splitTopOnce? {d : Delimiter} {t a b : Text} (h : splitTopOnce? d t = some (a, b)) :
    a.Sublist t ∧ b.Sublist t := by
  obtain ⟨p, hp, he⟩ := Option.map_eq_some_iff.1 h
  cases he
  have hs := sublist_of_firstCut? hp
  rw [Token.untokenize_scan] at hs
  exact ⟨(List.sublist_append_left _ _).trans hs, (List.sublist_append_right _ _).trans hs⟩

end ElementLine

namespace Properties

theorem sublist_of_splitFirst? {c : Char} {t : Text} : ∀ {p : Text × Text}, Text.splitFirst? c t = some p →
    p.1.Sublist t := by
  induction t with
  | nil => exact fun h => by cases h
  | cons x t ih =>
    intro p h
    rw [Text.splitFirst?] at h
    split at h
    · cases h
      exact List.nil_sublist _
    · obtain ⟨q, hq, rfl⟩ := Option.map_eq_some_iff.1 h
      exact (ih hq).cons_cons x

theorem mem_of_mem_ofList {p : Text × Text} {es : List (Text × Text)} (h : p ∈ (ofList es).entries) : p ∈ es := by
  induction es using List.reverseRecOn with
  | nil => cases h
  | append_singleton es e ih =>
    rw [ofList_concat] at h
    rcases Keyed.mem_put h with rfl | h
    · exact List.mem_append_right _ List.mem_cons_self
    · exact List.mem_append_left _ (ih h)

theorem sublist_of_mem_read {t : Text} {p : Text × Text} (h : p ∈ (read t).entries) : p.1.Sublist t := by
  obtain ⟨fragment, hf, hp⟩ := List.mem_filterMap.1 (mem_of_mem_ofList h)
  unfold readEntry? at hp
  split at hp
  · rename_i key value hs
    split at hp
    · cases hp
    · cases hp
      exact (Text.trim_sublist key).trans ((sublist_of_splitFirst? hs).trans (Split.sublist_of_mem_splitTop hf))
  · cases hp

end Properties

namespace ElementLine

/-- The element is one that a line holds, and its parts stand in the text. -/
structure ReadFrom (t : Text) (e : Element) : Prop where
  kind : IsKind e.kind
  keys : ∀ p ∈ e.properties.entries, p.1.Sublist t
  tagged : e.payload.Tagged
  payload : ∀ u, e.payload = .action u ∨ e.payload = .input u → u.Sublist t

theorem ReadFrom.mono {t u : Text} {e : Element} (h : ReadFrom t e) (hs : t.Sublist u) : ReadFrom u e :=
  ⟨h.kind, fun p hp => (h.keys p hp).trans hs, h.tagged, fun v hv => (h.payload v hv).trans hs⟩

theorem ReadFrom.takeRationale {t : Text} {e : Element} (h : ReadFrom t e) : ReadFrom t e.takeRationale := by
  unfold Element.takeRationale
  split
  · exact ⟨h.kind, fun p hp => h.keys p (List.mem_filter.1 hp).1, h.tagged, h.payload⟩
  · exact h

theorem boundPayload_cases (t : Text) : (∃ u, boundPayload t = .action u ∧ u.Sublist t) ∨ boundPayload t = .input t := by
  unfold boundPayload
  split
  · rename_i trigger hp
    refine .inl ⟨_, rfl, (Text.trim_sublist trigger).trans ?_⟩
    obtain ⟨r, hr, ht⟩ := Option.bind_eq_some_iff.1 hp
    rw [eq_append_of_after? hr]
    exact (sublist_of_afterColon? ht).trans (List.sublist_append_right _ _)
  · exact .inr rfl

theorem readFrom_of_body? {kind t : Text} {e : Element} (hk : IsKind (Text.lowercase kind)) (h : body? kind t = some e) :
    ReadFrom t e := by
  unfold body? at h
  split at h
  · rename_i inner hi
    have hinner := GridRow.sublist_of_between? hi
    unfold bound? at h
    split at h
    · cases h
    · rename_i list suffix hs
      obtain ⟨hlist, hsuffix⟩ := sublist_of_splitTopOnce? hs
      obtain ⟨inside, hr, rfl⟩ := Option.map_eq_some_iff.1 h
      have hround := ((GridRow.sublist_of_between? hr).trans (Text.trim_sublist list)).trans (hlist.trans hinner)
      have htail := (Text.trim_sublist suffix).trans (hsuffix.trans hinner)
      refine ⟨hk, fun p hp => (Properties.sublist_of_mem_read hp).trans hround, ?_, fun u hu => ?_⟩
      · rcases boundPayload_cases (trim suffix) with ⟨u, hu, -⟩ | hu
        · exact (congrArg Payload.Tagged hu).mpr trivial
        · exact (congrArg Payload.Tagged hu).mpr trivial
      · rcases boundPayload_cases (trim suffix) with ⟨v, hv, hs⟩ | hv
        · rcases hu with hu | hu
          · cases hv.symm.trans hu
            exact hs.trans htail
          · cases hv.symm.trans hu
        · rcases hu with hu | hu
          · cases hv.symm.trans hu
          · cases hv.symm.trans hu
            exact htail
  · obtain ⟨inside, hr, rfl⟩ := Option.map_eq_some_iff.1 h
    have hround := GridRow.sublist_of_between? hr
    refine ⟨hk, fun p hp => (Properties.sublist_of_mem_read hp).trans hround, trivial, fun u hu => ?_⟩
    rcases hu with hu | hu <;> cases hu

/-- **Everything in an element but its values stands in the line it was read from.** -/
theorem readFrom_of_read? {line : Text} {e : Element} (h : read? line = some e) : ReadFrom line e := by
  unfold read? at h
  split at h
  · cases h
  · rename_i kind rest hh
    obtain ⟨hk, hrest⟩ := of_head? hh
    obtain ⟨e', he, rfl⟩ := Option.map_eq_some_iff.1 h
    have hs := (Text.trim_sublist rest).trans (hrest.trans (Text.trim_sublist line))
    exact ((readFrom_of_body? hk he).mono hs).takeRationale

/-- An element that was read from one line is written on one line, which is no grid row. -/
theorem ReadFrom.ofText_write_eq {t : Text} {e : Element} (h : ReadFrom t e) (ht : '\n' ∉ t) (o : ReadOptions) :
    SourceLine.ofText o (write e) = [SourceLine.read o (write e)] ∧ GridRow.read? (write e) = none := by
  refine ElementLine.ofText_write_eq h.kind (fun p hp hm => ?_) h.tagged fun u hu hm => ht ((h.payload u hu).mem hm)
  rcases List.mem_append.1 hp with hp | hp
  · exact ht ((h.keys p hp).mem hm)
  · obtain ⟨why, -, rfl⟩ := Option.map_eq_some_iff.1 (Option.mem_toList.1 hp)
    exact Element.isKey_highlightKey.not_mem hm

/-- **An element that was read from one line comes back on its own just when the line it writes reads as it.** -/
theorem ReadFrom.read_write_iff {o : ReadOptions} {t : Text} {e : Element} (h : ReadFrom t e) (ht : '\n' ∉ t)
    (ho : o.isGroupable e.kind = false) :
    (Document.read o (Layout.single e).write).blocks = [.single e] ↔ read? (write e) = some e := by
  obtain ⟨hline, hg⟩ := h.ofText_write_eq ht o
  rw [Document.read_eq, Layout.write_single, hline]
  have hsingle : ∀ {f : Element}, [Layout.single f] = [Layout.single e] → f = e := fun hf => by
    simpa [Layout.single, Cell.ofKind] using hf
  constructor
  · intro hb
    cases hr : read? (write e) with
    | none =>
      rw [SourceLine.read, hg, hr] at hb
      have := h.tagged
      rw [← hsingle hb] at this
      exact this.elim
    | some f =>
      rw [SourceLine.read_eq_of_read? hg hr] at hb
      split at hb
      · have := h.tagged
        rw [← hsingle hb] at this
        exact this.elim
      · rw [hsingle hb]
  · intro hr
    rw [SourceLine.read_eq_of_read? hg hr, ho, if_neg Bool.false_ne_true]
    rfl

end ElementLine
end Gridmark
