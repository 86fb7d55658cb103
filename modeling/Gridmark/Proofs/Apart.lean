import Gridmark.Proofs.Walk
/-!
# Apart — texts that commas keep apart

Texts with a comma and a blank between every two of them split back into themselves (`splitTop_joinWith`) once each is
*sealed*: none of its commas is at the top level, and it leaves no quote or bracket open.  The last one need not be
closed, for nothing follows it.  Whether a text is sealed shows in how it splits with another behind it
(`sealed_of_splitTop`).
-/
namespace Gridmark
namespace Split

open Token (scan)
open Text (trim joinWith)

/-- No comma of the text is at the top level. -/
def Uncut (t : Text) : Prop := ∃ s, walk? .comma .initial t = some s

/-- Nor does the text leave a quote or a bracket open, so that a comma behind it is at the top level. -/
def Sealed (t : Text) : Prop := ∃ s, walk? .comma .initial t = some s ∧ s.atTop = true

/-- All texts are sealed but the last, which has no cut. -/
def Apart : List Text → Prop
  | [] => True
  | [t] => Uncut t
  | t :: u :: ts => Sealed t ∧ Apart (u :: ts)

theorem Sealed.uncut {t : Text} (h : Sealed t) : Uncut t := h.imp fun _ h => h.1

theorem apart_of_sealed : ∀ {ts : List Text}, (∀ t ∈ ts, Sealed t) → Apart ts
  | [], _ => trivial
  | [t], h => (h t List.mem_cons_self).uncut
  | t :: _ :: _, h => ⟨h t List.mem_cons_self, apart_of_sealed fun v hv => h v (List.mem_cons_of_mem _ hv)⟩

theorem splitTopOnce?_of_sealed {a : Text} (h : Sealed a) (b : Text) :
    splitTopOnce? .comma (a ++ ',' :: b) = some (a, b) := by
  obtain ⟨s, hs, ht⟩ := h
  unfold splitTopOnce?
  rw [show (',' : Char) = Delimiter.comma.char from rfl, firstCut?_delimiter hs ht, Option.map_some,
    Token.untokenize_scan]

theorem Uncut.concat_blank {t : Text} (h : Uncut t) : Uncut (t ++ [' ']) := by
  obtain ⟨s, hs⟩ := h
  exact ⟨⟨s.depth, s.quoting, false⟩, by
    rw [walk?_append (joint_of_head (by decide) (by decide)), hs, Option.bind_some, walk?_blank]; rfl⟩

theorem map_trim_prepend_blank {ps : List Text} (h : ps ≠ []) : (prepend [' '] ps).map trim = ps.map trim := by
  cases ps with
  | nil => exact absurd rfl h
  | cons p ps =>
    rw [prepend, List.map_cons, List.map_cons, List.singleton_append, Text.trim_cons_blank (by decide)]

theorem map_trim_pieces_blank {d : Delimiter} (t : Text) :
    (pieces d .initial (scan (' ' :: t))).map trim = (pieces d .initial (scan t)).map trim := by
  have h : walk? d .initial [' '] = some .initial := walk?_blank _ _ []
  rw [show ' ' :: t = [' '] ++ t from rfl, pieces_of_walk h (joint_of_last (by decide) (by decide)),
    map_trim_prepend_blank (pieces_ne_nil _ _ _)]

/-- What is put behind the last text may be a blank. -/
theorem map_trim_pieces_joinWith {e : Text} (he : e = [] ∨ e = [' ']) : ∀ {ts : List Text}, ts ≠ [] → Apart ts →
    (pieces .comma .initial (scan (joinWith [',', ' '] ts ++ e))).map trim = ts.map trim
  | [], h, _ => absurd rfl h
  | [t], _, h => by
    rcases he with rfl | rfl
    · obtain ⟨s, hs⟩ := h
      rw [joinWith, List.append_nil, pieces_of_walk_end hs]
    · obtain ⟨s, hs⟩ := h.concat_blank
      rw [joinWith, pieces_of_walk_end hs, List.map_cons, Text.trim_concat_blank (by decide)]
      rfl
  | t :: u :: ts, _, h => by
    obtain ⟨⟨s, hs, ht⟩, h⟩ := h
    have hj : joinWith [',', ' '] (t :: u :: ts) ++ e =
        t ++ Delimiter.comma.char :: ' ' :: (joinWith [',', ' '] (u :: ts) ++ e) := by
      simp [joinWith, Delimiter.char]
    rw [hj, pieces_delimiter hs ht, List.map_cons, map_trim_pieces_blank,
      map_trim_pieces_joinWith he (List.cons_ne_nil u ts) h]
    rfl

theorem dropEmptyEnd_eq_self : ∀ {ts : List Text}, (∀ t ∈ ts.getLast?, t ≠ []) → dropEmptyEnd ts = ts
  | [], _ => rfl
  | [t], h => by simp [dropEmptyEnd, h t rfl]
  | t :: u :: ts, h => by
    rw [List.getLast?_cons_cons] at h
    rw [dropEmptyEnd, dropEmptyEnd_eq_self h]

theorem length_dropEmptyEnd_le : ∀ ts : List Text, (dropEmptyEnd ts).length ≤ ts.length
  | [] => Nat.le_refl _
  | t :: ts => by
    have := length_dropEmptyEnd_le ts
    rw [dropEmptyEnd]
    split
    · split <;> simp
    · rename_i h
      rw [h] at this
      simpa using this

theorem head_of_dropEmptyEnd {t u : Text} {ts us : List Text} (h : dropEmptyEnd (t :: ts) = u :: us) : t = u := by
  rw [dropEmptyEnd] at h
  split at h
  · split at h
    · cases h
    · exact (List.cons.inj h).1
  · exact (List.cons.inj h).1

/-- **Texts kept apart split back into themselves**, trimmed, with blanks around the row or without. -/
theorem splitTop_joinWith {ts : List Text} (hne : ts ≠ []) (h : Apart ts) (hl : ∀ t ∈ ts.getLast?, trim t ≠ [])
    {e : Text} (he : e = [] ∨ e = [' ']) : splitTop .comma (e ++ (joinWith [',', ' '] ts ++ e)) = ts.map trim := by
  have hp : (pieces .comma .initial (scan (e ++ (joinWith [',', ' '] ts ++ e)))).map trim = ts.map trim := by
    rcases he with rfl | rfl
    · rw [List.nil_append, map_trim_pieces_joinWith (.inl rfl) hne h]
    · rw [List.singleton_append, map_trim_pieces_blank, map_trim_pieces_joinWith (.inr rfl) hne h]
  unfold splitTop
  rw [hp, dropEmptyEnd_eq_self]
  intro t ht
  rw [List.getLast?_map] at ht
  obtain ⟨u, hu, rfl⟩ := Option.map_eq_some_iff.1 ht
  exact hl u hu

/-- The first piece of a text with a cut in it is shorter than the text. -/
theorem splitTop_ne_of_cut {t : Text} (h : walk? .comma .initial t = none) (b : Text) (us : List Text) :
    splitTop .comma (t ++ b) ≠ t :: us := by
  intro hs
  obtain ⟨u, v, s, rfl, hu, ht⟩ := exists_of_walk?_eq_none h
  unfold splitTop at hs
  rw [List.append_assoc, List.cons_append, pieces_delimiter hu ht, List.map_cons] at hs
  have := congrArg List.length (head_of_dropEmptyEnd hs)
  have := Text.length_trim_le u
  simp only [List.length_append, List.length_cons] at *
  omega

/-- A sealed text splits off whole from a text behind it. -/
theorem splitTop_of_sealed {t : Text} (h : Sealed t) (ht : trim t = t) :
    splitTop .comma (t ++ [',', ' ', 'x']) = [t, ['x']] := by
  have hx : trim ['x'] = ['x'] := by decide
  have hsplit := splitTop_joinWith (List.cons_ne_nil t [['x']]) ⟨h, .initial, rfl⟩ (by simp [hx]) (.inl rfl)
  simpa [joinWith, ht, hx] using hsplit

/-- **A text that splits off whole from a text behind it is sealed.** -/
theorem sealed_of_splitTop {t : Text} (h : splitTop .comma (t ++ [',', ' ', 'x']) = [t, ['x']]) :
    Sealed t ∧ trim t = t := by
  cases hw : walk? .comma .initial t with
  | none => exact absurd h (splitTop_ne_of_cut hw _ _)
  | some s =>
    by_cases ht : s.atTop = true
    · have hp : splitTop .comma (t ++ [',', ' ', 'x']) = [trim t, ['x']] := by
        unfold splitTop
        rw [show [',', ' ', 'x'] = Delimiter.comma.char :: [' ', 'x'] from rfl, pieces_delimiter hw ht, List.map_cons,
          map_trim_pieces_blank]
        rfl
      rw [hp] at h
      exact ⟨⟨s, hw, ht⟩, (List.cons.inj h).1⟩
    · have hc : walk? .comma s [',', ' ', 'x'] = some ⟨s.depth, s.quoting, false⟩ := by
        rw [walk?_cons (fun _ h => absurd h (by decide)) (fun _ h => absurd h (by decide)), if_neg (fun hc => ht hc.2),
          walk?_blank]
        rw [walk?_cons (fun _ h => absurd h (by decide)) (fun _ h => absurd h (by decide)),
          if_neg (fun hc => absurd hc.1 (by decide)), show TokenKind.ofChar ',' = .comma from rfl,
          show TokenKind.ofChar 'x' = .plain from rfl, SplitState.step_comma, SplitState.step_plain]
        rfl
      have hp : walk? .comma .initial (t ++ [',', ' ', 'x']) = some ⟨s.depth, s.quoting, false⟩ := by
        rw [walk?_append (joint_of_head (by decide) (by decide)), hw, Option.bind_some, hc]
      unfold splitTop at h
      rw [pieces_of_walk_end hp, List.map_singleton] at h
      have := length_dropEmptyEnd_le [trim (t ++ [',', ' ', 'x'])]
      rw [h] at this
      simp at this

theorem uncut_of_splitTop {t : Text} (h : splitTop .comma t = [t]) : Uncut t ∧ trim t = t ∧ t ≠ [] := by
  cases hw : walk? .comma .initial t with
  | none => exact absurd (by rwa [List.append_nil]) (splitTop_ne_of_cut hw [] [])
  | some s =>
    unfold splitTop at h
    rw [pieces_of_walk_end hw, List.map_cons, List.map_nil] at h
    have ht := head_of_dropEmptyEnd h
    refine ⟨⟨s, hw⟩, ht, ?_⟩
    rintro rfl
    exact absurd h (by decide)

end Split
end Gridmark
