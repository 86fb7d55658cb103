import Gridmark.Proofs.Apart
/-!
# Cuts — splitting all at once and cut by cut

Cutting at the first delimiter and then splitting what is left is splitting at all of them, for the state behind a cut is
the state a text starts in (`splitTop_cons_of_cut`).  A fragment is walked on its own as it was walked in its place: the
blanks trimmed off it change neither depth nor quoting.  So a fragment is not cut again, and fragments put together with
delimiters are cut where they were joined (`splitTop_cuts`).
-/
namespace Gridmark
namespace Split

open Token (scan)
open Text (trim trimStart trimEnd isBlank joinWith)

variable {d : Delimiter} {s t : Text}

/-! ## Trimming and walking -/

theorem ofChar_of_isBlank {c : Char} (h : isBlank c = true) : TokenKind.ofChar c = .plain := by
  have hspecial : ∀ x ∈ ['"', '\\', '(', '[', '\x7b', ')', ']', '\x7d', ',', ':', '<', '>'], isBlank x = false := by
    simp [isBlank]
  have hne : ∀ x ∈ ['"', '\\', '(', '[', '\x7b', ')', ']', '\x7d', ',', ':', '<', '>'], c ≠ x := by
    rintro x hx rfl
    simp [hspecial c hx] at h
  simp only [List.forall_mem_cons] at hne
  simp [TokenKind.ofChar, hne]

theorem walk?_cons_blank {c : Char} (h : isBlank c = true) (d : Delimiter) (st : SplitState) (t : Text) :
    walk? d st (c :: t) = walk? d ⟨st.depth, st.quoting, false⟩ t := by
  have hkind := ofChar_of_isBlank h
  rw [walk?_cons, if_neg, hkind, SplitState.step_plain]
  · rintro ⟨hcut, -⟩
    rw [hkind] at hcut
    cases d <;> cases hcut
  · rintro u rfl
    simp [isBlank] at h
  · rintro u rfl
    simp [isBlank] at h

theorem walk?_trimStart (d : Delimiter) (t : Text) : walk? d .initial (trimStart t) = walk? d .initial t := by
  induction t with
  | nil => rfl
  | cons c t ih =>
    by_cases hc : isBlank c = true
    · rw [walk?_cons_blank hc, trimStart, List.dropWhile_cons_of_pos hc]
      exact ih
    · rw [trimStart, List.dropWhile_cons_of_neg hc]

theorem walk?_blanks (d : Delimiter) : ∀ {bs : Text} (st : SplitState), (∀ c ∈ bs, isBlank c = true) →
    ∃ escaped, walk? d st bs = some ⟨st.depth, st.quoting, escaped⟩
  | [], st, _ => ⟨st.escaped, rfl⟩
  | b :: bs, st, h => by
    obtain ⟨hb, hbs⟩ := List.forall_mem_cons.1 h
    rw [walk?_cons_blank hb]
    exact walk?_blanks d _ hbs

/-- **Trimming changes no quoting**: a trimmed text leaves the depth and the quoting that the text leaves. -/
theorem walk?_trim {st : SplitState} (h : walk? d .initial t = some st) :
    ∃ escaped, walk? d .initial (trim t) = some ⟨st.depth, st.quoting, escaped⟩ := by
  obtain ⟨bs, hbs, hu⟩ : ∃ bs : Text, (∀ c ∈ bs, isBlank c = true) ∧ trimStart t = trim t ++ bs := by
    refine ⟨((trimStart t).reverse.takeWhile isBlank).reverse, fun c hc => ?_, ?_⟩
    · exact List.all_eq_true.1 List.all_takeWhile c (List.mem_reverse.1 hc)
    · rw [trim, trimEnd, ← List.reverse_append, List.takeWhile_append_dropWhile, List.reverse_reverse]
  have hjoint : Joint (trim t) bs := by
    have hhead : ∀ c ∈ bs.head?, isBlank c = true := fun c hc => hbs c (List.mem_of_mem_head? hc)
    refine joint_of_head (fun hc => ?_) (fun hc => ?_) <;> simpa [isBlank] using hhead _ hc
  rw [← walk?_trimStart, hu, walk?_append hjoint] at h
  obtain ⟨mid, hmid, hend⟩ := Option.bind_eq_some_iff.1 h
  obtain ⟨escaped, hblank⟩ := walk?_blanks d mid hbs
  obtain rfl := Option.some.inj (hblank.symm.trans hend)
  exact ⟨mid.escaped, hmid⟩

/-! ## The first cut -/

/-- **A text has no cut, or it has a first one**, behind which it is split as a text of its own. -/
theorem splitTopOnce?_cases (d : Delimiter) (s : Text) :
    (splitTopOnce? d s = none ∧ (∃ st, walk? d .initial s = some st) ∧ pieces d .initial (scan s) = [s]) ∨
      ∃ l r, splitTopOnce? d s = some (l, r) ∧ s = l ++ d.char :: r ∧
        (∃ st, walk? d .initial l = some st ∧ st.atTop = true) ∧
        pieces d .initial (scan s) = l :: pieces d .initial (scan r) := by
  cases hw : walk? d .initial s with
  | some st =>
    refine .inl ⟨?_, ⟨st, rfl⟩, pieces_of_walk_end hw⟩
    have hcut := firstCut?_of_walk hw (joint_of_head (b := []) (by simp) (by simp))
    rw [List.append_nil] at hcut
    rw [splitTopOnce?, hcut]
    rfl
  | none =>
    obtain ⟨l, r, st, rfl, hl, htop⟩ := exists_of_walk?_eq_none hw
    refine .inr ⟨l, r, ?_, rfl, ⟨st, hl, htop⟩, pieces_delimiter hl htop r⟩
    rw [splitTopOnce?, firstCut?_delimiter hl htop, Option.map_some, Token.untokenize_scan]

theorem splitTopOnce?_eq_none {st : SplitState} (h : walk? d .initial s = some st) : splitTopOnce? d s = none := by
  rcases splitTopOnce?_cases d s with ⟨hnone, -⟩ | ⟨l, r, -, rfl, ⟨st', hl, htop⟩, -⟩
  · exact hnone
  · have hcut : walk? d st' (d.char :: r) = none := by
      cases d <;> exact (walk?_cons (fun _ h => absurd h (by decide)) (fun _ h => absurd h (by decide))).trans
        (if_pos (cutsChar_char htop))
    rw [walk?_append (joint_delimiter l d r), hl, Option.bind_some, hcut] at h
    cases h

theorem dropEmptyEnd_cons (t : Text) (ts : List Text) :
    dropEmptyEnd (t :: ts) = if t = [] ∧ dropEmptyEnd ts = [] then [] else t :: dropEmptyEnd ts := by
  rw [dropEmptyEnd]
  cases dropEmptyEnd ts with
  | nil => by_cases ht : t = [] <;> simp [ht]
  | cons u us => simp

theorem splitTop_of_walk {st : SplitState} (h : walk? d .initial s = some st) :
    splitTop d s = if trim s = [] then [] else [trim s] := by
  rw [splitTop, pieces_of_walk_end h, List.map_singleton, dropEmptyEnd_cons]
  simp [dropEmptyEnd]

theorem splitTop_cons_of_cut {l r : Text} (h : pieces d .initial (scan s) = l :: pieces d .initial (scan r)) :
    splitTop d s = if trim l = [] ∧ splitTop d r = [] then [] else trim l :: splitTop d r := by
  rw [splitTop, h, List.map_cons, dropEmptyEnd_cons]
  rfl

theorem isBlank_char (d : Delimiter) : isBlank d.char = false := by cases d <;> decide

/-- What stands before a cut is shorter than the text, trimmed or not. -/
theorem length_trim_lt (l : Text) (d : Delimiter) (r : Text) : (trim l).length < (trim (l ++ d.char :: r)).length := by
  have hd := isBlank_char d
  have hstart : trimStart (l ++ d.char :: r) = trimStart l ++ [d.char] ++ r := by
    rw [trimStart, List.dropWhile_append]
    split
    · rename_i hnil
      rw [trimStart, List.isEmpty_iff.1 hnil, List.dropWhile_cons_of_neg (by simp [hd])]
      rfl
    · simp [trimStart]
  have htrimmed : Text.Trimmed (trimStart l ++ [d.char]) := by
    refine ⟨fun c hc => ?_, by simp [hd]⟩
    cases hl : trimStart l with
    | nil => simp_all
    | cons a u =>
      rw [hl] at hc
      exact Text.head?_trimStart l c (by rw [hl]; exact hc)
  have hle : (trim l).length ≤ (trimStart l).length := (Text.trimEnd_sublist _).length_le
  rw [← Text.trim_trimStart (l ++ d.char :: r), hstart, Text.trim_append_of_trimmed htrimmed (by simp), List.length_append,
    List.length_append, List.length_singleton]
  omega

/-! ## Fragments -/

/-- A list of texts of which none has a cut and only the last may leave a quote or a bracket open. -/
def Parted (d : Delimiter) : List Text → Prop
  | [] => True
  | [t] => ∃ st, walk? d .initial t = some st
  | t :: u :: ts => (∃ st, walk? d .initial t = some st ∧ st.atTop = true) ∧ Parted d (u :: ts)

theorem Parted.walks : ∀ {ts : List Text}, Parted d ts → ∀ t ∈ ts, ∃ st, walk? d .initial t = some st
  | [_], h, t, ht => by
    rw [List.mem_singleton.1 ht]
    exact h
  | t :: u :: ts, h, v, hv => by
    rcases List.mem_cons.1 hv with rfl | hv
    · obtain ⟨⟨st, hst, -⟩, -⟩ := h
      exact ⟨st, hst⟩
    · exact Parted.walks h.2 v hv

theorem Parted.cons {ts : List Text} (ht : ∃ st, walk? d .initial t = some st ∧ st.atTop = true) (h : Parted d ts) :
    Parted d (t :: ts) := by
  cases ts with
  | nil =>
    obtain ⟨st, hst, -⟩ := ht
    exact ⟨st, hst⟩
  | cons u us => exact ⟨ht, h⟩

theorem Parted.tail {ts : List Text} (h : Parted d (t :: ts)) : Parted d ts := by
  cases ts with
  | nil => trivial
  | cons u us => exact h.2

/-- **The fragments of a text are parted**, by induction on the text cut by cut. -/
theorem parted_splitTop (d : Delimiter) (s : Text) : Parted d (splitTop d s) := by
  induction hn : s.length using Nat.strongRecOn generalizing s with
  | ind n ih =>
    rcases splitTopOnce?_cases d s with ⟨-, ⟨st, hst⟩, -⟩ | ⟨l, r, -, rfl, ⟨st, hl, htop⟩, hpieces⟩
    · rw [splitTop_of_walk hst]
      split
      · trivial
      · obtain ⟨escaped, htrim⟩ := walk?_trim hst
        exact ⟨_, htrim⟩
    · rw [splitTop_cons_of_cut hpieces]
      have hr : Parted d (splitTop d r) := ih r.length (by simp [← hn]; omega) r rfl
      split
      · trivial
      · obtain ⟨escaped, htrim⟩ := walk?_trim hl
        exact .cons ⟨_, htrim, htop⟩ hr

theorem trim_of_mem_splitTop (h : t ∈ splitTop d s) : trim t = t := by
  have hsub : ∀ {ts : List Text}, t ∈ dropEmptyEnd ts → t ∈ ts := by
    intro ts
    induction ts with
    | nil => simp [dropEmptyEnd]
    | cons u us ih =>
      rw [dropEmptyEnd_cons]
      split
      · simp
      · rintro (_ | ⟨_, hmem⟩)
        · exact List.mem_cons_self
        · exact List.mem_cons_of_mem _ (ih hmem)
  obtain ⟨p, -, rfl⟩ := List.mem_map.1 (hsub h)
  exact Text.trim_trim p

theorem getLast?_dropEmptyEnd : ∀ (ts : List Text), ∀ t ∈ (dropEmptyEnd ts).getLast?, t ≠ []
  | [], _, h => by simp [dropEmptyEnd] at h
  | u :: us, t, h => by
    rw [dropEmptyEnd_cons] at h
    split at h
    · simp at h
    · rename_i hne
      cases hus : dropEmptyEnd us with
      | nil =>
        rw [hus] at h hne
        simp only [List.getLast?_singleton, Option.mem_some_iff] at h
        rintro rfl
        exact hne ⟨h, rfl⟩
      | cons v vs =>
        rw [hus, List.getLast?_cons_cons, ← hus] at h
        exact getLast?_dropEmptyEnd us t h

/-- Parted texts with delimiters between them are cut where they were joined. -/
theorem map_trim_pieces_of_parted : ∀ {ts : List Text}, ts ≠ [] → Parted d ts →
    (pieces d .initial (scan (joinWith [d.char, ' '] ts))).map trim = ts.map trim
  | [], h, _ => absurd rfl h
  | [t], _, ⟨st, hst⟩ => by rw [joinWith, pieces_of_walk_end hst]
  | t :: u :: ts, _, ⟨⟨st, hst, htop⟩, h⟩ => by
    have hjoin : joinWith [d.char, ' '] (t :: u :: ts) = t ++ d.char :: ' ' :: joinWith [d.char, ' '] (u :: ts) := by
      simp [joinWith]
    rw [hjoin, pieces_delimiter hst htop, List.map_cons, map_trim_pieces_blank,
      map_trim_pieces_of_parted (List.cons_ne_nil u ts) h]
    rfl

/-- **Splitting is compositional.**  A text without a first cut splits into itself, trimmed; a text with one splits into
what stands before the cut and the fragments of what stands behind it.  A fragment splits into itself, and fragments put
together with delimiters split into themselves. -/
theorem splitTop_cuts (d : Delimiter) (s : Text) :
    (splitTopOnce? d s = none ↔ splitTop d s = if trim s = [] then [] else [trim s]) ∧
      (∀ l r, splitTopOnce? d s = some (l, r) → s = l ++ d.char :: r ∧ splitTopOnce? d l = none ∧
        splitTop d s = if trim l = [] ∧ splitTop d r = [] then [] else trim l :: splitTop d r) ∧
      (∀ t ∈ splitTop d s, t ≠ [] → splitTop d t = [t]) ∧
      splitTop d (joinWith [d.char, ' '] (splitTop d s)) = splitTop d s := by
  have hparted := parted_splitTop d s
  refine ⟨?_, ?_, ?_, ?_⟩
  · rcases splitTopOnce?_cases d s with ⟨hnone, ⟨st, hst⟩, -⟩ | ⟨l, r, hsome, rfl, -, hpieces⟩
    · exact ⟨fun _ => splitTop_of_walk hst, fun _ => hnone⟩
    · have hlt := length_trim_lt l d r
      rw [hsome, splitTop_cons_of_cut hpieces]
      refine ⟨fun h => (by cases h), fun h => ?_⟩
      have hne : trim (l ++ d.char :: r) ≠ [] := List.ne_nil_of_length_pos (Nat.lt_of_le_of_lt (Nat.zero_le _) hlt)
      rw [if_neg hne] at h
      split at h
      · cases h
      · rw [(List.cons.inj h).1] at hlt
        exact absurd hlt (Nat.lt_irrefl _)
  · intro l r h
    rcases splitTopOnce?_cases d s with ⟨hnone, -⟩ | ⟨l', r', hsome, hs, ⟨st, hl, -⟩, hpieces⟩
    · rw [hnone] at h
      cases h
    · rw [hsome] at h
      cases h
      exact ⟨hs, splitTopOnce?_eq_none hl, splitTop_cons_of_cut hpieces⟩
  · intro t ht hne
    obtain ⟨st, hst⟩ := hparted.walks t ht
    rw [splitTop_of_walk hst, trim_of_mem_splitTop ht, if_neg hne]
  · by_cases hnil : splitTop d s = []
    · rw [hnil]
      cases d <;> rfl
    · have hself : (splitTop d s).map trim = splitTop d s :=
        (List.map_congr_left fun t ht => trim_of_mem_splitTop ht).trans (List.map_id _)
      rw [splitTop, map_trim_pieces_of_parted hnil hparted, hself, dropEmptyEnd_eq_self]
      exact getLast?_dropEmptyEnd _

/-- A text with a delimiter behind a backslash, one in quotes, one in brackets and one behind them. -/
def mixedSource : Text := "a \\, \"<b, c>\" (d, e), f ".toList

theorem splitTop_cuts_mixed :
    splitTopOnce? .comma "a \\".toList = none ∧
      splitTop .comma mixedSource = ["a \\".toList, "\"<b, c>\" (d, e)".toList, ['f']] ∧
      splitTop .comma "\"<b, c>\" (d, e)".toList = ["\"<b, c>\" (d, e)".toList] ∧
      splitTop .comma (joinWith [',', ' '] (splitTop .comma mixedSource)) = splitTop .comma mixedSource := by
  obtain ⟨-, hcut, hself, hjoin⟩ := splitTop_cuts .comma mixedSource
  obtain ⟨-, hfirst, hsplit⟩ := hcut "a \\".toList " \"<b, c>\" (d, e), f ".toList (by decide)
  have hfragments : splitTop .comma mixedSource = ["a \\".toList, "\"<b, c>\" (d, e)".toList, ['f']] :=
    hsplit.trans (by decide)
  exact ⟨hfirst, hfragments, hself _ (by rw [hfragments]; decide) (by decide), hjoin⟩

end Split
end Gridmark
