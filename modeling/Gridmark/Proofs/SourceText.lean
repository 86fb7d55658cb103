import Gridmark.Snapshot
/-!
# SourceText — trimming, and the lines of texts put together

A source is read line by line, each line trimmed and the blank ones dropped, so the lines of two texts with a line feed
between them are the lines of the one and then of the other (`ofSource_append`).  A carriage return at the end of the
first text changes nothing: it would be trimmed away.
-/
namespace Gridmark
namespace Text

/-! ## Trimming -/

def Trimmed (t : Text) : Prop :=
  (∀ c ∈ t.head?, isBlank c = false) ∧ ∀ c ∈ t.getLast?, isBlank c = false

theorem trimmed_cons_concat {a b : Char} (ha : isBlank a = false) (hb : isBlank b = false) (t : Text) :
    Trimmed (a :: (t ++ [b])) := by
  refine ⟨fun c hc => ?_, fun c hc => ?_⟩
  · cases hc
    exact ha
  · rw [← List.cons_append, List.getLast?_concat] at hc
    cases hc
    exact hb

theorem trim_cons_blank {c : Char} (h : isBlank c = true) (t : Text) : trim (c :: t) = trim t := by
  unfold trim trimStart
  rw [List.dropWhile_cons_of_pos h]

theorem trimEnd_concat_blank {c : Char} (h : isBlank c = true) (t : Text) : trimEnd (t ++ [c]) = trimEnd t := by
  unfold trimEnd
  rw [List.reverse_concat, List.dropWhile_cons_of_pos h]

theorem trim_concat_blank {c : Char} (h : isBlank c = true) (t : Text) : trim (t ++ [c]) = trim t := by
  unfold trim trimStart
  rw [List.dropWhile_append]
  split
  · rename_i hnil
    rw [List.isEmpty_iff.1 hnil, List.dropWhile_cons_of_pos h]
    rfl
  · exact trimEnd_concat_blank h _

theorem trimStart_eq_self {t : Text} (h : ∀ c ∈ t.head?, isBlank c = false) : trimStart t = t := by
  cases t with
  | nil => rfl
  | cons c t =>
    unfold trimStart
    rw [List.dropWhile_cons_of_neg]
    simpa using h c rfl

theorem trimEnd_eq_self {t : Text} (h : ∀ c ∈ t.getLast?, isBlank c = false) : trimEnd t = t := by
  unfold trimEnd
  have hr : trimStart t.reverse = t.reverse := trimStart_eq_self (by rwa [List.head?_reverse])
  rw [show t.reverse.dropWhile isBlank = t.reverse from hr, List.reverse_reverse]

theorem trim_eq_self {t : Text} (h : Trimmed t) : trim t = t := by
  unfold trim
  rw [trimStart_eq_self h.1, trimEnd_eq_self h.2]

theorem head?_trimStart (t : Text) : ∀ c ∈ (trimStart t).head?, isBlank c = false := by
  intro c hc
  have := List.head?_dropWhile_not isBlank t
  unfold trimStart at hc
  rw [hc] at this
  simpa using this

theorem getLast?_trimEnd (t : Text) : ∀ c ∈ (trimEnd t).getLast?, isBlank c = false := by
  intro c hc
  unfold trimEnd at hc
  rw [List.getLast?_reverse] at hc
  exact head?_trimStart t.reverse c hc

theorem head?_trimEnd {t : Text} (h : ∀ c ∈ t.head?, isBlank c = false) :
    ∀ c ∈ (trimEnd t).head?, isBlank c = false := by
  intro c hc
  have hp : trimEnd t <+: t := by
    unfold trimEnd
    exact List.reverse_suffix.1 (by rw [List.reverse_reverse]; exact List.dropWhile_suffix _)
  obtain ⟨u, hu⟩ := hp
  cases ht : trimEnd t with
  | nil => rw [ht] at hc; cases hc
  | cons d t' =>
    rw [ht] at hc hu
    exact h c (by rw [← hu]; exact hc)

theorem trimmed_trim (t : Text) : Trimmed (trim t) :=
  ⟨head?_trimEnd (head?_trimStart t), getLast?_trimEnd _⟩

@[simp] theorem trim_trim (t : Text) : trim (trim t) = trim t := trim_eq_self (trimmed_trim t)

theorem trim_append_blank (t : Text) : ∀ {bs : Text}, (∀ c ∈ bs, isBlank c = true) → trim (t ++ bs) = trim t
  | [], _ => by rw [List.append_nil]
  | b :: bs, h => by
    rw [List.append_cons, trim_append_blank (t ++ [b]) fun c hc => h c (List.mem_cons_of_mem _ hc),
      trim_concat_blank (h b List.mem_cons_self)]

@[simp] theorem trim_trimEnd (t : Text) : trim (trimEnd t) = trim t := by
  have ht : t = trimEnd t ++ (t.reverse.takeWhile isBlank).reverse := by
    unfold trimEnd
    rw [← List.reverse_append, List.takeWhile_append_dropWhile, List.reverse_reverse]
  have hb : ∀ c ∈ (t.reverse.takeWhile isBlank).reverse, isBlank c = true := fun c hc =>
    List.all_eq_true.1 List.all_takeWhile c (List.mem_reverse.1 hc)
  rw [ht, trim_append_blank _ hb, ← ht]

theorem head?_append_left {a : Text} (h : a ≠ []) (b : Text) : (a ++ b).head? = a.head? := by
  cases a with
  | nil => exact absurd rfl h
  | cons c a => rfl

/-- Behind a text that needs no trimming only the end is trimmed. -/
theorem trim_append_of_trimmed {a : Text} (ha : Trimmed a) (hne : a ≠ []) (b : Text) : trim (a ++ b) = a ++ trimEnd b := by
  have hs : trimStart (a ++ b) = a ++ b := trimStart_eq_self fun c hc => ha.1 c (by
    rwa [head?_append_left hne] at hc)
  have hr : a.reverse.dropWhile isBlank = a.reverse := trimStart_eq_self fun c hc => ha.2 c (by
    rwa [List.head?_reverse] at hc)
  unfold trim trimEnd
  rw [hs, List.reverse_append, List.dropWhile_append]
  split
  · rename_i he
    rw [hr, List.isEmpty_iff.1 he, List.reverse_reverse, List.reverse_nil, List.append_nil]
  · rw [List.reverse_append, List.reverse_reverse]

@[simp] theorem trim_trimStart (t : Text) : trim (trimStart t) = trim t := by
  unfold trim
  rw [trimStart_eq_self (head?_trimStart t)]

theorem trimEnd_sublist (t : Text) : (trimEnd t).Sublist t := by
  have h := (List.dropWhile_sublist (p := isBlank) (l := t.reverse)).reverse
  rwa [List.reverse_reverse] at h

theorem trim_sublist (t : Text) : (trim t).Sublist t := (trimEnd_sublist _).trans (List.dropWhile_sublist _)

theorem length_trim_le (t : Text) : (trim t).length ≤ t.length := (trim_sublist t).length_le

/-! ## Lines -/

/-- The texts between line feeds. -/
def segments : Text → List Text
  | [] => [[]]
  | c :: t =>
    if c = '\n' then [] :: segments t
    else match segments t with
      | [] => [[c]]
      | s :: ss => (c :: s) :: ss

theorem segments_ne_nil : ∀ t, segments t ≠ []
  | [] => by simp [segments]
  | c :: t => by
    unfold segments
    split
    · simp
    · split <;> simp

theorem segments_append (b : Text) : ∀ a : Text, segments (a ++ '\n' :: b) = segments a ++ segments b
  | [] => by simp [segments]
  | c :: a => by
    rw [List.cons_append, segments, segments, segments_append b a]
    split
    · rfl
    · cases h : segments a with
      | nil => exact absurd h (segments_ne_nil a)
      | cons s ss => rfl

theorem segments_of_not_mem : ∀ {t : Text}, '\n' ∉ t → segments t = [t]
  | [], _ => rfl
  | c :: t, h => by
    have hc : c ≠ '\n' := fun e => h (e ▸ List.mem_cons_self)
    rw [segments, if_neg hc, segments_of_not_mem fun m => h (List.mem_cons_of_mem _ m)]

theorem not_mem_joinWith {c : Char} {sep : Text} (hs : c ∉ sep) : ∀ {ts : List Text}, (∀ t ∈ ts, c ∉ t) →
    c ∉ joinWith sep ts
  | [], _ => by simp [joinWith]
  | [t], h => h t List.mem_cons_self
  | t :: u :: ts, h => by
    have ih : c ∉ joinWith sep (u :: ts) := not_mem_joinWith hs fun v hv => h v (List.mem_cons_of_mem _ hv)
    simpa [joinWith, hs] using ⟨h t List.mem_cons_self, ih⟩

def trimAll (ts : List Text) : List Text := (ts.map trim).filter (· ≠ [])

theorem trimAll_cons (t : Text) (ts : List Text) :
    trimAll (t :: ts) = (if trim t = [] then [] else [trim t]) ++ trimAll ts := by
  unfold trimAll
  by_cases h : trim t = [] <;> simp [h]

theorem trimAll_append (ss ts : List Text) : trimAll (ss ++ ts) = trimAll ss ++ trimAll ts := by
  simp [trimAll]

/-- Lines against segments: a segment may have a carriage return at its end that the line has not, and a last segment
that is empty is no line. -/
inductive Agree : List Text → List Text → Prop where
  | nil : Agree [] [[]]
  | cons {l s : Text} {ls ss : List Text} : s = l ∨ s = l ++ ['\r'] → trimAll ls = trimAll ss → Agree (l :: ls) (s :: ss)

theorem Agree.trimAll_eq {ls ss : List Text} (h : Agree ls ss) : trimAll ls = trimAll ss := by
  cases h with
  | nil => rfl
  | @cons l s _ _ h ht =>
    have hs : trim s = trim l := by
      rcases h with rfl | rfl
      · rfl
      · exact trim_concat_blank (by decide) l
    rw [trimAll_cons, trimAll_cons, hs, ht]

theorem agree_lines (t : Text) : Agree (lines t) (segments t) := by
  fun_induction lines t with
  | case1 => exact .nil
  | case2 t ih => exact .cons (.inl rfl) ih.trimAll_eq
  | case3 t ih =>
    have hs : segments ('\r' :: '\n' :: t) = ['\r'] :: segments t := by simp [segments]
    rw [hs]
    exact .cons (.inr rfl) ih.trimAll_eq
  | case4 c t hn _ hl ih =>
    rw [hl] at ih
    rw [segments, if_neg hn]
    generalize segments t = ss at ih
    cases ih
    exact .cons (.inl rfl) rfl
  | case5 c t hn _ l ls hl ih =>
    rw [hl] at ih
    rw [segments, if_neg hn]
    generalize segments t = ss at ih
    cases ih with
    | cons h ht => exact .cons (h.imp (congrArg (c :: ·)) (congrArg (c :: ·))) ht

end Text

namespace SourceLine

open Text

theorem ofSource_eq (t : Text) : ofSource t = trimAll (segments t) := (agree_lines t).trimAll_eq

theorem ofSource_nil : ofSource [] = [] := rfl

/-- **The lines of two texts with a line feed between them.** -/
theorem ofSource_append (a b : Text) : ofSource (a ++ '\n' :: b) = ofSource a ++ ofSource b := by
  rw [ofSource_eq, ofSource_eq, ofSource_eq, segments_append, trimAll_append]

theorem ofSource_joinWith : ∀ ts : List Text, ofSource (joinWith ['\n'] ts) = ts.flatMap ofSource
  | [] => rfl
  | [t] => by simp [joinWith]
  | t :: u :: ts => by
    rw [joinWith, List.append_assoc, List.singleton_append, ofSource_append, ofSource_joinWith (u :: ts)]
    rfl

theorem ofSource_finish (trailing : Bool) (ls : List Text) :
    ofSource (Snapshot.finish trailing ls) = ls.flatMap ofSource := by
  unfold Snapshot.finish
  rw [← ofSource_joinWith]
  dsimp only
  split
  · rw [ofSource_append, ofSource_nil, List.append_nil]
  · rfl

theorem ofSource_line {t : Text} (hne : t ≠ []) (hn : '\n' ∉ t) (ht : Trimmed t) : ofSource t = [t] := by
  rw [ofSource_eq, segments_of_not_mem hn, trimAll_cons, trim_eq_self ht, if_neg hne]
  rfl

theorem ofSource_lines {ts : List Text} (h : ∀ t ∈ ts, t ≠ [] ∧ '\n' ∉ t ∧ Trimmed t) : ts.flatMap ofSource = ts := by
  induction ts with
  | nil => rfl
  | cons t ts ih =>
    obtain ⟨hne, hn, ht⟩ := h t List.mem_cons_self
    rw [List.flatMap_cons, ofSource_line hne hn ht, ih fun u hu => h u (List.mem_cons_of_mem _ hu)]
    rfl

theorem of_mem_ofSource {t line : Text} (h : line ∈ ofSource t) : line ≠ [] ∧ Trimmed line := by
  obtain ⟨hm, hne⟩ := List.mem_filter.1 h
  obtain ⟨l, -, rfl⟩ := List.mem_map.1 hm
  exact ⟨by simpa using hne, trimmed_trim l⟩

end SourceLine
end Gridmark
