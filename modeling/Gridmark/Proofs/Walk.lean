import Gridmark.Split
import Gridmark.Proofs.SourceText
/-!
# Walk — splitting, character by character

Splitting runs over tokens, and a run of plain characters is one token, so the tokens of two texts put together are not
always the tokens of each.  The states a walk passes through are: a plain character leaves the state as a plain run would
(`step_plain_plain`), so a walk may take characters one at a time and look ahead only for the two pairs that are tokens
of their own (`walk?`).  A text that is walked without a cut stays whole whatever follows it (`pieces_of_walk`).
-/
namespace Gridmark

@[simp] theorem SplitState.step_plain (s : SplitState) : s.step .plain = ⟨s.depth, s.quoting, false⟩ := by
  obtain ⟨depth, quoting, escaped⟩ := s
  cases quoting <;> cases escaped <;> rfl

@[simp] theorem SplitState.step_comma (s : SplitState) : s.step .comma = ⟨s.depth, s.quoting, false⟩ := by
  obtain ⟨depth, quoting, escaped⟩ := s
  cases quoting <;> cases escaped <;> rfl

theorem SplitState.step_plain_plain (s : SplitState) : (s.step .plain).step .plain = s.step .plain := by simp

/-- Cutting ends every escape, so it leaves the state a text starts in. -/
theorem SplitState.step_delimiter {s : SplitState} (h : s.atTop = true) (d : Delimiter) : s.step d.kind = .initial := by
  obtain ⟨depth, quoting, escaped⟩ := s
  simp only [SplitState.atTop, Bool.and_eq_true, beq_iff_eq] at h
  obtain ⟨rfl, rfl⟩ := h
  cases d <;> cases escaped <;> rfl

theorem Token.untokenize_consChar (c : Char) (ts : List Token) :
    Token.untokenize (Token.consChar c ts) = c :: Token.untokenize ts := by
  unfold Token.consChar
  split
  · unfold Token.consPlain
    split <;> simp [Token.untokenize]
  · rfl

/-- **Tokens lose nothing.** -/
theorem Token.untokenize_scan (t : Text) : Token.untokenize (Token.scan t) = t := by
  fun_induction Token.scan t with
  | case1 => rfl
  | case2 t ih => rw [Token.untokenize, List.flatMap_cons, ← Token.untokenize, ih]; rfl
  | case3 t ih => rw [Token.untokenize, List.flatMap_cons, ← Token.untokenize, ih]; rfl
  | case4 c t _ _ ih => rw [Token.untokenize_consChar, ih]

namespace Split

open Token (scan)

theorem prepend_prepend (a b : Text) (ps : List Text) : prepend a (prepend b ps) = prepend (a ++ b) ps := by
  cases ps <;> simp [prepend]

theorem pieces_ne_nil (d : Delimiter) : ∀ (s : SplitState) (ts : List Token), pieces d s ts ≠ []
  | _, [] => by simp [pieces]
  | s, t :: ts => by
    rw [pieces]
    split
    · simp
    · cases pieces d (s.step t.kind) ts <;> simp [prepend]

theorem prepend_nil {ps : List Text} (h : ps ≠ []) : prepend [] ps = ps := by
  cases ps with
  | nil => exact absurd rfl h
  | cons p ps => rfl

def cutsChar (d : Delimiter) (s : SplitState) (c : Char) : Prop := TokenKind.ofChar c = d.kind ∧ s.atTop = true

instance (d : Delimiter) (s : SplitState) (c : Char) : Decidable (cutsChar d s c) :=
  inferInstanceAs (Decidable (_ ∧ _))

theorem pieces_consChar (d : Delimiter) (s : SplitState) (c : Char) (ts : List Token) :
    pieces d s (Token.consChar c ts) =
      if cutsChar d s c then [] :: pieces d (s.step (.ofChar c)) ts
      else prepend [c] (pieces d (s.step (.ofChar c)) ts) := by
  unfold Token.consChar
  split
  · rename_i hk
    have hd : ∀ s u, cutsAt d s ⟨.plain, u⟩ = false := fun s u => by cases d <;> rfl
    rw [if_neg (fun h => by rw [cutsChar, hk] at h; cases d <;> cases h.1), hk]
    unfold Token.consPlain
    split
    · simp only [pieces, hd, Bool.false_eq_true, if_false, SplitState.step_plain_plain, prepend_prepend,
        List.singleton_append]
    · simp only [pieces, hd, Bool.false_eq_true, if_false]
  · rw [pieces]
    have : cutsAt d s ⟨.ofChar c, [c]⟩ = true ↔ cutsChar d s c := by
      simp [cutsAt, cutsChar]
    by_cases h : cutsChar d s c
    · rw [if_pos (this.2 h), if_pos h]
    · rw [if_neg (fun h' => h (this.1 h')), if_neg h]

theorem firstCut?_consChar (d : Delimiter) (s : SplitState) (c : Char) (ts : List Token) :
    firstCut? d s (Token.consChar c ts) =
      if cutsChar d s c then some ([], ts)
      else (firstCut? d (s.step (.ofChar c)) ts).map fun p => (c :: p.1, p.2) := by
  unfold Token.consChar
  split
  · rename_i hk
    have hd : ∀ s u, cutsAt d s ⟨.plain, u⟩ = false := fun s u => by cases d <;> rfl
    rw [if_neg (fun h => by rw [cutsChar, hk] at h; cases d <;> cases h.1), hk]
    unfold Token.consPlain
    split
    · simp only [firstCut?, hd, Bool.false_eq_true, if_false, SplitState.step_plain_plain, Option.map_map]
      rfl
    · simp only [firstCut?, hd, Bool.false_eq_true, if_false]
      rfl
  · rw [firstCut?]
    have : cutsAt d s ⟨.ofChar c, [c]⟩ = true ↔ cutsChar d s c := by
      simp [cutsAt, cutsChar]
    by_cases h : cutsChar d s c
    · rw [if_pos (this.2 h), if_pos h]
    · rw [if_neg (fun h' => h (this.1 h')), if_neg h]
      rfl

/-- **The state after a text**, unless the delimiter stands in it at the top level. -/
def walk? (d : Delimiter) : SplitState → Text → Option SplitState
  | s, [] => some s
  | s, '"' :: '<' :: t => walk? d (s.step .compositeOpen) t
  | s, '>' :: '"' :: t => walk? d (s.step .compositeClose) t
  | s, c :: t => if cutsChar d s c then none else walk? d (s.step (.ofChar c)) t

theorem scan_cons {c : Char} {t : Text} (h1 : ∀ u, c = '"' → t = '<' :: u → False)
    (h2 : ∀ u, c = '>' → t = '"' :: u → False) : scan (c :: t) = Token.consChar c (scan t) := by
  rw [scan]
  · exact h1
  · exact h2

theorem walk?_cons {d : Delimiter} {s : SplitState} {c : Char} {t : Text} (h1 : ∀ u, c = '"' → t = '<' :: u → False)
    (h2 : ∀ u, c = '>' → t = '"' :: u → False) :
    walk? d s (c :: t) = if cutsChar d s c then none else walk? d (s.step (.ofChar c)) t := by
  rw [walk?]
  · exact h1
  · exact h2

/-- No pair of characters that is one token lies across the two texts. -/
def Joint (a b : Text) : Prop :=
  ¬(a.getLast? = some '"' ∧ b.head? = some '<') ∧ ¬(a.getLast? = some '>' ∧ b.head? = some '"')

theorem joint_of_head {a b : Text} (h1 : b.head? ≠ some '<') (h2 : b.head? ≠ some '"') : Joint a b :=
  ⟨fun h => h1 h.2, fun h => h2 h.2⟩

theorem joint_of_last {a b : Text} (h1 : a.getLast? ≠ some '"') (h2 : a.getLast? ≠ some '>') : Joint a b :=
  ⟨fun h => h1 h.1, fun h => h2 h.1⟩

theorem Joint.tail {c : Char} {a b : Text} (h : Joint (c :: a) b) : Joint a b := by
  cases a with
  | nil => exact ⟨fun h' => (by cases h'.1), fun h' => (by cases h'.1)⟩
  | cons d a => simpa [Joint] using h

theorem Joint.no_open {c : Char} {a b : Text} (hj : Joint (c :: a) b) (h : ∀ t, c = '"' → a = '<' :: t → False) :
    ∀ t, c = '"' → a ++ b = '<' :: t → False := by
  rintro t rfl ht
  cases a with
  | nil => exact hj.1 ⟨rfl, by rw [List.nil_append] at ht; rw [ht]; rfl⟩
  | cons d a =>
    obtain ⟨rfl, -⟩ := List.cons.inj ht
    exact h a rfl rfl

theorem Joint.no_close {c : Char} {a b : Text} (hj : Joint (c :: a) b) (h : ∀ t, c = '>' → a = '"' :: t → False) :
    ∀ t, c = '>' → a ++ b = '"' :: t → False := by
  rintro t rfl ht
  cases a with
  | nil => exact hj.2 ⟨rfl, by rw [List.nil_append] at ht; rw [ht]; rfl⟩
  | cons d a =>
    obtain ⟨rfl, -⟩ := List.cons.inj ht
    exact h a rfl rfl

/-- **A text walked without a cut stays whole** in front of the first piece of what follows it. -/
theorem pieces_of_walk {d : Delimiter} {s s' : SplitState} {a b : Text} (h : walk? d s a = some s') (hj : Joint a b) :
    pieces d s (scan (a ++ b)) = prepend a (pieces d s' (scan b)) := by
  fun_induction walk? d s a with
  | case1 s => cases h; rw [prepend_nil (pieces_ne_nil d _ _)]; rfl
  | case2 s t ih =>
    have hd : cutsAt d s ⟨.compositeOpen, ['"', '<']⟩ = false := by cases d <;> rfl
    show pieces d s (⟨.compositeOpen, ['"', '<']⟩ :: scan (t ++ b)) = _
    rw [pieces, hd, if_neg Bool.false_ne_true, ih h hj.tail.tail, prepend_prepend]
    rfl
  | case3 s t ih =>
    have hd : cutsAt d s ⟨.compositeClose, ['>', '"']⟩ = false := by cases d <;> rfl
    show pieces d s (⟨.compositeClose, ['>', '"']⟩ :: scan (t ++ b)) = _
    rw [pieces, hd, if_neg Bool.false_ne_true, ih h hj.tail.tail, prepend_prepend]
    rfl
  | case4 s c t h1 h2 hc => cases h
  | case5 s c t h1 h2 hc ih =>
    rw [List.cons_append, scan_cons (hj.no_open h1) (hj.no_close h2), pieces_consChar, if_neg hc, ih h hj.tail,
      prepend_prepend]
    rfl

theorem firstCut?_of_walk {d : Delimiter} {s s' : SplitState} {a b : Text} (h : walk? d s a = some s')
    (hj : Joint a b) :
    firstCut? d s (scan (a ++ b)) = (firstCut? d s' (scan b)).map fun p => (a ++ p.1, p.2) := by
  fun_induction walk? d s a with
  | case1 s => cases h; simp
  | case2 s t ih =>
    have hd : cutsAt d s ⟨.compositeOpen, ['"', '<']⟩ = false := by cases d <;> rfl
    show firstCut? d s (⟨.compositeOpen, ['"', '<']⟩ :: scan (t ++ b)) = _
    rw [firstCut?, hd, if_neg Bool.false_ne_true, ih h hj.tail.tail, Option.map_map]
    rfl
  | case3 s t ih =>
    have hd : cutsAt d s ⟨.compositeClose, ['>', '"']⟩ = false := by cases d <;> rfl
    show firstCut? d s (⟨.compositeClose, ['>', '"']⟩ :: scan (t ++ b)) = _
    rw [firstCut?, hd, if_neg Bool.false_ne_true, ih h hj.tail.tail, Option.map_map]
    rfl
  | case4 s c t h1 h2 hc => cases h
  | case5 s c t h1 h2 hc ih =>
    rw [List.cons_append, scan_cons (hj.no_open h1) (hj.no_close h2), firstCut?_consChar, if_neg hc, ih h hj.tail,
      Option.map_map]
    rfl

theorem walk?_append {d : Delimiter} {s : SplitState} {a b : Text} (hj : Joint a b) :
    walk? d s (a ++ b) = (walk? d s a).bind fun s' => walk? d s' b := by
  fun_induction walk? d s a with
  | case1 s => rfl
  | case2 s t ih => exact ih hj.tail.tail
  | case3 s t ih => exact ih hj.tail.tail
  | case4 s c t h1 h2 hc =>
    rw [List.cons_append, walk?_cons (hj.no_open h1) (hj.no_close h2), if_pos hc]
    rfl
  | case5 s c t h1 h2 hc ih =>
    rw [List.cons_append, walk?_cons (hj.no_open h1) (hj.no_close h2), if_neg hc, ih hj.tail]

theorem ofChar_eq_kind {c : Char} {d : Delimiter} : TokenKind.ofChar c = d.kind ↔ c = d.char := by
  unfold TokenKind.ofChar
  cases d <;> grind [Delimiter.kind, Delimiter.char]

theorem cutsChar_char {d : Delimiter} {s : SplitState} (h : s.atTop = true) : cutsChar d s d.char :=
  ⟨ofChar_eq_kind.2 rfl, h⟩

theorem joint_delimiter (a : Text) (d : Delimiter) (b : Text) : Joint a (d.char :: b) := by
  cases d <;> exact joint_of_head (by simp [Delimiter.char]) (by simp [Delimiter.char])

theorem scan_delimiter (d : Delimiter) (t : Text) : scan (d.char :: t) = Token.consChar d.char (scan t) := by
  cases d <;> exact scan_cons (fun _ h => absurd h (by decide)) (fun _ h => absurd h (by decide))

/-- A delimiter at the top level is a cut, and what follows it is walked from the start. -/
theorem pieces_delimiter {d : Delimiter} {s s' : SplitState} {a : Text} (h : walk? d s a = some s')
    (ht : s'.atTop = true) (b : Text) : pieces d s (scan (a ++ d.char :: b)) = a :: pieces d .initial (scan b) := by
  rw [pieces_of_walk h (joint_delimiter a d b), scan_delimiter, pieces_consChar, if_pos (cutsChar_char ht),
    ofChar_eq_kind.2 rfl, SplitState.step_delimiter ht d, prepend, List.append_nil]

theorem firstCut?_delimiter {d : Delimiter} {s s' : SplitState} {a : Text} (h : walk? d s a = some s')
    (ht : s'.atTop = true) (b : Text) : firstCut? d s (scan (a ++ d.char :: b)) = some (a, scan b) := by
  rw [firstCut?_of_walk h (joint_delimiter a d b), scan_delimiter, firstCut?_consChar, if_pos (cutsChar_char ht)]
  simp

/-- A text that is not walked to its end has a cut in it, and stays whole up to the first. -/
theorem exists_of_walk?_eq_none {d : Delimiter} {s : SplitState} {a : Text} (h : walk? d s a = none) :
    ∃ u v s', a = u ++ d.char :: v ∧ walk? d s u = some s' ∧ s'.atTop = true := by
  fun_induction walk? d s a with
  | case1 s => cases h
  | case2 s t ih =>
    obtain ⟨u, v, s', rfl, hu, ht⟩ := ih h
    exact ⟨'"' :: '<' :: u, v, s', rfl, hu, ht⟩
  | case3 s t ih =>
    obtain ⟨u, v, s', rfl, hu, ht⟩ := ih h
    exact ⟨'>' :: '"' :: u, v, s', rfl, hu, ht⟩
  | case4 s c t h1 h2 hc =>
    refine ⟨[], t, s, ?_, rfl, hc.2⟩
    rw [ofChar_eq_kind.1 hc.1]
    rfl
  | case5 s c t h1 h2 hc ih =>
    obtain ⟨u, v, s', rfl, hu, ht⟩ := ih h
    refine ⟨c :: u, v, s', rfl, ?_, ht⟩
    rw [walk?_cons, if_neg hc, hu]
    · rintro w rfl hw
      exact h1 (w ++ d.char :: v) rfl (by rw [hw]; rfl)
    · rintro w rfl hw
      exact h2 (w ++ d.char :: v) rfl (by rw [hw]; rfl)

theorem pieces_of_walk_end {d : Delimiter} {s s' : SplitState} {t : Text} (h : walk? d s t = some s') :
    pieces d s (scan t) = [t] := by
  have := pieces_of_walk h (b := []) (joint_of_head (by simp) (by simp))
  rw [List.append_nil] at this
  rw [this]
  simp [scan, pieces, prepend]

theorem walk?_blank (d : Delimiter) (s : SplitState) (t : Text) :
    walk? d s (' ' :: t) = walk? d ⟨s.depth, s.quoting, false⟩ t := by
  rw [walk?_cons (fun _ h => absurd h (by decide)) (fun _ h => absurd h (by decide)), if_neg, ← SplitState.step_plain]
  · rfl
  · rintro ⟨h, -⟩; cases d <;> cases h

end Split
end Gridmark
