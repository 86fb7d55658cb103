import Gridmark.Proofs.Cuts
import Gridmark.Proofs.Values
/-!
# Inert — what stands in composite quotes counts for nothing

The top-level delimiters of a text are half-open byte ranges (`delimiterSpans`), and the pieces of a split are what stands
between them (`delimiterSpans_eq_gaps`).  Composite quotes put a wall around their text: the pair that opens them and the
pair that closes them are tokens whatever stands next to them, so the text before, between and behind is cut into tokens as
if it stood alone (`scan_quoted`).  In between no token but the closing pair changes the state, and that one restores it.
So the quoted text leaves no trace in the delimiters but its length (`delimiterSpans_quoted`).
-/
namespace Gridmark
namespace Split

open Token (scan untokenize)
open Text (trim trimStart trimEnd byteSize joinWith)

/-- The byte ranges of the top-level delimiters among tokens, from an offset on. -/
def cutSpans (d : Delimiter) : SplitState → Nat → List Token → List (Nat × Nat)
  | _, _, [] => []
  | s, start, t :: ts =>
    if cutsAt d s t then (start, start + byteSize t.text) :: cutSpans d (s.step t.kind) (start + byteSize t.text) ts
    else cutSpans d (s.step t.kind) (start + byteSize t.text) ts

/-- The byte ranges of the top-level delimiters of a text. -/
def delimiterSpans (d : Delimiter) (source : Text) : List (Nat × Nat) := cutSpans d .initial 0 (scan source)

def after (s : SplitState) (ts : List Token) : SplitState := ts.foldl (fun s t => s.step t.kind) s

def stateAfter (t : Text) : SplitState := after .initial (scan t)

/-- A text between composite quotes, as it stands. -/
def quoted (x : Text) : Text := '"' :: '<' :: (x ++ ['>', '"'])

/-- A byte range, so many bytes further on. -/
def shift (n : Nat) (r : Nat × Nat) : Nat × Nat := (n + r.1, n + r.2)

variable {d : Delimiter} {s : SplitState} {p x a b : Text} {ts us : List Token}

theorem byteSize_append : ∀ a b : Text, byteSize (a ++ b) = byteSize a + byteSize b
  | [], b => by simp [byteSize]
  | c :: a, b => by simp [byteSize, byteSize_append a b, Nat.add_assoc]

/-! ## Delimiters and pieces -/

/-- The ranges of one byte between texts that follow each other, from an offset on. -/
def gaps : Nat → List Text → List (Nat × Nat)
  | start, t :: u :: ts => (start + byteSize t, start + byteSize t + 1) :: gaps (start + byteSize t + 1) (u :: ts)
  | _, _ => []

theorem gaps_prepend (start : Nat) (t : Text) : ∀ ps : List Text, gaps start (prepend t ps) = gaps (start + byteSize t) ps
  | [] => rfl
  | [_] => rfl
  | u :: v :: ps => by simp [prepend, gaps, byteSize_append, Nat.add_assoc]

theorem mem_consChar {k : Token} {c : Char} (h : k ∈ Token.consChar c ts) :
    k ∈ ts ∨ k.kind = .plain ∨ k = ⟨.ofChar c, [c]⟩ := by
  unfold Token.consChar at h
  split at h
  · unfold Token.consPlain at h
    split at h <;> rcases List.mem_cons.1 h with rfl | h
    · simp
    · simp [h]
    · simp
    · simp [h]
  · rcases List.mem_cons.1 h with rfl | h
    · simp
    · simp [h]

theorem text_of_mem_scan {k : Token} (h : k ∈ scan a) (hk : k.kind = d.kind) : k.text = [d.char] := by
  fun_induction Token.scan a with
  | case1 => cases h
  | case2 t ih =>
    rcases List.mem_cons.1 h with rfl | h
    · cases d <;> cases hk
    · exact ih h
  | case3 t ih =>
    rcases List.mem_cons.1 h with rfl | h
    · cases d <;> cases hk
    · exact ih h
  | case4 c t _ _ ih =>
    rcases mem_consChar h with h | h | rfl
    · exact ih h
    · rw [h] at hk
      cases d <;> cases hk
    · rw [ofChar_eq_kind.1 hk]

theorem cutSpans_eq_gaps : ∀ {ts : List Token} (s : SplitState) (start : Nat),
    (∀ t ∈ ts, t.kind = d.kind → byteSize t.text = 1) → cutSpans d s start ts = gaps start (pieces d s ts)
  | [], _, _, _ => rfl
  | t :: ts, s, start, h => by
    obtain ⟨ht, h⟩ := List.forall_mem_cons.1 h
    have ih := cutSpans_eq_gaps (s.step t.kind) (start + byteSize t.text) h
    rw [cutSpans, pieces, ih]
    by_cases hcut : cutsAt d s t = true
    · have hone : byteSize t.text = 1 := ht (by simp_all [cutsAt])
      obtain ⟨u, us, hu⟩ := List.exists_cons_of_ne_nil (pieces_ne_nil d (s.step t.kind) ts)
      simp [hcut, hone, hu, gaps, byteSize]
    · simp [hcut, gaps_prepend]

/-- **The pieces of a text are what stands between its delimiters.** -/
theorem delimiterSpans_eq_gaps (d : Delimiter) (t : Text) : delimiterSpans d t = gaps 0 (pieces d .initial (scan t)) := by
  refine cutSpans_eq_gaps _ _ fun k hk hkind => ?_
  rw [text_of_mem_scan hk hkind]
  cases d <;> decide

/-! ## Tokens side by side -/

theorem consChar_append (c : Char) (hus : ∀ k ∈ us.head?, k.kind ≠ .plain) :
    Token.consChar c (ts ++ us) = Token.consChar c ts ++ us := by
  unfold Token.consChar
  split
  · cases ts with
    | nil =>
      cases us with
      | nil => rfl
      | cons k us =>
        obtain ⟨kind, text⟩ := k
        have hkind := hus _ rfl
        cases kind <;> simp_all [Token.consPlain]
    | cons k ts =>
      obtain ⟨kind, text⟩ := k
      cases kind <;> simp [Token.consPlain]
  · rfl

/-- **Two texts are cut into tokens apart**, if no token lies across them and no run of plain characters goes on. -/
theorem scan_append (hj : Joint a b) (hb : ∀ k ∈ (scan b).head?, k.kind ≠ .plain) : scan (a ++ b) = scan a ++ scan b := by
  fun_induction Token.scan a with
  | case1 => rfl
  | case2 t ih => simp [scan, ih hj.tail.tail]
  | case3 t ih => simp [scan, ih hj.tail.tail]
  | case4 c t h1 h2 ih =>
    rw [List.cons_append, scan_cons (hj.no_open h1) (hj.no_close h2), ih hj.tail, consChar_append c hb]

theorem scan_quoted_append (x b : Text) :
    scan (quoted x ++ b) = ⟨.compositeOpen, ['"', '<']⟩ :: (scan x ++ ⟨.compositeClose, ['>', '"']⟩ :: scan b) := by
  have hclose : scan (x ++ '>' :: '"' :: b) = scan x ++ scan ('>' :: '"' :: b) :=
    scan_append (joint_of_head (by simp) (by simp)) (by simp [scan])
  simp only [quoted, List.append_assoc, List.cons_append, List.nil_append]
  rw [scan, hclose, scan]

/-- **A quoted text is cut into tokens apart** from what stands before and behind it. -/
theorem scan_quoted (hp : p.getLast? ≠ some '>') (x b : Text) :
    scan (p ++ quoted x ++ b) = scan p ++ (scan (quoted x) ++ scan b) := by
  have halone := scan_quoted_append x []
  rw [List.append_nil] at halone
  rw [List.append_assoc, scan_append ⟨by simp [quoted], by simp [hp]⟩ (by simp [scan_quoted_append]), scan_quoted_append,
    halone]
  simp [scan]

/-! ## Walking over them -/

theorem cutSpans_append : ∀ (s : SplitState) (start : Nat) (ts us : List Token),
    cutSpans d s start (ts ++ us) = cutSpans d s start ts ++ cutSpans d (after s ts) (start + byteSize (untokenize ts)) us
  | _, _, [], _ => by simp [cutSpans, after, untokenize, byteSize]
  | s, start, t :: ts, us => by
    have ih := cutSpans_append (s.step t.kind) (start + byteSize t.text) ts us
    have hsize : byteSize (untokenize (t :: ts)) = byteSize t.text + byteSize (untokenize ts) := byteSize_append _ _
    rw [List.cons_append, cutSpans, cutSpans, ih, hsize, ← Nat.add_assoc]
    by_cases hcut : cutsAt d s t = true <;> simp [hcut, after]

theorem cutSpans_add (n : Nat) : ∀ (s : SplitState) (start : Nat) (ts : List Token),
    cutSpans d s (n + start) ts = (cutSpans d s start ts).map (shift n)
  | _, _, [] => rfl
  | s, start, t :: ts => by
    have ih := cutSpans_add n (s.step t.kind) (start + byteSize t.text) ts
    rw [cutSpans, cutSpans, Nat.add_assoc, ih]
    by_cases hcut : cutsAt d s t = true <;> simp [hcut, shift]

theorem pieces_append : ∀ (s : SplitState) (ts us : List Token), pieces d s (ts ++ us) =
    (pieces d s ts).dropLast ++ prepend ((pieces d s ts).getLast?.getD []) (pieces d (after s ts) us)
  | s, [], us => by simp [pieces, after, prepend_nil (pieces_ne_nil d s us)]
  | s, t :: ts, us => by
    have ih := pieces_append (s.step t.kind) ts us
    obtain ⟨p, ps, hps⟩ := List.exists_cons_of_ne_nil (pieces_ne_nil d (s.step t.kind) ts)
    rw [hps] at ih
    rw [List.cons_append, pieces, pieces, ih, hps]
    by_cases hcut : cutsAt d s t = true
    · simp [hcut, after]
    · have hone : prepend t.text [p] = [t.text ++ p] := rfl
      cases ps with
      | nil => simp [hcut, after, hone, prepend_prepend]
      | cons q ps => simp [hcut, after, prepend]

theorem after_append (s : SplitState) (ts us : List Token) : after s (ts ++ us) = after (after s ts) us := List.foldl_append

/-- No token of a text without the closing pair is one. -/
theorem kind_ne_compositeClose (hx : ¬Value.closingPair <:+: x) : ∀ k ∈ scan x, k.kind ≠ .compositeClose := by
  fun_induction Token.scan x with
  | case1 => simp
  | case2 t ih => exact List.forall_mem_cons.2 ⟨by decide, ih fun h => hx (h.trans (List.suffix_append ['"', '<'] t).isInfix)⟩
  | case3 t ih => exact absurd (List.prefix_append ['>', '"'] t).isInfix hx
  | case4 c t _ _ ih =>
    intro k hk
    rcases mem_consChar hk with hk | hk | rfl
    · exact ih (fun h => hx (h.trans (List.suffix_cons c t).isInfix)) k hk
    · simp [hk]
    · unfold TokenKind.ofChar
      grind

/-- **Nothing between composite quotes counts**: no token is a cut, and none changes the state. -/
theorem inert_of_composite (depth : Nat) : ∀ {ts : List Token} (start : Nat), (∀ k ∈ ts, k.kind ≠ .compositeClose) →
    after ⟨depth, .composite, false⟩ ts = ⟨depth, .composite, false⟩ ∧
      cutSpans d ⟨depth, .composite, false⟩ start ts = [] ∧
      pieces d ⟨depth, .composite, false⟩ ts = [untokenize ts]
  | [], _, _ => ⟨rfl, rfl, rfl⟩
  | t :: ts, start, h => by
    obtain ⟨ht, h⟩ := List.forall_mem_cons.1 h
    obtain ⟨hafter, hspans, hpieces⟩ := inert_of_composite depth (start + byteSize t.text) h
    have hcut : cutsAt d ⟨depth, .composite, false⟩ t = false := by simp [cutsAt, SplitState.atTop]
    simp only [cutSpans, pieces, after, List.foldl_cons, step_composite ht, hcut] at hafter ⊢
    simp [hafter, hspans, hpieces, prepend, untokenize]

/-- A quoted text is one piece, and behind it the walk is where it was. -/
theorem inert_quoted (hx : ¬Value.closingPair <:+: x) (depth start : Nat) :
    after ⟨depth, .none, false⟩ (scan (quoted x)) = ⟨depth, .none, false⟩ ∧
      cutSpans d ⟨depth, .none, false⟩ start (scan (quoted x)) = [] ∧
      pieces d ⟨depth, .none, false⟩ (scan (quoted x)) = [quoted x] := by
  have hscan := scan_quoted_append x []
  obtain ⟨hafter, hspans, hpieces⟩ := inert_of_composite (d := d) depth (start + 2) (kind_ne_compositeClose hx)
  have hopen : SplitState.step ⟨depth, .none, false⟩ .compositeOpen = ⟨depth, .composite, false⟩ := rfl
  have hclose : SplitState.step ⟨depth, .composite, false⟩ .compositeClose = ⟨depth, .none, false⟩ := rfl
  have hcut : ∀ s, cutsAt d s ⟨.compositeOpen, ['"', '<']⟩ = false ∧ cutsAt d s ⟨.compositeClose, ['>', '"']⟩ = false := by
    cases d <;> simp [cutsAt, Delimiter.kind]
  have hsize : byteSize ['"', '<'] = 2 := by decide
  rw [List.append_nil, scan] at hscan
  rw [hscan]
  refine ⟨?_, ?_, ?_⟩
  · unfold after at hafter ⊢
    rw [List.foldl_cons, List.foldl_append, hopen, hafter, List.foldl_cons, hclose, List.foldl_nil]
  · rw [cutSpans, cutSpans_append, hsize, hopen, hspans, hafter]
    simp [cutSpans, hcut]
  · rw [pieces, pieces_append, hopen, hpieces, hafter]
    simp [pieces, hcut, prepend, Token.untokenize_scan, quoted]

theorem eq_of_outside {s : SplitState} (hquoting : s.quoting = .none) (hescaped : s.escaped = false) :
    s = ⟨s.depth, .none, false⟩ := by
  obtain ⟨depth, quoting, escaped⟩ := s
  subst hquoting hescaped
  rfl

theorem dropEmptyEnd_append_cons {t : Text} (ht : t ≠ []) (us : List Text) :
    ∀ ts : List Text, dropEmptyEnd (ts ++ t :: us) = ts ++ t :: dropEmptyEnd us
  | [] => by simp [dropEmptyEnd_cons, ht]
  | u :: ts => by simp [dropEmptyEnd_cons, dropEmptyEnd_append_cons ht us ts]

theorem trimStart_append (a : Text) {b : Text} (hb : ∀ c ∈ b.head?, Text.isBlank c = false) :
    trimStart (a ++ b) = trimStart a ++ b := by
  have hself : trimStart b = b := Text.trimStart_eq_self hb
  unfold trimStart at hself ⊢
  rw [List.dropWhile_append]
  split
  · rename_i hnil
    rw [hself, List.isEmpty_iff.1 hnil, List.nil_append]
  · rfl

/-- Trimming stops at the quotes. -/
theorem trim_quoted (a x b : Text) : trim (a ++ quoted x ++ b) = trimStart a ++ quoted x ++ trimEnd b := by
  have hquote : Text.isBlank '"' = false := by decide
  have htrimmed : Text.Trimmed (trimStart a ++ quoted x) := by
    refine ⟨fun c hc => ?_, fun c hc => ?_⟩
    · cases ha : trimStart a with
      | nil =>
        obtain rfl : '"' = c := by simpa [ha, quoted] using hc
        exact hquote
      | cons e u => exact Text.head?_trimStart a c (by simpa [ha] using hc)
    · obtain rfl : '"' = c := by simpa [quoted, List.getLast?_cons] using hc
      exact hquote
  rw [← Text.trim_trimStart, List.append_assoc, trimStart_append a (by simp [quoted, hquote]), ← List.append_assoc,
    Text.trim_append_of_trimmed htrimmed (by simp [quoted])]

/-- **Composite-quoted text is inert.**  Behind a text that ends outside quotes, not escaped and not with `>`, a quoted text
leaves the walk where it was and adds no delimiter.  The delimiters, which are what a text is cut at, are those of the text
before it and those of the text behind it, as many bytes further on as stand before that; the pieces are the same, with the
quoted text in one of them. -/
theorem delimiterSpans_quoted (d : Delimiter) {p : Text} (hquoting : (stateAfter p).quoting = .none)
    (hescaped : (stateAfter p).escaped = false) (hlast : p.getLast? ≠ some '>') (q : Text) :
    (∀ t, delimiterSpans d t = gaps 0 (pieces d .initial (scan t))) ∧
    (∀ x, ¬Value.closingPair <:+: x → stateAfter (p ++ quoted x) = stateAfter p ∧
      delimiterSpans d (p ++ quoted x ++ q) =
        delimiterSpans d p ++ (cutSpans d (stateAfter p) 0 (scan q)).map (shift (byteSize (p ++ quoted x)))) ∧
    ∃ before last first behind, ∀ x, ¬Value.closingPair <:+: x →
      splitTop d (p ++ quoted x ++ q) = before ++ (last ++ quoted x ++ first) :: behind := by
  have hstate : stateAfter p = ⟨(stateAfter p).depth, .none, false⟩ := eq_of_outside hquoting hescaped
  have hsize : ∀ t : Text, byteSize (untokenize (scan t)) = byteSize t := fun t => by rw [Token.untokenize_scan]
  have hinert : ∀ x, ¬Value.closingPair <:+: x → ∀ start, after (stateAfter p) (scan (quoted x)) = stateAfter p ∧
      cutSpans d (stateAfter p) start (scan (quoted x)) = [] ∧ pieces d (stateAfter p) (scan (quoted x)) = [quoted x] := by
    intro x hx start
    rw [hstate]
    exact inert_quoted hx _ start
  refine ⟨delimiterSpans_eq_gaps d, fun x hx => ⟨?_, ?_⟩, ?_⟩
  · have hscan := scan_quoted hlast x []
    rw [List.append_nil, scan, List.append_nil] at hscan
    rw [stateAfter, hscan, after_append]
    exact (hinert x hx 0).1
  · obtain ⟨hafter, hspans, -⟩ := hinert x hx (0 + byteSize p)
    rw [delimiterSpans, scan_quoted hlast, cutSpans_append, cutSpans_append, hsize, hsize, ← stateAfter, hspans, hafter,
      List.nil_append, Nat.zero_add, ← byteSize_append, ← Nat.add_zero (byteSize (p ++ quoted x)), cutSpans_add]
    rfl
  · obtain ⟨first, behind, hq⟩ := List.exists_cons_of_ne_nil (pieces_ne_nil d (stateAfter p) (scan q))
    refine ⟨(pieces d .initial (scan p)).dropLast.map trim, trimStart ((pieces d .initial (scan p)).getLast?.getD []),
      trimEnd first, dropEmptyEnd (behind.map trim), fun x hx => ?_⟩
    obtain ⟨hafter, -, hpieces⟩ := hinert x hx 0
    have hsplit : pieces d .initial (scan (p ++ quoted x ++ q)) = (pieces d .initial (scan p)).dropLast ++
        ((pieces d .initial (scan p)).getLast?.getD [] ++ quoted x ++ first) :: behind := by
      rw [scan_quoted hlast, pieces_append, ← stateAfter, pieces_append, hafter, hpieces, hq]
      simp [prepend]
    rw [splitTop, hsplit, List.map_append, List.map_cons, trim_quoted, dropEmptyEnd_append_cons (by simp [quoted])]

/-- Within a bracket, a text with a delimiter, brackets, a backslash and an opening pair, and no text at all. -/
theorem delimiterSpans_quoted_note :
    stateAfter "a, (b ".toList = ⟨1, .none, false⟩ ∧ ¬Value.closingPair <:+: "c), \\\"<:>".toList ∧
      delimiterSpans .comma ("a, (b ".toList ++ quoted "c), \\\"<:>".toList ++ ", d), e".toList) = [(1, 2), (23, 24)] ∧
      delimiterSpans .comma ("a, (b ".toList ++ quoted [] ++ ", d), e".toList) = [(1, 2), (14, 15)] ∧
      ∃ before last first behind, ∀ x ∈ ["c), \\\"<:>".toList, []],
        splitTop .comma ("a, (b ".toList ++ quoted x ++ ", d), e".toList) =
          before ++ (last ++ quoted x ++ first) :: behind := by
  have hx : ¬Value.closingPair <:+: "c), \\\"<:>".toList := by decide +kernel
  have hnil : ¬Value.closingPair <:+: [] := by decide +kernel
  obtain ⟨-, hspans, before, last, first, behind, hsplit⟩ :=
    delimiterSpans_quoted .comma (p := "a, (b ".toList) (by decide +kernel) (by decide +kernel) (by decide +kernel)
      ", d), e".toList
  refine ⟨by decide +kernel, hx, (hspans _ hx).2.trans (by decide +kernel), (hspans _ hnil).2.trans (by decide +kernel),
    before, last, first, behind, fun x hmem => hsplit x ?_⟩
  rcases List.mem_cons.1 hmem with rfl | hmem
  · exact hx
  · rwa [List.mem_singleton.1 hmem]

end Split
end Gridmark
