import Mathlib.Data.List.Chain
import Gridmark.Proofs.Inert
/-!
# Tokenizing — the longest match, everywhere

Each kind of token has its texts (`Allows`), and some of these begin like others: a quote may be the start of a pair.  A
lexer takes the longest text of any kind at every place, and passes over a character at which there is none (`Lexes`).
There is always one, so nothing is passed over, and the tokens of a text are the only ones a lexer can come to
(`lexes_iff`).  What is known of tokens side by side follows from the longest match alone: two that could be one would
have been one (`LongestMatches.not_slice_quote`, `LongestMatches.isChain_plain`).
-/
namespace Gridmark

open Text (byteSize)

namespace TokenKind

/-- The characters that no plain run holds. -/
def marks : List Char := ['"', '\\', '(', ')', '[', ']', '\x7b', '\x7d', ',', ':', '<', '>']

def Allows : TokenKind → Text → Prop
  | .compositeOpen, t => t = ['"', '<']
  | .compositeClose, t => t = ['>', '"']
  | .quote, t => t = ['"']
  | .backslash, t => t = ['\\']
  | .opening, t => t = ['('] ∨ t = ['['] ∨ t = ['\x7b']
  | .closing, t => t = [')'] ∨ t = [']'] ∨ t = ['\x7d']
  | .comma, t => t = [',']
  | .colon, t => t = [':']
  | .angle, t => t = ['<'] ∨ t = ['>']
  | .plain, t => t ≠ [] ∧ ∀ c ∈ t, c ∉ marks

variable {k k' : TokenKind} {c : Char} {t : Text}

theorem ofChar_eq_plain_iff : ofChar c = .plain ↔ c ∉ marks := by
  constructor
  · intro h hc
    simp only [marks, List.mem_cons, List.not_mem_nil, or_false] at hc
    rcases hc with rfl | rfl | rfl | rfl | rfl | rfl | rfl | rfl | rfl | rfl | rfl | rfl <;> cases h
  · intro h
    simp only [marks, List.mem_cons, List.not_mem_nil, or_false, not_or] at h
    simp [ofChar, h]

theorem allows_ofChar (c : Char) : (ofChar c).Allows [c] := by
  by_cases h : c ∈ marks
  · simp only [marks, List.mem_cons, List.not_mem_nil, or_false] at h
    rcases h with rfl | rfl | rfl | rfl | rfl | rfl | rfl | rfl | rfl | rfl | rfl | rfl <;> simp [ofChar, Allows]
  · rw [ofChar_eq_plain_iff.2 h]
    exact ⟨List.cons_ne_nil c [], by simpa using h⟩

/-- A text of a kind is one of the two pairs, a single mark, or a plain run. -/
theorem Allows.cases (h : k.Allows t) : (k = .compositeOpen ∧ t = ['"', '<']) ∨ (k = .compositeClose ∧ t = ['>', '"']) ∨
    (∃ c ∈ marks, t = [c] ∧ k = ofChar c) ∨ (k = .plain ∧ t ≠ [] ∧ ∀ c ∈ t, c ∉ marks) := by
  cases k with
  | compositeOpen => exact .inl ⟨rfl, h⟩
  | compositeClose => exact .inr (.inl ⟨rfl, h⟩)
  | plain => exact .inr (.inr (.inr ⟨rfl, h⟩))
  | quote | backslash | comma | colon =>
    obtain rfl := h
    exact .inr (.inr (.inl ⟨_, by simp [marks], rfl, rfl⟩))
  | opening | closing =>
    rcases h with rfl | rfl | rfl <;> exact .inr (.inr (.inl ⟨_, by simp [marks], rfl, rfl⟩))
  | angle =>
    rcases h with rfl | rfl <;> exact .inr (.inr (.inl ⟨_, by simp [marks], rfl, rfl⟩))

theorem Allows.ne_nil (h : k.Allows t) : t ≠ [] := by
  rcases h.cases with ⟨-, rfl⟩ | ⟨-, rfl⟩ | ⟨c, -, rfl, -⟩ | ⟨-, hne, -⟩
  · exact List.cons_ne_nil _ _
  · exact List.cons_ne_nil _ _
  · exact List.cons_ne_nil _ _
  · exact hne

/-- A text with a mark in front is short. -/
theorem Allows.cases_mark (h : k.Allows (c :: t)) (hc : c ∈ marks) : t = [] ∨ (c = '"' ∧ t = ['<']) ∨ (c = '>' ∧ t = ['"']) := by
  rcases h.cases with ⟨-, he⟩ | ⟨-, he⟩ | ⟨d, -, he, -⟩ | ⟨-, -, hplain⟩
  · exact .inr (.inl (List.cons.inj he))
  · exact .inr (.inr (List.cons.inj he))
  · exact .inl (List.cons.inj he).2
  · exact absurd hc (hplain c List.mem_cons_self)

theorem Allows.eq_plain (h : k.Allows (c :: t)) (hc : c ∉ marks) : k = .plain := by
  rcases h.cases with ⟨-, he⟩ | ⟨-, he⟩ | ⟨d, hd, he, -⟩ | ⟨hk, -⟩
  · rw [(List.cons.inj he).1] at hc
    simp [marks] at hc
  · rw [(List.cons.inj he).1] at hc
    simp [marks] at hc
  · rw [(List.cons.inj he).1] at hc
    exact absurd hd hc
  · exact hk

theorem Allows.unique (h : k.Allows t) (h' : k'.Allows t) : k = k' := by
  rcases h.cases with ⟨rfl, rfl⟩ | ⟨rfl, rfl⟩ | ⟨c, hc, rfl, rfl⟩ | ⟨rfl, hne, hplain⟩
  · rcases h'.cases with ⟨rfl, -⟩ | ⟨-, he⟩ | ⟨c, -, he, -⟩ | ⟨-, -, hplain⟩
    · rfl
    · cases he
    · cases he
    · exact absurd (by simp [marks]) (hplain '"' (by simp))
  · rcases h'.cases with ⟨-, he⟩ | ⟨rfl, -⟩ | ⟨c, -, he, -⟩ | ⟨-, -, hplain⟩
    · cases he
    · rfl
    · cases he
    · exact absurd (by simp [marks]) (hplain '>' (by simp))
  · rcases h'.cases with ⟨-, he⟩ | ⟨-, he⟩ | ⟨d, -, he, rfl⟩ | ⟨-, -, hplain⟩
    · cases he
    · cases he
    · rw [(List.cons.inj he).1]
    · exact absurd hc (hplain c List.mem_cons_self)
  · obtain ⟨c, u, rfl⟩ := List.exists_cons_of_ne_nil hne
    exact (h'.eq_plain (hplain c List.mem_cons_self)).symm

end TokenKind

namespace Token

open TokenKind (marks ofChar)

/-- A kind with a text of it at the start of a source, and no longer text of any kind there. -/
structure Longest (k : TokenKind) (t rest : Text) : Prop where
  allows : k.Allows t
  le : ∀ k' t', TokenKind.Allows k' t' → t' <+: t ++ rest → t'.length ≤ t.length

/-- A lexer at a byte offset, with the tokens that it comes to from there on.  Where no kind has a text it passes over a
character. -/
inductive Lexes : Nat → Text → List (TokenKind × Nat × Nat) → Prop
  | done {n} : Lexes n [] []
  | take {n k t rest rs} : Longest k t rest → Lexes (n + byteSize t) rest rs →
    Lexes n (t ++ rest) ((k, n, n + byteSize t) :: rs)
  | skip {n c rest rs} : (∀ k t, TokenKind.Allows k t → ¬t <+: c :: rest) → Lexes (n + c.utf8Size) rest rs →
    Lexes n (c :: rest) rs

variable {k : TokenKind} {c : Char} {t rest source : Text} {n : Nat} {rs : List (TokenKind × Nat × Nat)}

theorem longest_composite (hc : k = .compositeOpen ∧ t = ['"', '<'] ∨ k = .compositeClose ∧ t = ['>', '"']) (rest : Text) :
    Longest k t rest := by
  refine ⟨by rcases hc with ⟨rfl, rfl⟩ | ⟨rfl, rfl⟩ <;> rfl, fun k' t' h hpre => ?_⟩
  obtain ⟨x, u, rfl⟩ := List.exists_cons_of_ne_nil h.ne_nil
  have hmark : x ∈ marks ∧ t.length = 2 := by
    rcases hc with ⟨-, rfl⟩ | ⟨-, rfl⟩ <;> exact ⟨(List.cons_prefix_cons.1 hpre).1 ▸ by simp [marks], rfl⟩
  rw [hmark.2]
  rcases h.cases_mark hmark.1 with rfl | ⟨-, rfl⟩ | ⟨-, rfl⟩ <;> simp

/-- A mark that starts no pair is a token. -/
theorem longest_mark (hopen : ∀ u, c = '"' → rest = '<' :: u → False) (hclose : ∀ u, c = '>' → rest = '"' :: u → False)
    (hc : c ∈ marks) : Longest (ofChar c) [c] rest := by
  refine ⟨TokenKind.allows_ofChar c, fun k' t' h hpre => ?_⟩
  obtain ⟨x, u, rfl⟩ := List.exists_cons_of_ne_nil h.ne_nil
  obtain ⟨rfl, hu⟩ := List.cons_prefix_cons.1 hpre
  rcases h.cases_mark hc with rfl | ⟨rfl, rfl⟩ | ⟨rfl, rfl⟩
  · exact Nat.le_refl _
  · obtain ⟨v, hv⟩ := hu
    exact (hopen v rfl hv.symm).elim
  · obtain ⟨v, hv⟩ := hu
    exact (hclose v rfl hv.symm).elim

/-- In front of a plain run a plain character is part of it. -/
theorem Longest.cons_plain (h : Longest .plain t rest) (hc : c ∉ marks) : Longest .plain (c :: t) rest := by
  refine ⟨⟨List.cons_ne_nil c t, List.forall_mem_cons.2 ⟨hc, h.allows.2⟩⟩, fun k' t' h' hpre => ?_⟩
  obtain ⟨x, u, rfl⟩ := List.exists_cons_of_ne_nil h'.ne_nil
  obtain ⟨rfl, hu⟩ := List.cons_prefix_cons.1 hpre
  obtain rfl := h'.eq_plain hc
  by_cases hnil : u = []
  · simp [hnil]
  · have hle := h.le .plain u ⟨hnil, fun y hy => h'.2 y (List.mem_cons_of_mem _ hy)⟩ hu
    simpa using hle

/-- A plain character is a run of its own where none begins behind it. -/
theorem longest_plain (hc : c ∉ marks) (hrest : ∀ x ∈ rest.head?, x ∈ marks) : Longest .plain [c] rest := by
  refine ⟨⟨List.cons_ne_nil c [], by simpa using hc⟩, fun k' t' h hpre => ?_⟩
  obtain ⟨x, u, rfl⟩ := List.exists_cons_of_ne_nil h.ne_nil
  obtain ⟨rfl, hu⟩ := List.cons_prefix_cons.1 hpre
  obtain rfl := h.eq_plain hc
  cases u with
  | nil => exact Nat.le_refl _
  | cons y u =>
    obtain ⟨v, rfl⟩ := hu
    exact absurd (hrest y rfl) (h.2 y (by simp))

/-- **The first token is the longest match**, and the others are the tokens of what follows it. -/
theorem exists_scan_eq_cons (h : source ≠ []) : ∃ k t rest, source = t ++ rest ∧ scan source = ⟨k, t⟩ :: scan rest ∧
    Longest k t rest := by
  fun_induction scan source with
  | case1 => exact absurd rfl h
  | case2 t _ => exact ⟨_, ['"', '<'], t, rfl, rfl, longest_composite (.inl ⟨rfl, rfl⟩) t⟩
  | case3 t _ => exact ⟨_, ['>', '"'], t, rfl, rfl, longest_composite (.inr ⟨rfl, rfl⟩) t⟩
  | case4 c t hopen hclose ih =>
    by_cases hc : c ∈ marks
    · have hkind : ofChar c ≠ .plain := fun h => TokenKind.ofChar_eq_plain_iff.1 h hc
      refine ⟨ofChar c, [c], t, rfl, ?_, longest_mark hopen hclose hc⟩
      unfold consChar
      split
      · exact absurd ‹_› hkind
      · rfl
    · have hkind := TokenKind.ofChar_eq_plain_iff.2 hc
      have hcons : ∀ ts, consChar c ts = consPlain c ts := fun ts => by rw [consChar, hkind]
      rw [hcons]
      cases t with
      | nil => exact ⟨.plain, [c], [], rfl, rfl, longest_plain hc (by simp)⟩
      | cons d t =>
        obtain ⟨k, u, rest, hsource, hscan, hlongest⟩ := ih (List.cons_ne_nil d t)
        obtain ⟨x, u, rfl⟩ := List.exists_cons_of_ne_nil hlongest.allows.ne_nil
        obtain rfl := (List.cons.inj hsource).1
        by_cases hd : d ∈ marks
        · have hk : k ≠ .plain := by
            rintro rfl
            exact hlongest.allows.2 d List.mem_cons_self hd
          refine ⟨.plain, [c], d :: t, rfl, ?_, longest_plain hc (by simpa using hd)⟩
          rw [hscan]
          unfold consPlain
          split
          · exact absurd (congrArg Token.kind (List.cons.inj ‹_›).1) hk
          · rfl
        · obtain rfl := hlongest.allows.eq_plain hd
          refine ⟨.plain, c :: d :: u, rest, by rw [hsource]; rfl, ?_, hlongest.cons_plain hc⟩
          rw [hscan]
          rfl

theorem Longest.unique {k' : TokenKind} {t' rest' : Text} (h : Longest k t rest) (h' : Longest k' t' rest')
    (he : t ++ rest = t' ++ rest') : k = k' ∧ t = t' ∧ rest = rest' := by
  have hle := h.le k' t' h'.allows (he ▸ List.prefix_append t' rest')
  have hle' := h'.le k t h.allows (he ▸ List.prefix_append t rest)
  obtain ⟨rfl, rfl⟩ := List.append_inj he (Nat.le_antisymm hle' hle)
  exact ⟨h.allows.unique h'.allows, rfl, rfl⟩

/-- **A lexer comes to the tokens of the text and to no others**, and so it passes over nothing. -/
theorem lexes_iff : Lexes n source rs ↔ rs = spansFrom n (scan source) := by
  constructor
  · intro h
    induction h with
    | done => rfl
    | @take n k t rest rs hlongest _ ih =>
      have hne : t ++ rest ≠ [] := by simp [hlongest.allows.ne_nil]
      obtain ⟨k', t', rest', hsource, hscan, hlongest'⟩ := exists_scan_eq_cons hne
      obtain ⟨rfl, rfl, rfl⟩ := hlongest.unique hlongest' hsource
      rw [hscan, ih]
      rfl
    | @skip n c rest rs hnone _ _ =>
      exact absurd ⟨rest, rfl⟩ (hnone (ofChar c) [c] (TokenKind.allows_ofChar c))
  · rintro rfl
    induction hlen : source.length using Nat.strongRecOn generalizing source n with
    | ind len ih =>
      by_cases hnil : source = []
      · subst hnil
        exact .done
      · obtain ⟨k, t, rest, rfl, hscan, hlongest⟩ := exists_scan_eq_cons hnil
        have hpos := List.length_pos_iff.2 hlongest.allows.ne_nil
        rw [hscan]
        exact .take hlongest (ih rest.length (by rw [← hlen, List.length_append]; omega) rfl)

/-! ## Byte ranges -/

/-- A part of a source between two byte offsets, both of which lie between characters. -/
def Slice (source : Text) (start : Nat) (t : Text) (stop : Nat) : Prop :=
  ∃ a b, source = a ++ (t ++ b) ∧ start = byteSize a ∧ stop = start + byteSize t

/-- Byte ranges that are not empty and follow each other without a gap, from one offset to another. -/
def Tiles : Nat → Nat → List (TokenKind × Nat × Nat) → Prop
  | start, stop, [] => start = stop
  | start, stop, (_, a, b) :: rs => a = start ∧ a < b ∧ Tiles b stop rs

theorem byteSize_pos (h : t ≠ []) : 0 < byteSize t := by
  obtain ⟨c, u, rfl⟩ := List.exists_cons_of_ne_nil h
  have := c.utf8Size_pos
  rw [byteSize]
  omega

/-- An offset between characters is the end of one beginning of the text. -/
theorem eq_of_byteSize_eq {a b u v : Text} (h : a ++ u = b ++ v) (hsize : byteSize a = byteSize b) : a = b ∧ u = v := by
  have hnil : ∀ w : Text, byteSize w = 0 → w = [] := fun w hw => by
    by_contra hne
    have := byteSize_pos hne
    omega
  rcases List.append_eq_append_iff.1 h with ⟨w, rfl, rfl⟩ | ⟨w, rfl, rfl⟩ <;> rw [Split.byteSize_append] at hsize
  · obtain rfl := hnil w (by omega)
    simp
  · obtain rfl := hnil w (by omega)
    simp

theorem Slice.append {u : Text} {a b e : Nat} (h : Slice source a t b) (h' : Slice source b u e) : Slice source a (t ++ u) e := by
  obtain ⟨p, q, rfl, rfl, rfl⟩ := h
  obtain ⟨p', q', hsource, hstart, rfl⟩ := h'
  rw [← List.append_assoc] at hsource
  obtain ⟨-, rfl⟩ := eq_of_byteSize_eq hsource (by rw [Split.byteSize_append, hstart])
  exact ⟨p, q', by simp, rfl, by rw [Split.byteSize_append, Nat.add_assoc]⟩

theorem Tiles.isChain : ∀ {rs : List (TokenKind × Nat × Nat)} {start stop : Nat}, Tiles start stop rs →
    rs.IsChain fun r s => r.2.2 = s.2.1 ∧ s.2.1 < s.2.2
  | [], _, _, _ => .nil
  | [r], _, _, _ => .singleton r
  | _ :: _ :: _, _, _, ⟨_, _, h⟩ => .cons_cons ⟨h.1.symm, h.1 ▸ h.2.1⟩ h.isChain

/-- Byte ranges that cut a source into longest matches. -/
structure LongestMatches (source : Text) (rs : List (TokenKind × Nat × Nat)) : Prop where
  tiles : Tiles 0 (byteSize source) rs
  texts : ∀ k a b, (k, a, b) ∈ rs → ∃ t, Slice source a t b ∧ k.Allows t
  longest : ∀ k a b, (k, a, b) ∈ rs → ∀ k' t b', Slice source a t b' → TokenKind.Allows k' t → b' ≤ b

theorem Lexes.tiles (h : Lexes n source rs) : Tiles n (n + byteSize source) rs := by
  induction h with
  | done => exact rfl
  | @take n k t rest rs hlongest _ ih =>
    have hpos := byteSize_pos hlongest.allows.ne_nil
    refine ⟨rfl, by omega, ?_⟩
    rw [Split.byteSize_append, ← Nat.add_assoc]
    exact ih
  | @skip n c rest rs hnone _ _ => exact absurd ⟨rest, rfl⟩ (hnone (ofChar c) [c] (TokenKind.allows_ofChar c))

theorem Lexes.exists_longest (h : Lexes n source rs) : ∀ before : Text, n = byteSize before → ∀ {k a b}, (k, a, b) ∈ rs →
    ∃ p t rest, before ++ source = p ++ (t ++ rest) ∧ a = byteSize p ∧ b = a + byteSize t ∧ Longest k t rest := by
  induction h with
  | done => simp
  | @take n k t rest rs hlongest _ ih =>
    rintro before rfl k' a b hmem
    rcases List.mem_cons.1 hmem with he | hmem
    · cases he
      exact ⟨before, t, rest, rfl, rfl, rfl, hlongest⟩
    · obtain ⟨p, t', rest', hsource, hrange⟩ := ih (before ++ t) (by rw [Split.byteSize_append]) hmem
      exact ⟨p, t', rest', by rw [← hsource, List.append_assoc], hrange⟩
  | @skip n c rest rs hnone _ _ => exact absurd ⟨rest, rfl⟩ (hnone (ofChar c) [c] (TokenKind.allows_ofChar c))

theorem Lexes.longestMatches (h : Lexes 0 source rs) : LongestMatches source rs where
  tiles := by
    have htiles := h.tiles
    rwa [Nat.zero_add] at htiles
  texts k a b hmem := by
    obtain ⟨p, t, rest, hsource, ha, hb, hlongest⟩ := h.exists_longest [] rfl hmem
    exact ⟨t, ⟨p, rest, hsource, ha, hb⟩, hlongest.allows⟩
  longest k a b hmem k' t' b' := by
    rintro ⟨p', q', hsource', ha', rfl⟩ hallows
    obtain ⟨p, t, rest, hsource, ha, rfl, hlongest⟩ := h.exists_longest [] rfl hmem
    obtain ⟨-, htail⟩ := eq_of_byteSize_eq (hsource.symm.trans hsource') (ha.symm.trans ha')
    have hpre : t' <+: t ++ rest := htail ▸ List.prefix_append t' q'
    obtain ⟨v, hv⟩ := List.prefix_of_prefix_length_le hpre (List.prefix_append t rest) (hlongest.le k' t' hallows hpre)
    rw [← hv, Split.byteSize_append]
    omega

/-! ## Side by side -/

namespace LongestMatches

variable (h : LongestMatches source rs)
include h

theorem not_slice_quote {a b : Nat} (hmem : (.quote, a, b) ∈ rs) : ¬Slice source b ['<'] (b + 1) := by
  intro hnext
  obtain ⟨t, ht, hallows⟩ := h.texts _ a b hmem
  obtain rfl : t = ['"'] := hallows
  have hle := h.longest _ a b hmem .compositeOpen _ _ (ht.append hnext) rfl
  omega

theorem not_slice_angle {a b : Nat} (hmem : (.angle, a, b) ∈ rs) (ht : Slice source a ['>'] b) : ¬Slice source b ['"'] (b + 1) := by
  intro hnext
  have hle := h.longest _ a b hmem .compositeClose _ _ (ht.append hnext) rfl
  omega

theorem isChain_plain : rs.IsChain fun r s => ¬(r.1 = .plain ∧ s.1 = .plain) := by
  refine h.tiles.isChain.imp_of_mem_imp fun r s hr hs habut => ?_
  obtain ⟨k, a, b⟩ := r
  obtain ⟨k', b', e⟩ := s
  obtain ⟨rfl, hlt⟩ := habut
  rintro ⟨rfl, rfl⟩
  obtain ⟨t, ht, hallows⟩ := h.texts _ a b hr
  obtain ⟨u, hu, hallows'⟩ := h.texts _ b e hs
  have hle := h.longest _ a b hr .plain (t ++ u) e (ht.append hu)
    ⟨by simp [hallows.1], List.forall_mem_append.2 ⟨hallows.2, hallows'.2⟩⟩
  dsimp only at hlt
  omega

end LongestMatches

/-- **The tokens of a text are its longest matches**: they are what a lexer comes to that takes the longest text of any
kind everywhere and passes over characters that have none, they leave out no byte and cut no character, each text is of
its kind, and no two tokens side by side could have been one. -/
theorem longestMatches_spans (source : Text) :
    (∀ rs, Lexes 0 source rs ↔ rs = spans source) ∧ LongestMatches source (spans source) ∧
      (∀ a b, (.quote, a, b) ∈ spans source → ¬Slice source b ['<'] (b + 1)) ∧
      (∀ a b, (.angle, a, b) ∈ spans source → Slice source a ['>'] b → ¬Slice source b ['"'] (b + 1)) ∧
      (spans source).IsChain fun r s => ¬(r.1 = .plain ∧ s.1 = .plain) := by
  have hlexes : Lexes 0 source (spans source) := lexes_iff.2 rfl
  have hlongest := hlexes.longestMatches
  exact ⟨fun _ => lexes_iff, hlongest, fun _ _ => hlongest.not_slice_quote, fun _ _ => hlongest.not_slice_angle,
    hlongest.isChain_plain⟩

end Token
end Gridmark
