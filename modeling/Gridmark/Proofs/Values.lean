import Gridmark.Proofs.Apart
/-!
# Values — property lists read back

A written value is read back but for backslash and `n`, which is read as a line feed (`read_write`).  What keeps a list
together is that its entries are *level*: walked outside quotes, a level text leaves the depth as it was and no quote open,
and no comma in it is a cut.  Keys and bare values are level for want of any structure, and composite quotes hide
everything up to the first `>"`.
-/
namespace Gridmark

open Text (trim)

/-! ## Values -/

namespace Value

/-- The two characters that are read as a line feed. -/
def newlinePair : Text := ['\\', 'n']

/-- The two characters that end composite quotes. -/
def closingPair : Text := ['>', '"']

/-- Values that read back: without the pair that is read as a line feed and the pair that ends the quotes. -/
def Writable (v : Text) : Prop := ¬newlinePair <:+: v ∧ ¬closingPair <:+: v

instance (v : Text) : Decidable (Writable v) := inferInstanceAs (Decidable (_ ∧ _))

theorem expandNewlines_cons {c : Char} {t : Text} (h : ∀ u, c = '\\' → t = 'n' :: u → False) :
    expandNewlines (c :: t) = c :: expandNewlines t := by
  rw [expandNewlines]
  exact h

theorem exists_of_replaceChar {c : Char} {v u : Text} (hc : c ≠ '\\')
    (h : Text.replaceChar '\n' newlinePair v = c :: u) : ∃ w, v = c :: w := by
  cases v with
  | nil => cases h
  | cons d v =>
    rw [Text.replaceChar] at h
    split at h
    · exact absurd (List.cons.inj h).1.symm hc
    · exact ⟨v, by rw [(List.cons.inj h).1]⟩

theorem isInfix_of_replaceChar : ∀ {v : Text}, closingPair <:+: Text.replaceChar '\n' newlinePair v → closingPair <:+: v
  | [], h => h
  | c :: v, h => by
    rw [Text.replaceChar] at h
    refine List.infix_cons_iff.2 ?_
    split at h
    · rcases List.infix_cons_iff.1 h with hp | h
      · exact absurd (List.cons_prefix_cons.1 hp).1 (by decide)
      · rcases List.infix_cons_iff.1 h with hp | h
        · exact absurd (List.cons_prefix_cons.1 hp).1 (by decide)
        · exact .inr (isInfix_of_replaceChar h)
    · rcases List.infix_cons_iff.1 h with hp | h
      · obtain ⟨rfl, u, hu⟩ := List.cons_prefix_cons.1 hp
        obtain ⟨w, rfl⟩ := exists_of_replaceChar (by decide) hu.symm
        exact .inl ⟨w, rfl⟩
      · exact .inr (isInfix_of_replaceChar h)

/-- Writing line feeds out changes nothing about what is read. -/
theorem expandNewlines_replaceChar (v : Text) :
    expandNewlines (Text.replaceChar '\n' newlinePair v) = expandNewlines v := by
  fun_induction expandNewlines v with
  | case1 => rfl
  | case2 t ih =>
    show expandNewlines ('\\' :: 'n' :: Text.replaceChar '\n' newlinePair t) = _
    rw [expandNewlines, ih]
  | case3 c t h ih =>
    rw [Text.replaceChar]
    split
    · rename_i hc
      show expandNewlines ('\\' :: 'n' :: Text.replaceChar '\n' newlinePair t) = _
      rw [expandNewlines, ih, hc]
    · rw [expandNewlines_cons, ih]
      intro u hc hu
      obtain ⟨w, rfl⟩ := exists_of_replaceChar (by decide) hu
      exact h w hc rfl

theorem expandNewlines_eq_self {v : Text} (h : ¬newlinePair <:+: v) : expandNewlines v = v := by
  fun_induction expandNewlines v with
  | case1 => rfl
  | case2 t ih => exact absurd (List.IsPrefix.isInfix ⟨t, rfl⟩) h
  | case3 c t _ ih => rw [ih fun hi => h (hi.trans (List.suffix_cons c t).isInfix)]

theorem between?_append (a b : Char) (t : Text) : Text.between? a b (a :: (t ++ [b])) = some t := by
  rw [Text.between?, if_pos rfl, Text.dropLast?, List.getLast?_concat, if_pos rfl, List.dropLast_concat]

theorem between?_of_not_mem {a b : Char} {t : Text} (h : a ∉ t) : Text.between? a b t = none := by
  cases t with
  | nil => rfl
  | cons c t =>
    rw [Text.between?, if_neg]
    rintro rfl
    exact h List.mem_cons_self

theorem unquote_composite (t : Text) : unquote (['"', '<'] ++ t ++ ['>', '"']) = t := by
  have h : compositeInner? (['"', '<'] ++ t ++ ['>', '"']) = some t := by
    unfold compositeInner?
    rw [show ['"', '<'] ++ t ++ ['>', '"'] = '"' :: (('<' :: (t ++ ['>'])) ++ ['"']) by simp, between?_append,
      Option.bind_some, between?_append]
  rw [unquote, h]

theorem trim_composite (v : Text) : trim (composite v) = composite v :=
  Text.trim_eq_self <| by
    rw [show composite v = '"' :: ('<' :: Text.replaceChar '\n' ['\\', 'n'] v ++ ['>'] ++ ['"']) by simp [composite]]
    exact Text.trimmed_cons_concat (by decide) (by decide) _

/-- **A written value is read as itself**, but for the pair that is read as a line feed. -/
theorem read_write (v : Text) : read (write v) = expandNewlines v := by
  unfold read write
  split
  · rw [trim_composite, composite, unquote_composite]
    exact expandNewlines_replaceChar v
  · rename_i h
    obtain ⟨hs, ht⟩ := Bool.or_eq_false_iff.1 (Bool.eq_false_iff.2 h)
    have htrim : trim v = v := by simpa using ht
    have hq : '"' ∉ v := fun hm => by
      have := List.any_eq_false.1 hs _ hm
      simp [isStructural] at this
    rw [htrim, unquote, compositeInner?, between?_of_not_mem hq, Option.bind_none, Option.getD_none]

/-- A written value stands on one line. -/
theorem not_mem_write (v : Text) : '\n' ∉ write v := by
  unfold write
  split
  · have hr : ∀ t : Text, '\n' ∉ Text.replaceChar '\n' ['\\', 'n'] t := by
      intro t
      induction t with
      | nil => simp [Text.replaceChar]
      | cons c t ih =>
        rw [Text.replaceChar]
        split
        · simpa using ih
        · rename_i hc
          simpa using ⟨Ne.symm hc, ih⟩
    simpa [composite] using hr v
  · rename_i h
    have hs := (Bool.or_eq_false_iff.1 (Bool.eq_false_iff.2 h)).1
    exact fun hm => by simpa [isStructural] using List.any_eq_false.1 hs _ hm

end Value

/-! ## Level texts -/

namespace Split

/-- Walked outside quotes, the text has no cut and leaves the depth as it was and no quote open. -/
def Level (t : Text) : Prop :=
  ∀ depth, ∃ escaped, walk? .comma ⟨depth, .none, false⟩ t = some ⟨depth, .none, escaped⟩

theorem Level.sealed {t : Text} (h : Level t) : Sealed t := by
  obtain ⟨e, he⟩ := h 0
  exact ⟨⟨0, .none, e⟩, he, rfl⟩

/-- Tokens that open and close nothing and cut nothing. -/
def isBland : TokenKind → Bool
  | .plain | .backslash | .angle | .colon => true
  | _ => false

theorem step_bland {k : TokenKind} (hk : isBland k = true) (depth : Nat) (escaped : Bool) :
    ∃ escaped', SplitState.step ⟨depth, .none, escaped⟩ k = ⟨depth, .none, escaped'⟩ := by
  cases k <;> first | (cases escaped <;> exact ⟨_, rfl⟩) | cases hk

/-- Under a bracket a comma is no cut, so there it counts as little as a bland character. -/
theorem walk?_bland_or_comma {depth : Nat} : ∀ {t : Text}, (∀ c ∈ t, isBland (.ofChar c) = true ∨ c = ',' ∧ 0 < depth) →
    ∀ escaped, ∃ escaped', walk? .comma ⟨depth, .none, escaped⟩ t = some ⟨depth, .none, escaped'⟩
  | [], _, escaped => ⟨escaped, rfl⟩
  | c :: t, h, escaped => by
    obtain ⟨hc, ht⟩ := List.forall_mem_cons.1 h
    have hquote : ∀ d, isBland (.ofChar d) = true ∨ d = ',' ∧ 0 < depth → d ≠ '"' := by
      rintro d hd rfl
      rcases hd with hd | ⟨hd, -⟩ <;> exact absurd hd (by decide)
    have hcut : ¬cutsChar .comma ⟨depth, .none, escaped⟩ c := by
      rintro ⟨hkind, htop⟩
      rcases hc with hc | ⟨-, hdepth⟩
      · rw [hkind] at hc
        cases hc
      · simp [SplitState.atTop] at htop
        omega
    obtain ⟨e, he⟩ : ∃ e, SplitState.step ⟨depth, .none, escaped⟩ (.ofChar c) = ⟨depth, .none, e⟩ := by
      rcases hc with hc | ⟨rfl, -⟩
      · exact step_bland hc depth escaped
      · exact ⟨false, SplitState.step_comma _⟩
    obtain ⟨e', he'⟩ := walk?_bland_or_comma ht e
    refine ⟨e', ?_⟩
    rw [walk?_cons (fun _ hq _ => hquote c hc hq), if_neg hcut, he, he']
    rintro u - rfl
    exact hquote '"' (ht _ List.mem_cons_self) rfl

theorem walk?_bland {t : Text} (h : ∀ c ∈ t, isBland (.ofChar c) = true) (depth : Nat) (escaped : Bool) :
    ∃ escaped', walk? .comma ⟨depth, .none, escaped⟩ t = some ⟨depth, .none, escaped'⟩ :=
  walk?_bland_or_comma (fun c hc => .inl (h c hc)) escaped

theorem level_of_bland {t : Text} (h : ∀ c ∈ t, isBland (.ofChar c) = true) : Level t := fun depth => walk?_bland h depth false

/-- A blank ends an escape, so what follows it is walked as from the start. -/
theorem Level.append_blank {a b : Text} (ha : Level a) (hb : Level b) : Level (a ++ ' ' :: b) := by
  intro depth
  obtain ⟨e, he⟩ := ha depth
  obtain ⟨e', he'⟩ := hb depth
  exact ⟨e', by rw [walk?_append (joint_of_head (by simp) (by simp)), he, Option.bind_some, walk?_blank, he']⟩

theorem step_composite {k : TokenKind} (hk : k ≠ .compositeClose) (depth : Nat) :
    SplitState.step ⟨depth, .composite, false⟩ k = ⟨depth, .composite, false⟩ := by
  cases k <;> first | rfl | exact absurd rfl hk

/-- Nothing between composite quotes counts. -/
theorem walk?_composite {d : Delimiter} {depth : Nat} : ∀ {v : Text}, ¬Value.closingPair <:+: v →
    walk? d ⟨depth, .composite, false⟩ v = some ⟨depth, .composite, false⟩
  | [], _ => rfl
  | c :: v, h => by
    have hv : ¬Value.closingPair <:+: v := fun hi => h (hi.trans (List.suffix_cons c v).isInfix)
    by_cases h1 : ∃ u, c = '"' ∧ v = '<' :: u
    · obtain ⟨u, rfl, rfl⟩ := h1
      have hu : ¬Value.closingPair <:+: u := fun hi => hv (hi.trans (List.suffix_cons '<' u).isInfix)
      rw [walk?, step_composite (by decide), walk?_composite hu]
    · rw [walk?_cons, if_neg, step_composite, walk?_composite hv]
      · intro hc
        unfold TokenKind.ofChar at hc
        grind
      · exact fun hc => absurd hc.2 (by simp [SplitState.atTop])
      · exact fun u hc hu => h1 ⟨u, hc, hu⟩
      · rintro u rfl rfl
        exact h (List.IsPrefix.isInfix ⟨u, rfl⟩)

theorem level_composite {v : Text} (h : ¬Value.closingPair <:+: v) : Level (Value.composite v) := by
  intro depth
  have hw : walk? .comma ⟨depth, .composite, false⟩ (Text.replaceChar '\n' Value.newlinePair v) = _ :=
    walk?_composite fun hi => h (Value.isInfix_of_replaceChar hi)
  refine ⟨false, ?_⟩
  show walk? .comma ⟨depth, .composite, false⟩ (Text.replaceChar '\n' Value.newlinePair v ++ ['>', '"']) = _
  rw [walk?_append (joint_of_head (by decide) (by decide)), hw]
  rfl

theorem level_write {v : Text} (h : ¬Value.closingPair <:+: v) : Level (Value.write v) := by
  unfold Value.write
  split
  · exact level_composite h
  · rename_i hq
    have hs := (Bool.or_eq_false_iff.1 (Bool.eq_false_iff.2 hq)).1
    refine level_of_bland fun c hc => ?_
    have := List.any_eq_false.1 hs c hc
    unfold TokenKind.ofChar
    grind [isBland, Value.isStructural]

end Split

/-! ## Property lists -/

namespace Properties

/-- What a property list or a row is made of, and the line feed. -/
def structural : List Char := [',', ':', '(', ')', '[', ']', '\x7b', '\x7d', '"', '\n']

def IsKey (key : Text) : Prop := key ≠ [] ∧ trim key = key ∧ ∀ c ∈ key, c ∉ structural

instance (key : Text) : Decidable (IsKey key) :=
  haveI : Decidable (∀ c ∈ key, c ∉ structural) := List.decidableBAll _ key
  inferInstanceAs (Decidable (_ ∧ _ ∧ _))

theorem level_writeEntry {p : Text × Text} (hk : IsKey p.1) (hv : ¬Value.closingPair <:+: p.2) :
    Split.Level (writeEntry p) := by
  have hkey : Split.Level (p.1 ++ [':']) := by
    refine Split.level_of_bland fun c hc => ?_
    have hc : c ∉ structural ∨ c = ':' := by
      rcases List.mem_append.1 hc with hc | hc
      · exact .inl (hk.2.2 c hc)
      · exact .inr (List.mem_singleton.1 hc)
    unfold TokenKind.ofChar
    grind [Split.isBland, structural]
  have he : writeEntry p = (p.1 ++ [':']) ++ ' ' :: Value.write p.2 := by simp [writeEntry]
  rw [he]
  exact hkey.append_blank (Split.level_write hv)

theorem splitFirst?_append {c : Char} {b : Text} : ∀ {a : Text}, c ∉ a → Text.splitFirst? c (a ++ c :: b) = some (a, b)
  | [], _ => by rw [List.nil_append, Text.splitFirst?, if_pos rfl]
  | d :: a, h => by
    have hd : d ≠ c := fun e => h (e ▸ List.mem_cons_self)
    rw [List.cons_append, Text.splitFirst?, if_neg hd, splitFirst?_append fun hm => h (List.mem_cons_of_mem _ hm)]
    rfl

/-- The entry may have lost the blank before an empty value. -/
theorem readEntry?_trim_writeEntry {p : Text × Text} (hk : IsKey p.1) :
    readEntry? (trim (writeEntry p)) = some (p.1, Value.expandNewlines p.2) := by
  have ht : Text.Trimmed (p.1 ++ [':']) := by
    have := Text.trimmed_trim p.1
    rw [hk.2.1] at this
    refine ⟨fun c hc => this.1 c ?_, fun c hc => ?_⟩
    · rwa [Text.head?_append_left hk.1] at hc
    · rw [List.getLast?_concat] at hc
      cases hc
      decide
  have he : writeEntry p = (p.1 ++ [':']) ++ ' ' :: Value.write p.2 := by simp [writeEntry]
  have hn : ':' ∉ p.1 := fun hm => hk.2.2 _ hm (by decide)
  have hv : Value.read (Text.trimEnd (' ' :: Value.write p.2)) = Value.expandNewlines p.2 := by
    rw [← Value.read_write, Value.read, Value.read, Text.trim_trimEnd, Text.trim_cons_blank (by decide)]
  rw [he, Text.trim_append_of_trimmed ht (by simp), List.append_assoc, List.singleton_append, readEntry?,
    splitFirst?_append hn]
  dsimp only
  rw [hk.2.1, if_neg hk.1, hv]

theorem filterMap_eq_self {α : Type} {f : α → Option α} : ∀ {l : List α}, (∀ a ∈ l, f a = some a) → l.filterMap f = l
  | [], _ => rfl
  | a :: l, h => by
    rw [List.filterMap_cons_some (h a List.mem_cons_self), filterMap_eq_self fun b hb => h b (List.mem_cons_of_mem _ hb)]

/-- **A written list of entries is read entry by entry.** -/
theorem read_writeEntries {ps : List (Text × Text)} (hk : ∀ p ∈ ps, IsKey p.1) (hv : ∀ p ∈ ps, Value.Writable p.2) :
    read (writeEntries ps) = ofList ps := by
  have hr : ∀ p ∈ ps, readEntry? (trim (writeEntry p)) = some p := fun p hp => by
    rw [readEntry?_trim_writeEntry (hk p hp), Value.expandNewlines_eq_self (hv p hp).1]
  have hs : splitTop .comma (writeEntries ps) = (ps.map writeEntry).map trim := by
    cases ps with
    | nil => rfl
    | cons p qs =>
      have ha : Split.Apart ((p :: qs).map writeEntry) := Split.apart_of_sealed fun t ht => by
        obtain ⟨q, hq, rfl⟩ := List.mem_map.1 ht
        exact (level_writeEntry (hk q hq) (hv q hq).2).sealed
      have := Split.splitTop_joinWith (by simp) ha (fun t ht => ?_) (.inl rfl)
      · rwa [List.nil_append, List.append_nil] at this
      · rw [List.getLast?_map] at ht
        obtain ⟨q, hq, rfl⟩ := Option.map_eq_some_iff.1 ht
        intro he
        have := hr q (List.mem_of_getLast? hq)
        rw [he] at this
        cases this
  have hf : (ps.map fun p => trim (writeEntry p)).filterMap readEntry? = ps := by
    rw [List.filterMap_map]
    exact filterMap_eq_self hr
  unfold read
  rw [hs, List.map_map]
  exact congrArg ofList hf

end Properties
end Gridmark
