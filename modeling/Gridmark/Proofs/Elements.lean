import Gridmark.Proofs.Freestanding
import Gridmark.Proofs.Values
/-!
# Elements — freestanding elements and groups read back

The line of an element is its kind, a colon and a body in brackets, and each layer is taken off as it was put on: the kind
up to the colon (`head?_form`), the square brackets up to the first comma behind the list, the list entry by entry, and
last the rationale out of the list.  A group is one such line for each item, and the lines make one run.
-/
namespace Gridmark

open Text (trim trimStart trimEnd joinWith)

/-! ## Bags -/

theorem Keyed.put_eq_concat {α : Type} {key : α → Text} {a : α} : ∀ {as : List α}, (∀ b ∈ as, key b < key a) →
    Keyed.put key a as = as ++ [a]
  | [], _ => rfl
  | b :: bs, h => by
    have hb := h b List.mem_cons_self
    have hlt : ¬key a < key b := fun hab => List.lt_irrefl _ (List.lt_trans hab hb)
    have hne : key a ≠ key b := fun he => List.lt_irrefl _ (he ▸ hb)
    rw [Keyed.put, if_neg hlt, if_neg hne, put_eq_concat fun c hc => h c (List.mem_cons_of_mem _ hc)]
    rfl

theorem Keyed.filter_put {α : Type} {key : α → Text} {a : α} : ∀ {as : List α}, (∀ b ∈ as, key b ≠ key a) →
    (Keyed.put key a as).filter (fun b => key b ≠ key a) = as
  | [], _ => by simp [Keyed.put]
  | b :: bs, h => by
    have hb := h b List.mem_cons_self
    have hbs : ∀ c ∈ bs, key c ≠ key a := fun c hc => h c (List.mem_cons_of_mem _ hc)
    have hf : bs.filter (fun c => key c ≠ key a) = bs := List.filter_eq_self.2 (by simpa using hbs)
    have ih := filter_put hbs
    unfold Keyed.put
    split
    · simpa [hb] using hbs
    · rw [if_neg (Ne.symm hb), List.filter_cons_of_pos (by simpa using hb), ih]

namespace Properties

theorem eq_of_entries {p q : Properties} (h : p.entries = q.entries) : p = q := by
  cases p
  cases q
  cases h
  rfl

theorem ofList_concat (es : List (Text × Text)) (e : Text × Text) : ofList (es ++ [e]) = (ofList es).set e.1 e.2 :=
  List.foldl_concat _ _ _ _

theorem entries_ofList {es : List (Text × Text)} (h : Keyed.Ordered Prod.fst es) : (ofList es).entries = es := by
  induction es using List.reverseRecOn with
  | nil => rfl
  | append_singleton es e ih =>
    obtain ⟨hes, -, hlt⟩ := List.pairwise_append.1 h
    rw [ofList_concat, set]
    show Keyed.put Prod.fst e (ofList es).entries = _
    rw [ih hes, Keyed.put_eq_concat fun b hb => hlt b hb e (List.mem_singleton.2 rfl)]

/-- A bag is what its entries make. -/
theorem ofList_entries (p : Properties) : ofList p.entries = p := eq_of_entries (entries_ofList p.ordered)

theorem get?_set (p : Properties) (k v k' : Text) : (p.set k v).get? k' = if k = k' then some v else p.get? k' := by
  unfold get? set
  dsimp only
  rw [Keyed.find?_put]
  split <;> rfl

theorem get?_eq_none {p : Properties} {k : Text} (h : ∀ e ∈ p.entries, e.1 ≠ k) : p.get? k = none := by
  unfold get? Keyed.find?
  rw [List.find?_eq_none.2 (by simpa using h)]
  rfl

theorem drop_set {p : Properties} {k : Text} (h : ∀ e ∈ p.entries, e.1 ≠ k) (v : Text) : (p.set k v).drop k = p :=
  eq_of_entries (Keyed.filter_put (a := (k, v)) h)

end Properties

namespace ElementLine

/-- **The rationale comes back out of the list.** -/
theorem takeRationale_ofList_entries {e : Element} (h : ∀ p ∈ e.properties.entries, p.1 ≠ Element.highlightKey) :
    Element.takeRationale { e with properties := Properties.ofList (entries e), rationale := none } = e := by
  obtain ⟨kind, properties, rationale, payload⟩ := e
  cases rationale with
  | none =>
    have he : entries ⟨kind, properties, none, payload⟩ = properties.entries := List.append_nil _
    rw [he, Properties.ofList_entries]
    unfold Element.takeRationale
    rw [Properties.get?_eq_none h]
  | some why =>
    have he : entries ⟨kind, properties, some why, payload⟩ = properties.entries ++ [(Element.highlightKey, why)] := rfl
    rw [he, Properties.ofList_concat, Properties.ofList_entries]
    unfold Element.takeRationale
    rw [Properties.get?_set, if_pos rfl]
    dsimp only
    rw [Properties.drop_set h]

/-! ## Kinds -/

def isKindChar (c : Char) : Bool := c.isLower || c.isDigit || c == '_' || c == '-'

/-- Kinds that read back: lowercase, with digits and hyphens behind the first character. -/
def IsKind : Text → Prop
  | [] => False
  | c :: t => (c.isLower || c == '_') = true ∧ ∀ d ∈ t, isKindChar d = true

instance : DecidablePred IsKind
  | [] => inferInstanceAs (Decidable False)
  | _ :: t =>
    haveI : Decidable (∀ d ∈ t, isKindChar d = true) := List.decidableBAll _ t
    inferInstanceAs (Decidable (_ ∧ _))

theorem toNat_of_isKindChar {c : Char} (h : isKindChar c = true) :
    97 ≤ c.toNat ∧ c.toNat ≤ 122 ∨ 48 ≤ c.toNat ∧ c.toNat ≤ 57 ∨ c.toNat = 95 ∨ c.toNat = 45 := by
  simp only [isKindChar, Char.isLower, Char.isDigit, Bool.or_eq_true, Bool.and_eq_true, decide_eq_true_eq, beq_iff_eq] at h
  rcases h with ((⟨h1, h2⟩ | ⟨h1, h2⟩) | rfl) | rfl
  · exact .inl ⟨UInt32.le_iff_toNat_le.1 h1, UInt32.le_iff_toNat_le.1 h2⟩
  · exact .inr (.inl ⟨UInt32.le_iff_toNat_le.1 h1, UInt32.le_iff_toNat_le.1 h2⟩)
  · decide
  · decide

theorem lowerChar_eq_self {c : Char} (h : isKindChar c = true) : Text.lowerChar c = c := by
  have hn := toNat_of_isKindChar h
  rw [Text.lowerChar, if_pos (by omega), Char.toLower, dif_neg]
  rintro ⟨h1, h2⟩
  have h1 : 65 ≤ c.toNat := UInt32.le_iff_toNat_le.1 h1
  have h2 : c.toNat ≤ 90 := UInt32.le_iff_toNat_le.1 h2
  omega

theorem isBlank_of_isKindChar {c : Char} (h : isKindChar c = true) : Text.isBlank c = false := by
  have hn := toNat_of_isKindChar h
  unfold Text.isBlank
  dsimp only
  rw [if_pos (by omega)]
  simp
  omega

theorem lowerAfter_eq_self : ∀ {t : Text} (before : Text), (∀ c ∈ t, isKindChar c = true) → Text.lowerAfter before t = t
  | [], _, _ => rfl
  | c :: t, before, h => by
    have hc := h c List.mem_cons_self
    rw [Text.lowerAfter, lowerChar_eq_self hc, lowerAfter_eq_self _ fun d hd => h d (List.mem_cons_of_mem _ hd)]
    · rintro rfl
      exact absurd hc (by decide)
    · rintro rfl
      exact absurd hc (by decide)

theorem IsKind.isKindChar {kind : Text} (h : IsKind kind) : ∀ c ∈ kind, isKindChar c = true := by
  cases kind with
  | nil => exact h.elim
  | cons c t =>
    intro d hd
    rcases List.mem_cons.1 hd with rfl | hd
    · have := h.1
      grind [isKindChar]
    · exact h.2 d hd

theorem IsKind.lowercase {kind : Text} (h : IsKind kind) : Text.lowercase kind = kind := lowerAfter_eq_self [] h.isKindChar

theorem IsKind.ne_nil {kind : Text} (h : IsKind kind) : kind ≠ [] := by
  rintro rfl
  exact h

theorem head?_form {kind : Text} (h : IsKind kind) (body : Text) : head? (form kind body) = some (kind, trimStart body) := by
  cases kind with
  | nil => exact h.elim
  | cons c t =>
    have ht : ∀ d ∈ t, isKindRest d = true := fun d hd => by
      have := h.2 d hd
      grind [isKindRest, ElementLine.isKindChar, Char.isAlphanum, Char.isAlpha]
    have hc : isKindStart c = true := by
      have := h.1
      grind [isKindStart, Char.isAlpha]
    have hf : form (c :: t) body = c :: (t ++ ':' :: ' ' :: body) := by simp [form]
    rw [hf, head?, if_pos hc, List.dropWhile_append_of_pos ht, List.takeWhile_append_of_pos ht,
      List.dropWhile_cons_of_neg (by decide), List.takeWhile_cons_of_neg (by decide), List.append_nil]
    rfl

/-! ## Lines -/

theorem trimmed_form {kind body : Text} (hk : IsKind kind) (hb : Text.Trimmed body) (hne : body ≠ []) :
    Text.Trimmed (form kind body) := by
  refine ⟨fun c hc => ?_, fun c hc => ?_⟩
  · have : c ∈ kind.head? := by rwa [form, List.append_assoc, Text.head?_append_left hk.ne_nil] at hc
    exact isBlank_of_isKindChar (hk.isKindChar c (List.mem_of_head? this))
  · exact hb.2 c (by rwa [form, List.getLast?_append_of_ne_nil _ hne] at hc)

theorem read?_form {kind body : Text} (hk : IsKind kind) (hb : Text.Trimmed body) (hne : body ≠ []) :
    read? (form kind body) = (body? kind body).map Element.takeRationale := by
  have ht : trim (trimStart body) = body := by
    rw [Text.trimStart_eq_self hb.1, Text.trim_eq_self hb]
  rw [read?, Text.trim_eq_self (trimmed_form hk hb hne), head?_form hk]
  dsimp only
  rw [ht]

theorem trimmed_round (t : Text) : Text.Trimmed (round t) := Text.trimmed_cons_concat (by decide) (by decide) t

theorem read?_form_round_eq {kind : Text} (hk : IsKind kind) (t : Text) : read? (form kind (round t)) =
    some (Element.takeRationale { Element.plain kind with properties := Properties.read t }) := by
  rw [read?_form hk (trimmed_round _) (by simp [round]), body?, round, List.cons_append, Text.between?,
    if_neg (by decide), Value.between?_append, Option.map_some, Option.map_some]

theorem read?_form_round {kind : Text} (hk : IsKind kind) {ps : List (Text × Text)}
    (hp : ∀ p ∈ ps, Properties.IsKey p.1) (hv : ∀ p ∈ ps, Value.Writable p.2) :
    read? (form kind (round (Properties.writeEntries ps))) =
      some (Element.takeRationale { Element.plain kind with properties := Properties.ofList ps }) := by
  rw [read?_form_round_eq hk, Properties.read_writeEntries hp hv]

/-- Commas between level texts are no cuts under a bracket. -/
theorem walk?_joinWith : ∀ {ts : List Text}, (∀ t ∈ ts, Split.Level t) → ∀ depth, ∃ escaped,
    Split.walk? .comma ⟨depth + 1, .none, false⟩ (joinWith [',', ' '] ts) = some ⟨depth + 1, .none, escaped⟩
  | [], _, depth => ⟨false, rfl⟩
  | [t], h, depth => h t List.mem_cons_self (depth + 1)
  | t :: u :: ts, h, depth => by
    obtain ⟨e, he⟩ := h t List.mem_cons_self (depth + 1)
    have hts : ∀ v ∈ u :: ts, Split.Level v := fun v hv => h v (List.mem_cons_of_mem _ hv)
    obtain ⟨e', he'⟩ := walk?_joinWith hts depth
    refine ⟨e', ?_⟩
    have hj : joinWith [',', ' '] (t :: u :: ts) = t ++ ',' :: ' ' :: joinWith [',', ' '] (u :: ts) := by
      simp [joinWith]
    rw [hj, Split.walk?_append (Split.joint_of_head (by simp) (by simp)), he, Option.bind_some,
      Split.walk?_cons (by simp) (by simp), if_neg (by simp [Split.cutsChar, SplitState.atTop]),
      show TokenKind.ofChar ',' = .comma from rfl, SplitState.step_comma, Split.walk?_blank, he']

theorem level_round {ts : List Text} (h : ∀ t ∈ ts, Split.Level t) : Split.Level (round (joinWith [',', ' '] ts)) := by
  intro depth
  obtain ⟨e, he⟩ := walk?_joinWith h depth
  refine ⟨false, ?_⟩
  show Split.walk? .comma ⟨depth + 1, .none, false⟩ (joinWith [',', ' '] ts ++ [')']) = _
  rw [Split.walk?_append (Split.joint_of_head (by simp) (by simp)), he]
  cases e <;> rfl

theorem read?_form_square {kind : Text} (hk : IsKind kind) {ps : List (Text × Text)}
    (hp : ∀ p ∈ ps, Properties.IsKey p.1) (hv : ∀ p ∈ ps, Value.Writable p.2) (suffix : Text) :
    read? (form kind ('[' :: round (Properties.writeEntries ps) ++ [',', ' '] ++ suffix ++ [']'])) =
      some (Element.takeRationale
        { Element.plain kind with properties := Properties.ofList ps, payload := boundPayload (trim suffix) }) := by
  have hs : Split.Level (round (Properties.writeEntries ps)) := level_round fun t ht => by
    obtain ⟨p, hps, rfl⟩ := List.mem_map.1 ht
    exact Properties.level_writeEntry (hp p hps) (hv p hps).2
  have hb : '[' :: round (Properties.writeEntries ps) ++ [',', ' '] ++ suffix ++ [']'] =
      '[' :: ((round (Properties.writeEntries ps) ++ ',' :: ' ' :: suffix) ++ [']']) := by simp
  rw [hb, read?_form hk (Text.trimmed_cons_concat (by decide) (by decide) _) (by simp), body?, Value.between?_append]
  dsimp only
  rw [bound?, Split.splitTopOnce?_of_sealed hs.sealed]
  dsimp only
  rw [Text.trim_eq_self (trimmed_round _), round, List.cons_append, Value.between?_append, Option.map_some,
    Option.map_some, Properties.read_writeEntries hp hv, Text.trim_cons_blank (by decide)]

/-! ## Payloads -/

theorem after?_append (r : Text) : ∀ p : Text, Text.after? p (p ++ r) = some r
  | [] => rfl
  | c :: p => by rw [List.cons_append, Text.after?, if_pos rfl, after?_append r p]

theorem eq_append_of_after? {r : Text} : ∀ {p t : Text}, Text.after? p t = some r → t = p ++ r
  | [], t, h => Option.some.inj h
  | _ :: _, [], h => by cases h
  | c :: p, d :: t, h => by
    rw [Text.after?] at h
    split at h
    · rename_i hc
      rw [hc, eq_append_of_after? h]
      rfl
    · cases h

/-- A text that starts as an action's suffix does. -/
def IsPrompt (t : Text) : Prop := ∃ blanks r, t = promptWord ++ blanks ++ ':' :: r ∧ ∀ c ∈ blanks, Text.isBlank c = true

theorem isPrompt_of_prompt? {t r : Text} (h : prompt? t = some r) : IsPrompt t := by
  obtain ⟨u, hu, hr⟩ := Option.bind_eq_some_iff.1 h
  unfold afterColon? at hr
  split at hr
  · rename_i v hv
    refine ⟨u.takeWhile Text.isBlank, v, ?_, fun c hc => List.all_eq_true.1 List.all_takeWhile c hc⟩
    rw [eq_append_of_after? hu, List.append_assoc, ← hv, trimStart, List.takeWhile_append_dropWhile]
  · cases hr

theorem boundPayload_form_promptWord {t : Text} (ht : trim t = t) :
    boundPayload (trim (form promptWord t)) = .action t := by
  have hp : Text.Trimmed (promptWord ++ [':']) :=
    Text.trimmed_cons_concat (by decide) (by decide) ['r', 'o', 'm', 'p', 't']
  have hf : form promptWord t = promptWord ++ [':'] ++ ' ' :: t := by simp [form]
  have ha : prompt? (trim (form promptWord t)) = some (trimStart (trimEnd (' ' :: t))) := by
    rw [hf, Text.trim_append_of_trimmed hp (by decide), List.append_assoc, prompt?, after?_append]
    rfl
  rw [boundPayload, ha]
  dsimp only
  rw [Text.trim_trimStart, Text.trim_trimEnd, Text.trim_cons_blank (by decide), ht]

theorem boundPayload_of_not_isPrompt {t : Text} (ht : trim t = t) (h : ¬IsPrompt t) :
    boundPayload (trim t) = .input t := by
  rw [ht, boundPayload]
  cases hp : prompt? t with
  | none => rfl
  | some r => exact absurd (isPrompt_of_prompt? hp) h

end ElementLine

/-! ## Elements -/

namespace Payload

/-- Payloads that read back from one line. -/
def OnLine : Payload → Prop
  | .plain => True
  | .action t => trim t = t ∧ '\n' ∉ t
  | .input t => trim t = t ∧ '\n' ∉ t ∧ ¬ElementLine.IsPrompt t
  | _ => False

/-- Payloads that an element line holds. -/
def Tagged : Payload → Prop
  | .plain | .action _ | .input _ => True
  | _ => False

theorem OnLine.tagged {p : Payload} (h : p.OnLine) : p.Tagged := by
  cases p <;> trivial

end Payload

namespace Element

/-- Elements that are neither prose nor a group and whose parts can be told apart in their line. -/
structure Legible (e : Element) : Prop where
  kind : ElementLine.IsKind e.kind
  keys : ∀ p ∈ e.properties.entries, Properties.IsKey p.1 ∧ p.1 ≠ highlightKey
  values : ∀ p ∈ e.properties.entries, Value.Writable p.2
  rationale : ∀ why ∈ e.rationale, Value.Writable why
  payload : e.payload.OnLine

/-- Groups, with items that can be told apart in their lines and nothing else. -/
structure LegibleGroup (e : Element) (items : List GroupItem) : Prop where
  kind : ElementLine.IsKind e.kind
  properties : e.properties = .empty
  rationale : e.rationale = none
  payload : e.payload = .group items
  nonempty : items ≠ []
  values : ∀ i ∈ items, Value.Writable i.trigger ∧ Value.Writable i.content

theorem isKey_highlightKey : Properties.IsKey highlightKey := by decide

theorem isKey_triggerKey : Properties.IsKey triggerKey := by decide

theorem isKey_contentKey : Properties.IsKey contentKey := by decide

namespace Legible

variable {e : Element} (h : e.Legible)
include h

theorem isKey_of_mem_entries : ∀ p ∈ ElementLine.entries e, Properties.IsKey p.1 := by
  intro p hp
  rcases List.mem_append.1 hp with hp | hp
  · exact (h.keys p hp).1
  · obtain ⟨why, -, rfl⟩ := Option.map_eq_some_iff.1 (Option.mem_toList.1 hp)
    exact isKey_highlightKey

theorem not_mem_payload : ∀ t, e.payload = .action t ∨ e.payload = .input t → '\n' ∉ t := by
  intro t ht
  have hp := h.payload
  rcases ht with ht | ht <;> rw [ht] at hp
  · exact hp.2
  · exact hp.2.1

theorem writable_of_mem_entries : ∀ p ∈ ElementLine.entries e, Value.Writable p.2 := by
  intro p hp
  rcases List.mem_append.1 hp with hp | hp
  · exact h.values p hp
  · obtain ⟨why, hw, rfl⟩ := Option.map_eq_some_iff.1 (Option.mem_toList.1 hp)
    exact h.rationale why hw

/-- **The line of an element reads as the element.** -/
theorem read?_writeTagged : ElementLine.read? (ElementLine.writeTagged e) = some e := by
  have hk := h.isKey_of_mem_entries
  have hv := h.writable_of_mem_entries
  have hr := ElementLine.takeRationale_ofList_entries fun p hp => (h.keys p hp).2
  have hpl := h.payload
  have hplain : ∀ payload, e.payload = payload →
      { Element.plain e.kind with properties := Properties.ofList (ElementLine.entries e), payload := payload } =
        { e with properties := Properties.ofList (ElementLine.entries e), rationale := none } := by
    rintro _ rfl
    rw [plain, h.kind.lowercase]
  cases hp : e.payload with
  | plain =>
    rw [ElementLine.writeTagged, hp]
    dsimp only
    rw [ElementLine.read?_form_round h.kind hk hv]
    exact congrArg some ((congrArg takeRationale (hplain _ hp)).trans hr)
  | action t =>
    rw [hp] at hpl
    rw [ElementLine.writeTagged, hp]
    dsimp only
    rw [ElementLine.read?_form_square h.kind hk hv, ElementLine.boundPayload_form_promptWord hpl.1, hplain _ hp, hr]
  | input t =>
    rw [hp] at hpl
    rw [ElementLine.writeTagged, hp]
    dsimp only
    rw [ElementLine.read?_form_square h.kind hk hv, ElementLine.boundPayload_of_not_isPrompt hpl.1 hpl.2.2, hplain _ hp,
      hr]
  | markdown body => rw [hp] at hpl; exact hpl.elim
  | group items => rw [hp] at hpl; exact hpl.elim

end Legible
end Element

/-! ## Line feeds -/

theorem Properties.IsKey.not_mem {key : Text} (h : Properties.IsKey key) : '\n' ∉ key := fun hm => h.2.2 _ hm (by decide)

theorem Properties.not_mem_writeEntries {ps : List (Text × Text)} (h : ∀ p ∈ ps, '\n' ∉ p.1) :
    '\n' ∉ Properties.writeEntries ps := by
  refine Text.not_mem_joinWith (by decide) fun t ht => ?_
  obtain ⟨p, hp, rfl⟩ := List.mem_map.1 ht
  simpa [Properties.writeEntry, h p hp] using Value.not_mem_write p.2

theorem SourceLine.read_eq_of_read? {o : ReadOptions} {line : Text} {e : Element} (hg : GridRow.read? line = none)
    (he : ElementLine.read? line = some e) : read o line = if o.isGroupable e.kind then .item e else .lone e := by
  rw [read, hg, he]

namespace ElementLine

theorem not_mem_form {kind body : Text} (hk : IsKind kind) (hb : '\n' ∉ body) : '\n' ∉ form kind body := by
  have : '\n' ∉ kind := fun hm => absurd (hk.isKindChar _ hm) (by decide)
  simpa [form, this] using hb

theorem bracketed?_form {kind body : Text} (hk : IsKind kind) : GridRow.bracketed? (form kind body) = none := by
  cases kind with
  | nil => exact hk.elim
  | cons c t =>
    have hc : c ≠ '[' := by
      rintro rfl
      exact absurd (hk.isKindChar _ List.mem_cons_self) (by decide)
    rw [form, List.cons_append, List.cons_append, GridRow.bracketed?]
    exact fun u hu => hc (List.cons.inj hu).1

theorem gridRow_read?_form {kind body : Text} (hk : IsKind kind) : GridRow.read? (form kind body) = none := by
  rw [GridRow.read?, bracketed?_form hk]

/-- The line of an element is a kind and a body in brackets. -/
theorem exists_writeTagged_eq_form {e : Element} (hk : ∀ p ∈ entries e, '\n' ∉ p.1)
    (hp : ∀ t, e.payload = .action t ∨ e.payload = .input t → '\n' ∉ t) : ∃ body, writeTagged e = form e.kind body ∧
      '\n' ∉ body ∧ Text.Trimmed body ∧ body ≠ [] := by
  have hn : '\n' ∉ Properties.writeEntries (entries e) := Properties.not_mem_writeEntries hk
  unfold writeTagged
  dsimp only
  split
  · rename_i t ht
    refine ⟨_, rfl, ?_, Text.trimmed_cons_concat (by decide) (by decide) _, by simp⟩
    simpa [round, form, promptWord, hn] using hp t (.inl ht)
  · rename_i t ht
    refine ⟨_, rfl, ?_, Text.trimmed_cons_concat (by decide) (by decide) _, by simp⟩
    simpa [round, hn] using hp t (.inr ht)
  · exact ⟨_, rfl, by simpa [round] using hn, trimmed_round _, by simp [round]⟩

theorem ofSource_form {kind body : Text} (hk : IsKind kind) (hn : '\n' ∉ body) (ht : Text.Trimmed body) (hne : body ≠ []) :
    SourceLine.ofSource (form kind body) = [form kind body] :=
  SourceLine.ofSource_line (by simp [form]) (not_mem_form hk hn) (trimmed_form hk ht hne)

theorem write_eq_writeTagged {e : Element} (h : e.payload.Tagged) : write e = writeTagged e := by
  unfold write
  split
  · rename_i hb
    rw [hb] at h
    exact h.elim
  · rename_i hb
    rw [hb] at h
    exact h.elim
  · rfl

/-! ## Groups -/

def itemEntries (item : GroupItem) : List (Text × Text) :=
  [(Element.triggerKey, item.trigger), (Element.contentKey, item.content)]

/-- What the line of an item reads as. -/
def itemElement (kind : Text) (item : GroupItem) : Element :=
  { Element.plain kind with properties := Properties.ofList (itemEntries item) }

theorem toItem_itemElement (kind : Text) (item : GroupItem) : (itemElement kind item).toItem = item := by
  have ht : (Properties.ofList (itemEntries item)).get? Element.triggerKey = some item.trigger := by
    show ((Properties.empty.set Element.triggerKey _).set Element.contentKey _).get? _ = _
    rw [Properties.get?_set, if_neg (by decide), Properties.get?_set, if_pos rfl]
  have hc : (Properties.ofList (itemEntries item)).get? Element.contentKey = some item.content := by
    show ((Properties.empty.set Element.triggerKey _).set Element.contentKey _).get? _ = _
    rw [Properties.get?_set, if_pos rfl]
  unfold Element.toItem Element.property?
  rw [show (itemElement kind item).properties = Properties.ofList (itemEntries item) from rfl, ht, hc]
  rfl

theorem takeRationale_itemElement (kind : Text) (item : GroupItem) :
    (itemElement kind item).takeRationale = itemElement kind item := by
  have hn : (Properties.ofList (itemEntries item)).get? Element.highlightKey = none := by
    show ((Properties.empty.set Element.triggerKey _).set Element.contentKey _).get? _ = _
    rw [Properties.get?_set, if_neg (by decide), Properties.get?_set, if_neg (by decide)]
    rfl
  unfold Element.takeRationale
  rw [show (itemElement kind item).properties = Properties.ofList (itemEntries item) from rfl, hn]

/-- **The line of an item opens or continues a group that ends with the item.** -/
theorem ofText_writeItem {o : ReadOptions} {kind : Text} {item : GroupItem} (hk : IsKind kind)
    (ho : o.isGroupable kind = true) (hv : Value.Writable item.trigger ∧ Value.Writable item.content) :
    SourceLine.ofText o (writeItem kind item) = [.item (itemElement kind item)] := by
  have hkeys : ∀ p ∈ itemEntries item, Properties.IsKey p.1 := by
    intro p hp
    simp only [itemEntries, List.mem_cons, List.not_mem_nil, or_false] at hp
    rcases hp with rfl | rfl
    · exact Element.isKey_triggerKey
    · exact Element.isKey_contentKey
  have hvals : ∀ p ∈ itemEntries item, Value.Writable p.2 := by
    intro p hp
    simp only [itemEntries, List.mem_cons, List.not_mem_nil, or_false] at hp
    rcases hp with rfl | rfl
    · exact hv.1
    · exact hv.2
  have hr : read? (writeItem kind item) = some (itemElement kind item) :=
    (read?_form_round hk hkeys hvals).trans (congrArg some (takeRationale_itemElement kind item))
  have hn : '\n' ∉ round (Properties.writeEntries (itemEntries item)) := by
    simpa [round] using Properties.not_mem_writeEntries fun p hp => (hkeys p hp).not_mem
  have hkind : (itemElement kind item).kind = kind := hk.lowercase
  have hw : writeItem kind item = form kind (round (Properties.writeEntries (itemEntries item))) := rfl
  rw [hw] at hr ⊢
  rw [SourceLine.ofText, ofSource_form hk hn (trimmed_round _) (by simp [round]), List.map_singleton,
    SourceLine.read_eq_of_read? (gridRow_read?_form hk) hr, hkind, if_pos ho]

/-- Whatever an item holds, its line is a line of a group of its kind. -/
theorem exists_read_writeItem {o : ReadOptions} {kind : Text} (hk : IsKind kind) (ho : o.isGroupable kind = true)
    (item : GroupItem) : ∃ e, SourceLine.read o (writeItem kind item) = .item e ∧ e.kind = kind := by
  have hkind : ∀ e : Element, e.takeRationale.kind = e.kind := by
    intro e
    unfold Element.takeRationale
    split <;> rfl
  have hread := read?_form_round_eq hk (Properties.writeEntries (itemEntries item))
  generalize he : Element.takeRationale { Element.plain kind with
    properties := Properties.read (Properties.writeEntries (itemEntries item)) } = e at hread
  have hek : e.kind = kind := by
    rw [← he, hkind]
    exact hk.lowercase
  refine ⟨e, ?_, hek⟩
  rw [show writeItem kind item = form kind (round (Properties.writeEntries (itemEntries item))) from rfl,
    SourceLine.read_eq_of_read? (gridRow_read?_form hk) hread, hek, if_pos ho]

/-- **The lines of a group make one group.** -/
theorem exists_ofLines_write_group {o : ReadOptions} {kind : Text} (hk : IsKind kind) (ho : o.isGroupable kind = true)
    {items : List GroupItem} (hne : items ≠ []) :
    ∃ r, Run.ofLines (SourceLine.ofText o (write (Element.group kind items))) = [r] := by
  have hw : write (Element.group kind items) = joinWith ['\n'] (items.map (writeItem kind)) := by
    obtain ⟨item, items, rfl⟩ := List.exists_cons_of_ne_nil hne
    show joinWith ['\n'] ((item :: items).map (writeItem (Text.lowercase kind))) = _
    rw [hk.lowercase]
  have hline : ∀ t ∈ items.map (writeItem kind), t ≠ [] ∧ '\n' ∉ t ∧ Text.Trimmed t := by
    intro t ht
    obtain ⟨item, -, rfl⟩ := List.mem_map.1 ht
    have hkeys : ∀ p ∈ itemEntries item, '\n' ∉ p.1 := by simp [itemEntries, Element.triggerKey, Element.contentKey]
    have hn : '\n' ∉ round (Properties.writeEntries (itemEntries item)) := by
      simpa [round] using Properties.not_mem_writeEntries hkeys
    exact ⟨by simp [writeItem, form], not_mem_form hk hn, trimmed_form hk (trimmed_round _) (by simp [round])⟩
  obtain ⟨es, hes⟩ := Run.exists_forall₂ fun item (_ : item ∈ items) => exists_read_writeItem hk ho item
  have hall : ∀ e ∈ es, e.kind = kind := by
    intro e he
    obtain ⟨item, -, hi⟩ := Run.exists_of_mem_right hes he
    exact hi.2
  have hnes : es ≠ [] := by
    rintro rfl
    cases hes
    exact hne rfl
  refine ⟨.group kind (es.map Element.toItem), ?_⟩
  rw [hw, SourceLine.ofText, SourceLine.ofSource_joinWith, SourceLine.ofSource_lines hline, List.map_map,
    Run.map_eq_of_forall₂ (f := SourceLine.read o ∘ writeItem kind) (hes.imp fun _ _ hi => hi.1), Run.ofLines_map_item hnes hall]

end ElementLine

theorem Run.continueWith_items {kind : Text} (hk : ElementLine.IsKind kind) (items before : List GroupItem) :
    continueWith (.group kind before) (items.map fun i => .item (ElementLine.itemElement kind i)) =
      [.group kind (before ++ items)] := by
  have h := continueWith_map_item (items.map (ElementLine.itemElement kind)) before fun e he => by
    obtain ⟨i, -, rfl⟩ := List.mem_map.1 he
    exact hk.lowercase
  simpa [Function.comp_def, ElementLine.toItem_itemElement] using h

theorem Layout.write_single (e : Element) : (Layout.single e).write = ElementLine.write e := rfl

/-- The line of an element is read as a line on its own, and as no grid row. -/
theorem ElementLine.ofText_write_eq {o : ReadOptions} {e : Element} (hk : IsKind e.kind)
    (hkeys : ∀ p ∈ entries e, '\n' ∉ p.1) (hp : e.payload.Tagged)
    (hn : ∀ t, e.payload = .action t ∨ e.payload = .input t → '\n' ∉ t) :
    SourceLine.ofText o (write e) = [SourceLine.read o (write e)] ∧ GridRow.read? (write e) = none := by
  obtain ⟨body, hb, hbn, ht, hne⟩ := exists_writeTagged_eq_form hkeys hn
  rw [write_eq_writeTagged hp, hb, SourceLine.ofText, ofSource_form hk hbn ht hne]
  exact ⟨rfl, gridRow_read?_form hk⟩

theorem ElementLine.ofText_write {o : ReadOptions} {e : Element} (hk : IsKind e.kind) (hkeys : ∀ p ∈ entries e, '\n' ∉ p.1)
    (hp : e.payload.Tagged) (hn : ∀ t, e.payload = .action t ∨ e.payload = .input t → '\n' ∉ t)
    (hr : read? (write e) = some e) (ho : o.isGroupable e.kind = false) : SourceLine.ofText o (write e) = [.lone e] := by
  obtain ⟨hline, hg⟩ := ofText_write_eq (o := o) hk hkeys hp hn
  rw [hline, SourceLine.read_eq_of_read? hg hr, ho, if_neg Bool.false_ne_true]

theorem Element.Legible.ofText_write {o : ReadOptions} {e : Element} (h : e.Legible) (ho : o.isGroupable e.kind = false) :
    SourceLine.ofText o (ElementLine.write e) = [.lone e] := by
  refine ElementLine.ofText_write h.kind (fun p hp => (h.isKey_of_mem_entries p hp).not_mem) h.payload.tagged
    h.not_mem_payload ?_ ho
  rw [ElementLine.write_eq_writeTagged h.payload.tagged, h.read?_writeTagged]

theorem Element.LegibleGroup.ofText_write {o : ReadOptions} {e : Element} {items : List GroupItem}
    (h : e.LegibleGroup items) (ho : o.isGroupable e.kind = true) :
    SourceLine.ofText o (ElementLine.write e) = items.map fun i => .item (ElementLine.itemElement e.kind i) := by
  have hw : ElementLine.write e = joinWith ['\n'] (items.map (ElementLine.writeItem e.kind)) := by
    obtain ⟨i, is, hi⟩ := List.exists_cons_of_ne_nil h.nonempty
    rw [ElementLine.write, h.payload, hi]
  have hl : ∀ is : List GroupItem, (∀ i ∈ is, i ∈ items) →
      ((is.map (ElementLine.writeItem e.kind)).flatMap SourceLine.ofSource).map (SourceLine.read o) =
        is.map fun i => .item (ElementLine.itemElement e.kind i) := by
    intro is
    induction is with
    | nil => exact fun _ => rfl
    | cons i is ih =>
      intro hi
      have := ElementLine.ofText_writeItem h.kind ho (h.values i (hi i List.mem_cons_self))
      rw [List.map_cons, List.flatMap_cons, List.map_append, ih fun j hj => hi j (List.mem_cons_of_mem _ hj)]
      rw [SourceLine.ofText] at this
      rw [this]
      rfl
  rw [hw, SourceLine.ofText, SourceLine.ofSource_joinWith, hl items fun _ hi => hi]

/-- **A freestanding element or group reads back** from its own text, whatever its values hold but the pair that is read
as a line feed and the pair that ends the quotes. -/
theorem Document.read_write_single {o : ReadOptions} {e : Element}
    (h : (e.Legible ∧ o.isGroupable e.kind = false) ∨ ∃ items, e.LegibleGroup items ∧ o.isGroupable e.kind = true) :
    (Document.read o (Layout.single e).write).blocks = [.single e] := by
  rw [Document.read_eq, Layout.write_single]
  rcases h with ⟨h, ho⟩ | ⟨items, h, ho⟩
  · rw [h.ofText_write ho]
    rfl
  · rw [h.ofText_write ho]
    obtain ⟨i, is, hi⟩ := List.exists_cons_of_ne_nil h.nonempty
    have hkind : (ElementLine.itemElement e.kind i).kind = e.kind := h.kind.lowercase
    have hg : Element.group e.kind items = e := by
      obtain ⟨kind, properties, rationale, payload⟩ := e
      obtain rfl := h.properties
      obtain rfl := h.rationale
      obtain rfl := h.payload
      rw [Element.group, Element.plain, h.kind.lowercase]
    rw [hi, List.map_cons, Run.ofLines, Run.start, hkind, ElementLine.toItem_itemElement,
      Run.continueWith_items h.kind is [i], List.singleton_append, ← hi, List.map_singleton, Run.toLayout, hg]

/-- An input whose values hold a comma, a quote that is left open, a backslash at the end and a line feed. -/
def Element.cityField : Element where
  kind := ['f', '-', '1']
  properties := Properties.ofList [(['h', 'i', 'n', 't'], ['a', ',', '"', '<', 'b', '\\']), (['k'], [' ', '('])]
  rationale := some ['1', '\n', '2', ':']
  payload := .input ['c', 'i', 't', 'y', ',', '[', '"']

def Element.questions : Element where
  kind := ['a', 'c', 'c', 'o', 'r', 'd', 'i', 'o', 'n']
  properties := .empty
  rationale := none
  payload := .group [⟨['w', 'h', 'y', '?'], ['s', 'o', ',', '"', 'y', '"']⟩, ⟨[], []⟩]

theorem Document.read_write_cityField_questions :
    (Document.read default (Layout.single .cityField).write).blocks = [.single .cityField] ∧
      (Document.read default (Layout.single .questions).write).blocks = [.single .questions] := by
  refine ⟨Document.read_write_single (.inl ⟨⟨by decide, by decide, by decide, by decide, ?_⟩, by decide⟩),
    Document.read_write_single (.inr ⟨_, ⟨by decide, rfl, rfl, rfl, by decide, by decide⟩, by decide⟩)⟩
  refine ⟨by decide, by decide, ?_⟩
  rintro ⟨blanks, r, h, -⟩
  simp [ElementLine.promptWord] at h

end Gridmark
