import Gridmark.Proofs.Counts
import Gridmark.Json.Reader
/-!
# Printed — a printed value reads back

A character is read back from its escape, a string from the escapes of its characters (`string?_quote`) and a natural number
from its digits, if no more of a number follows (`number?_ofNat`).  From there on the reader follows the printer: an element
is a value and a comma or a line feed, a member a string, a colon and a value, and no reader goes deeper than the text is
long.  So printing loses nothing of a value whose strings are texts and whose numbers are natural (`read?_pretty`).
-/
namespace Gridmark
namespace Json

open Text (joinWith)

variable {level fuel : Nat} {t rest : Text}

/-! ## Strings -/

theorem hex4?_low {n : Nat} (h : n < 0x100) :
    hex4? '0' '0' (Nat.digitChar (n / 16)) (Nat.digitChar (n % 16)) = some n := by
  have hdigit : ∀ d < 16, hexValue? (Nat.digitChar d) = some d := by decide
  have hzero : hexValue? '0' = some 0 := by decide
  rw [hex4?, hzero, hdigit _ (by omega), hdigit _ (by omega)]
  show some (((0 * 16 + 0) * 16 + n / 16) * 16 + n % 16) = some n
  congr 1
  omega

theorem ofNat_toNat_low {c : Char} (h : c.toNat < 0x20) : Unit16.ofNat c.toNat = .char c := by
  rw [Unit16.ofNat, if_neg (by omega), if_neg (by omega), Char.ofNat_toNat]

theorem units?_escapeControl {c : Char} (h : c.toNat < 0x20) (t : Text) :
    units? (escapeControl c ++ t) = (units? t).map fun p => (.char c :: p.1, p.2) := by
  have hread : units? (escapeControl c ++ t) =
      (hex4? '0' '0' (Nat.digitChar (c.toNat / 16)) (Nat.digitChar (c.toNat % 16))).bind fun n =>
        (units? t).bind fun p => some (Unit16.ofNat n :: p.1, p.2) := rfl
  rw [hread, hex4?_low (by omega), Option.bind_some, ofNat_toNat_low h]
  cases units? t <;> rfl

theorem units?_plain {c : Char} (hquote : c ≠ '"') (hslash : c ≠ '\\') (h : ¬c.toNat < 0x20) (t : Text) :
    units? (c :: t) = (units? t).map fun p => (.char c :: p.1, p.2) := by
  rw [units?, if_neg h]
  · cases units? t <;> rfl
  · exact hquote
  · exact fun _ _ _ _ _ hc => absurd hc hslash
  · exact fun _ _ hc => absurd hc hslash

theorem units?_escapeChar (c : Char) (t : Text) :
    units? (escapeChar c ++ t) = (units? t).map fun p => (.char c :: p.1, p.2) := by
  have hletter : ∀ e d : Char, e ≠ 'u' → escaped? e = some d →
      units? ('\\' :: e :: t) = (units? t).map fun p => (.char d :: p.1, p.2) := fun e d hu he => by
    rw [units?, he]
    · cases units? t <;> rfl
    · exact fun _ _ _ _ _ hc => absurd hc hu
  unfold escapeChar
  split_ifs with hquote hslash hn hr ht hb hf hcontrol
  · subst hquote
    exact hletter _ _ (by decide) rfl
  · subst hslash
    exact hletter _ _ (by decide) rfl
  · subst hn
    exact hletter _ _ (by decide) rfl
  · subst hr
    exact hletter _ _ (by decide) rfl
  · subst ht
    exact hletter _ _ (by decide) rfl
  · subst hb
    exact hletter _ _ (by decide) rfl
  · subst hf
    exact hletter _ _ (by decide) rfl
  · exact units?_escapeControl hcontrol t
  · exact units?_plain hquote hslash hcontrol t

theorem units?_flatMap (rest : Text) : ∀ t : Text,
    units? (t.flatMap escapeChar ++ '"' :: rest) = some (t.map .char, rest)
  | [] => rfl
  | c :: t => by
    rw [List.flatMap_cons, List.append_assoc, units?_escapeChar, units?_flatMap rest t]
    rfl

theorem joinUnits_map : ∀ t : Text, joinUnits (t.map .char) = some t
  | [] => rfl
  | c :: t => by rw [List.map_cons, joinUnits, joinUnits_map t, Option.map_some]

theorem string?_quote (t rest : Text) : string? (t.flatMap escapeChar ++ '"' :: rest) = some (some t, rest) := by
  rw [string?, units?_flatMap, Option.map_some, joinUnits_map]

theorem quote_append (t rest : Text) : quote t ++ rest = '"' :: (t.flatMap escapeChar ++ '"' :: rest) := by
  simp [quote]

/-! ## Numbers -/

/-- What may follow a value: nothing, a comma or a line feed. -/
def Ends (rest : Text) : Prop := ∀ c ∈ rest.head?, c = ',' ∨ c = '\n'

theorem Ends.takeWhile_isDigit (h : Ends rest) : rest.takeWhile Char.isDigit = [] := by
  cases rest with
  | nil => rfl
  | cons c t => rcases h c rfl with rfl | rfl <;> rfl

theorem Ends.dropWhile_isDigit (h : Ends rest) : rest.dropWhile Char.isDigit = rest := by
  cases rest with
  | nil => rfl
  | cons c t => rcases h c rfl with rfl | rfl <;> rfl

theorem Ends.fraction? (h : Ends rest) : fraction? rest = some ([], rest) := by
  cases rest with
  | nil => rfl
  | cons c t => rcases h c rfl with rfl | rfl <;> rfl

theorem Ends.exponent? (h : Ends rest) : exponent? rest = some ([], rest) := by
  cases rest with
  | nil => rfl
  | cons c t => rcases h c rfl with rfl | rfl <;> rfl

theorem digits?_ofNat (n : Nat) (h : Ends rest) : digits? (Text.ofNat n ++ rest) = some (Text.ofNat n, rest) := by
  have hdigits : ∀ c ∈ Text.ofNat n, c.isDigit = true := fun c => Count.isDigit_of_mem_ofNat
  obtain ⟨c, t, ht⟩ := List.exists_cons_of_ne_nil (Count.ofNat_ne_nil n)
  rw [digits?, List.takeWhile_append_of_pos hdigits, h.takeWhile_isDigit, List.append_nil,
    List.dropWhile_append_of_pos hdigits, h.dropWhile_isDigit, ht]

theorem whole?_ofNat (n : Nat) (h : Ends rest) : whole? (Text.ofNat n ++ rest) = some (Text.ofNat n, rest) := by
  by_cases h0 : n = 0
  · subst h0
    rfl
  · obtain ⟨c, t, ht⟩ := List.exists_cons_of_ne_nil (Count.ofNat_ne_nil n)
    have hc : c ≠ '0' := Count.head_ofNat n (by omega) c (by simp [ht])
    rw [whole?, digits?_ofNat n h]
    simpa [ht] using hc

theorem number?_ofNat (n : Nat) (h : Ends rest) : number? (Text.ofNat n ++ rest) = some (.natural n, rest) := by
  obtain ⟨c, t, ht⟩ := List.exists_cons_of_ne_nil (Count.ofNat_ne_nil n)
  have hc : c ≠ '-' := by
    rintro rfl
    exact absurd (Count.isDigit_of_mem_ofNat (n := n) (c := '-') (by simp [ht])) (by decide)
  rw [number?]
  · simp [whole?_ofNat n h, h.fraction?, h.exponent?, Count.digitsValue?_ofNat]
  · simpa [ht] using hc

/-! ## White space -/

theorem skip_cons {c : Char} (h : isSpace c = false) (t : Text) : skip (c :: t) = c :: t := by simp [skip, h]

theorem isSpace_of_isDigit {c : Char} (h : c.isDigit = true) : isSpace c = false := by
  by_contra hspace
  simp only [isSpace, Bool.not_eq_false, Bool.or_eq_true, beq_iff_eq] at hspace
  obtain ((rfl | rfl) | rfl) | rfl := hspace <;> exact absurd h (by decide)

theorem skip_newline (level : Nat) (t : Text) : skip (newline level ++ t) = skip t := by
  have hspace : ∀ c ∈ newline level, isSpace c = true := by
    intro c hc
    rcases List.mem_cons.1 hc with rfl | hc
    · rfl
    · rw [List.eq_of_mem_replicate hc]
      rfl
  exact List.dropWhile_append_of_pos hspace

theorem value?_congr {u : Text} (h : skip t = skip u) (fuel : Nat) : value? fuel t = value? fuel u := by
  cases fuel with
  | zero => rfl
  | succ fuel => rw [value?, value?, h]

theorem value?_newline (fuel level : Nat) (t : Text) : value? fuel (newline level ++ t) = value? fuel t :=
  value?_congr (skip_newline level t) fuel

theorem value?_blank (fuel : Nat) (t : Text) : value? fuel (' ' :: t) = value? fuel t :=
  value?_congr (List.dropWhile_cons_of_pos rfl) fuel

/-! ## Values -/

/-- A value whose strings are texts and whose numbers are natural. -/
inductive Plain : Json → Prop where
  | null : Plain .null
  | bool (b : Bool) : Plain (.bool b)
  | natural (n : Nat) : Plain (.natural n)
  | text (t : Text) : Plain (ofText t)
  | array {js : List Json} (h : ∀ j ∈ js, Plain j) : Plain (.array js)
  | members {ms : List (Text × Json)} (h : ∀ m ∈ ms, Plain m.2) : Plain (ofMembers ms)

/-- That a text starts with neither white space nor a closing bracket. -/
def Opens (t : Text) : Prop := ∃ c u, t = c :: u ∧ isSpace c = false ∧ c ≠ ']' ∧ c ≠ '\x7d'

theorem Opens.append (h : Opens t) (u : Text) : Opens (t ++ u) := by
  obtain ⟨c, v, rfl, hc⟩ := h
  exact ⟨c, v ++ u, rfl, hc⟩

theorem Opens.joinWith_cons (h : Opens t) (sep : Text) (ts : List Text) : Opens (joinWith sep (t :: ts)) := by
  cases ts with
  | nil => exact h
  | cons u ts =>
    rw [joinWith, List.append_assoc]
    exact h.append _

theorem opens_quote (t : Text) : Opens (quote t) := ⟨'"', t.flatMap escapeChar ++ ['"'], rfl, rfl, by decide, by decide⟩

theorem block_eq (opening closing : Char) (level : Nat) {items : List Text} (h : items ≠ []) :
    block opening closing level items = opening :: (newline (level + 1) ++
      (joinWith (',' :: newline (level + 1)) items ++ (newline level ++ [closing]))) := by
  simp [block, h]

theorem exists_block_eq_cons (opening closing : Char) (level : Nat) (items : List Text) :
    ∃ t, block opening closing level items = opening :: t := by
  by_cases h : items = []
  · exact ⟨[closing], by simp [block, h]⟩
  · exact ⟨_, block_eq opening closing level h⟩

theorem Plain.opens {j : Json} (h : Plain j) (level : Nat) : Opens (pretty level j) := by
  cases h with
  | null => exact ⟨_, _, by rw [pretty], rfl, by decide, by decide⟩
  | bool b => cases b <;> exact ⟨_, _, by rw [pretty], rfl, by decide, by decide⟩
  | natural n =>
    obtain ⟨c, t, ht⟩ := List.exists_cons_of_ne_nil (Count.ofNat_ne_nil n)
    have hc : c.isDigit = true := Count.isDigit_of_mem_ofNat (n := n) (by simp [ht])
    refine ⟨c, t, by rw [pretty, ht], isSpace_of_isDigit hc, ?_, ?_⟩ <;> rintro rfl <;> exact absurd hc (by decide)
  | text t =>
    rw [ofText, pretty]
    exact opens_quote t
  | array h =>
    rw [pretty]
    obtain ⟨t, ht⟩ := exists_block_eq_cons '[' ']' level (prettyElements (level + 1) _)
    exact ⟨'[', t, ht, rfl, by decide, by decide⟩
  | members h =>
    rw [ofMembers, pretty]
    obtain ⟨t, ht⟩ := exists_block_eq_cons '\x7b' '\x7d' level (prettyMembers (level + 1) _)
    exact ⟨'\x7b', t, ht, rfl, by decide, by decide⟩

theorem value?_ofNat (n : Nat) (h : Ends rest) :
    value? (fuel + 1) (Text.ofNat n ++ rest) = some (.natural n, rest) := by
  obtain ⟨c, t, ht⟩ := List.exists_cons_of_ne_nil (Count.ofNat_ne_nil n)
  have hc : c.isDigit = true := Count.isDigit_of_mem_ofNat (n := n) (by simp [ht])
  have hskip : skip (Text.ofNat n ++ rest) = Text.ofNat n ++ rest := by
    rw [ht, List.cons_append, skip_cons (isSpace_of_isDigit hc)]
  have hne : ∀ d u, d.isDigit = false → Text.ofNat n ++ rest ≠ d :: u := by
    rintro d u hd hu
    rw [ht] at hu
    cases hu
    rw [hc] at hd
    cases hd
  rw [value?, hskip]
  split
  all_goals first
    | exact absurd ‹_› (hne _ _ rfl)
    | exact number?_ofNat n h

theorem value?_quote (t rest : Text) : value? (fuel + 1) (quote t ++ rest) = some (ofText t, rest) := by
  rw [value?, quote_append, skip_cons rfl]
  simp only [string?_quote, Option.map_some, ofText]

/-- That a text is read as a value, by a reader that may go as deep as the text is long, where more may follow. -/
def ReadsAs (t : Text) (j : Json) : Prop :=
  ∀ fuel rest, t.length ≤ fuel → Ends rest → value? fuel (t ++ rest) = some (j, rest)

theorem ends_comma (t : Text) : Ends (',' :: t) := by simp [Ends]

theorem ends_newline (level : Nat) (t : Text) : Ends (newline level ++ t) := by simp [Ends, newline]

/-! ## Elements and members

A list is read item by item: one that a comma follows is put in front of what the next line holds, and one before the closing
bracket is the last.  The list goes as deep as it has items, and an item no deeper than its text is long. -/

theorem items_joinWith {α β : Type} {parse : Nat → Text → Option (List β × Text)} {print : α → Text} {view : α → β}
    {closing : Text} (inner : Nat) (hnewline : ∀ fuel t, parse fuel (newline inner ++ t) = parse fuel t) :
    ∀ {as : List α} {n : Nat}, as ≠ [] →
    (∀ a ∈ as, ∀ fuel t, (print a).length ≤ fuel →
      parse (fuel + 1) (print a ++ ',' :: t) = (parse fuel t).map fun p => (view a :: p.1, p.2)) →
    (∀ a ∈ as, ∀ fuel, (print a).length ≤ fuel → parse (fuel + 1) (print a ++ closing) = some ([view a], rest)) →
    (joinWith (',' :: newline inner) (as.map print)).length < n →
    parse n (joinWith (',' :: newline inner) (as.map print) ++ closing) = some (as.map view, rest)
  | [], _, hne, _, _, _ => absurd rfl hne
  | [a], n + 1, _, _, hclose, hlen => hclose a List.mem_cons_self n (Nat.le_of_lt_succ hlen)
  | a :: b :: as, n + 1, _, hcomma, hclose, hlen => by
    obtain ⟨ha, has⟩ := List.forall_mem_cons.1 hcomma
    have ih := items_joinWith inner hnewline (n := n) (List.cons_ne_nil b as) has (List.forall_mem_cons.1 hclose).2
    simp only [List.map_cons, joinWith, List.append_assoc, List.cons_append, List.length_append, List.length_cons]
      at ih hlen ⊢
    rw [ha n _ (by omega), hnewline, ih (by omega), Option.map_some]

theorem elements?_newline (fuel level : Nat) (t : Text) : elements? fuel (newline level ++ t) = elements? fuel t := by
  cases fuel with
  | zero => rfl
  | succ fuel => rw [elements?, elements?, value?_newline]

theorem prettyElements_eq (level : Nat) : ∀ js : List Json, prettyElements level js = js.map (pretty level)
  | [] => rfl
  | j :: js => by rw [prettyElements, prettyElements_eq level js, List.map_cons]

theorem elements?_joinWith {js : List Json} (inner outer : Nat) (hne : js ≠ []) (h : ∀ j ∈ js, ReadsAs (pretty inner j) j)
    (hlen : (joinWith (',' :: newline inner) (js.map (pretty inner))).length < fuel) (rest : Text) :
    elements? fuel (joinWith (',' :: newline inner) (js.map (pretty inner)) ++ (newline outer ++ ']' :: rest)) =
      some (js, rest) := by
  have hitems : elements? fuel (joinWith (',' :: newline inner) (js.map (pretty inner)) ++ (newline outer ++ ']' :: rest)) =
      some (js.map fun j => j, rest) := by
    refine items_joinWith inner (fun fuel => elements?_newline fuel inner) hne ?_ ?_ hlen
    · intro j hj fuel t hfuel
      rw [elements?, h j hj fuel _ hfuel (ends_comma t)]
      simp [skip_cons, isSpace]
    · intro j hj fuel hfuel
      rw [elements?, h j hj fuel _ hfuel (ends_newline outer _)]
      simp [skip_newline, skip_cons, isSpace]
  rw [hitems, List.map_id']

theorem members?_newline (fuel level : Nat) (t : Text) : members? fuel (newline level ++ t) = members? fuel t := by
  cases fuel with
  | zero => rfl
  | succ fuel => rw [members?, members?, skip_newline]

def member (level : Nat) (m : Text × Json) : Text := quote m.1 ++ ([':', ' '] ++ pretty level m.2)

theorem prettyMembers_eq (level : Nat) : ∀ ms : List (Text × Json),
    prettyMembers level (ms.map fun m => (some m.1, m.2)) = ms.map (member level)
  | [] => rfl
  | (k, j) :: ms => by
    rw [List.map_cons, prettyMembers, prettyMembers_eq level ms, List.map_cons, member, List.append_assoc, Option.getD_some]

theorem skip_member (level : Nat) (m : Text × Json) (t : Text) : skip (member level m ++ t) =
    '"' :: (m.1.flatMap escapeChar ++ '"' :: ':' :: ' ' :: (pretty level m.2 ++ t)) := by
  rw [member, List.append_assoc, quote_append, skip_cons rfl]
  simp

theorem members?_joinWith {ms : List (Text × Json)} (inner outer : Nat) (hne : ms ≠ [])
    (h : ∀ m ∈ ms, ReadsAs (pretty inner m.2) m.2)
    (hlen : (joinWith (',' :: newline inner) (ms.map (member inner))).length < fuel) (rest : Text) :
    members? fuel (joinWith (',' :: newline inner) (ms.map (member inner)) ++ (newline outer ++ '\x7d' :: rest)) =
      some (ms.map fun m => (some m.1, m.2), rest) := by
  have hvalue : ∀ m ∈ ms, ∀ fuel t, (member inner m).length ≤ fuel → Ends t →
      value? fuel (' ' :: (pretty inner m.2 ++ t)) = some (m.2, t) := by
    intro m hm fuel t hfuel hends
    rw [member, List.length_append, List.length_append] at hfuel
    rw [value?_blank, h m hm fuel t (by omega) hends]
  refine items_joinWith inner (fun fuel => members?_newline fuel inner) hne ?_ ?_ hlen
  · intro m hm fuel t hfuel
    rw [members?, skip_member]
    simp [string?_quote, hvalue m hm fuel _ hfuel (ends_comma t), skip_cons, isSpace]
  · intro m hm fuel hfuel
    rw [members?, skip_member]
    simp [string?_quote, hvalue m hm fuel _ hfuel (ends_newline outer _), skip_newline, skip_cons, isSpace]

/-! ## The whole value -/

theorem value?_array (h : Opens t) (fuel level : Nat) :
    value? (fuel + 1) ('[' :: (newline level ++ t)) = (elements? fuel t).map fun p => (.array p.1, p.2) := by
  obtain ⟨c, u, rfl, hspace, hclose, _⟩ := h
  rw [value?, skip_cons rfl]
  simp only [skip_newline, skip_cons hspace]
  split
  · simp_all
  · rfl

theorem value?_object (h : Opens t) (fuel level : Nat) :
    value? (fuel + 1) ('\x7b' :: (newline level ++ t)) = (members? fuel t).map fun p => (.object p.1, p.2) := by
  obtain ⟨c, u, rfl, hspace, _, hclose⟩ := h
  rw [value?, skip_cons rfl]
  simp only [skip_newline, skip_cons hspace]
  split
  · simp_all
  · rfl

theorem readsAs_block {opening closing : Char} {level : Nat} {items : List Text} {j : Json} (hne : items ≠ [])
    (h : ∀ fuel rest, (joinWith (',' :: newline (level + 1)) items).length < fuel →
      value? (fuel + 1) (opening :: (newline (level + 1) ++
        (joinWith (',' :: newline (level + 1)) items ++ (newline level ++ closing :: rest)))) = some (j, rest)) :
    ReadsAs (block opening closing level items) j := by
  intro fuel rest hlen _
  rw [block_eq _ _ _ hne] at hlen ⊢
  simp only [List.length_cons, List.length_append] at hlen
  obtain ⟨n, rfl⟩ : ∃ n, fuel = n + 1 := ⟨fuel - 1, by omega⟩
  simpa using h n rest (by omega)

theorem readsAs_pair (opening closing : Char) {level : Nat} {j : Json}
    (h : ∀ fuel rest, value? (fuel + 1) (opening :: closing :: rest) = some (j, rest)) :
    ReadsAs (block opening closing level []) j
  | fuel + 1, rest, _, _ => h fuel rest

theorem readsAs_array (level : Nat) : ∀ {js : List Json}, (∀ j ∈ js, Plain j) →
    (∀ j ∈ js, ∀ level, ReadsAs (pretty level j) j) → ReadsAs (pretty level (.array js)) (.array js)
  | [], _, _ => by
    rw [pretty]
    exact readsAs_pair '[' ']' fun _ _ => rfl
  | j :: js, hplain, hreads => by
    rw [pretty, prettyElements_eq]
    refine readsAs_block (List.cons_ne_nil _ _) fun fuel rest hlen => ?_
    have hopens : Opens (joinWith (',' :: newline (level + 1)) ((j :: js).map (pretty (level + 1)))) :=
      ((hplain j List.mem_cons_self).opens (level + 1)).joinWith_cons _ _
    rw [value?_array (hopens.append _),
      elements?_joinWith (level + 1) level (List.cons_ne_nil j js) (fun k hk => hreads k hk _) hlen, Option.map_some]

theorem readsAs_ofMembers (level : Nat) : ∀ {ms : List (Text × Json)},
    (∀ m ∈ ms, ∀ level, ReadsAs (pretty level m.2) m.2) → ReadsAs (pretty level (ofMembers ms)) (ofMembers ms)
  | [], _ => by
    rw [ofMembers, pretty]
    exact readsAs_pair '\x7b' '\x7d' fun _ _ => rfl
  | m :: ms, hreads => by
    rw [ofMembers, pretty, prettyMembers_eq]
    refine readsAs_block (List.cons_ne_nil _ _) fun fuel rest hlen => ?_
    have hopens : Opens (joinWith (',' :: newline (level + 1)) ((m :: ms).map (member (level + 1)))) :=
      ((opens_quote m.1).append _).joinWith_cons _ _
    rw [value?_object (hopens.append _),
      members?_joinWith (level + 1) level (List.cons_ne_nil m ms) (fun k hk => hreads k hk _) hlen, Option.map_some]

/-- **A value is read from its printed form**, wherever this stands. -/
theorem Plain.readsAs {j : Json} (h : Plain j) : ∀ level, ReadsAs (pretty level j) j := by
  have hpos : ∀ {t fuel}, Opens t → t.length ≤ fuel → ∃ n, fuel = n + 1 := by
    rintro _ fuel ⟨c, u, rfl, _⟩ hlen
    exact ⟨fuel - 1, by rw [List.length_cons] at hlen; omega⟩
  induction h with
  | null =>
    rintro level (_ | fuel) rest hlen _
    · cases hlen
    · rfl
  | bool b =>
    rintro level (_ | fuel) rest hlen _
    · cases b <;> cases hlen
    · cases b <;> rfl
  | natural n =>
    intro level fuel rest hlen hends
    obtain ⟨fuel, rfl⟩ := hpos ((Plain.natural n).opens level) hlen
    rw [pretty, value?_ofNat n hends]
  | text t =>
    intro level fuel rest hlen _
    obtain ⟨fuel, rfl⟩ := hpos ((Plain.text t).opens level) hlen
    rw [ofText, pretty, Option.getD_some, value?_quote, ofText]
  | array hplain ih => exact fun level => readsAs_array level hplain ih
  | members _ ih => exact fun level => readsAs_ofMembers level ih

theorem read?_pretty {j : Json} (h : Plain j) : read? (pretty 0 j ++ ['\n']) = some j := by
  have hvalue := h.readsAs 0 (2 * (pretty 0 j ++ ['\n']).length + 2) ['\n'] (by rw [List.length_append]; omega) (by simp [Ends])
  rw [read?, hvalue]
  rfl

end Json
end Gridmark
