import Mathlib.Data.List.Induction
import Gridmark.Registry
/-!
# Registering — neither the order of registration nor that of a table is seen

A registry keeps its formats in the order of their names.  Here they stand in a hash table, which lists them in an order of
its own that any registration may change (`Table.Runs`), and every question goes to that table.  What a registry answers
is then settled by the format registered last under each name (`Table.Runs.mem_formats`): the answers are the same for every
order of the table, and for every order of registration in which the formats of one name take their turns alike
(`answers_of_sameTurns`).
-/
namespace Gridmark

/-- The format that was registered last under a name. -/
def lastNamed? (fs : List Format) (name : Text) : Option Format := (fs.filter fun f => f.name = name).getLast?

/-- One sequence is a permutation of the other, and the formats of each name stand in the same order in both. -/
structure SameTurns (fs gs : List Format) : Prop where
  perm : fs.Perm gs
  turns : ∀ name, (fs.filter fun f => f.name = name) = gs.filter fun f => f.name = name

/-- The format registered last under a name claims the extension of a path, which may be in any case. -/
def Claims (fs : List Format) (path name : Text) : Prop :=
  ∃ extension f, PathName.extension? path = some extension ∧ lastNamed? fs name = some f ∧
    Text.lowercase extension ∈ f.extensions

/-! ## The last format of each name -/

theorem lastNamed?_nil (name : Text) : lastNamed? [] name = none := rfl

theorem lastNamed?_append (fs : List Format) (f : Format) (name : Text) :
    lastNamed? (fs ++ [f]) name = if f.name = name then some f else lastNamed? fs name := by
  unfold lastNamed?
  by_cases h : f.name = name <;> simp [List.filter_append, h]

theorem mem_of_lastNamed? {fs : List Format} {f : Format} {name : Text} (h : lastNamed? fs name = some f) :
    f ∈ fs ∧ f.name = name := by
  have hf := List.mem_filter.1 (List.mem_of_getLast? h)
  exact ⟨hf.1, by simpa using hf.2⟩

theorem exists_lastNamed?_iff (fs : List Format) (name : Text) :
    (∃ f, lastNamed? fs name = some f) ↔ ∃ f ∈ fs, f.name = name := by
  constructor
  · rintro ⟨f, hf⟩
    exact ⟨f, mem_of_lastNamed? hf⟩
  · rintro ⟨f, hf, hname⟩
    have hne : (fs.filter fun f => f.name = name) ≠ [] := by
      exact List.ne_nil_of_mem (List.mem_filter.2 ⟨hf, by simpa using hname⟩)
    exact ⟨_, List.getLast?_eq_some_getLast hne⟩

namespace SameTurns

variable {fs gs : List Format}

theorem lastNamed? (h : SameTurns fs gs) (name : Text) : lastNamed? fs name = lastNamed? gs name := by
  unfold Gridmark.lastNamed?
  rw [h.turns name]

/-- Neighbours of two names may change places. -/
theorem swap {f g : Format} (hne : f.name ≠ g.name) (fs gs : List Format) :
    SameTurns (fs ++ f :: g :: gs) (fs ++ g :: f :: gs) where
  perm := (List.Perm.swap g f gs).append_left fs
  turns name := by
    by_cases hf : f.name = name
    · have hg : g.name ≠ name := fun hg => hne (hf.trans hg.symm)
      simp [List.filter_append, hf, hg]
    · simp [List.filter_append, List.filter_cons, hf]

end SameTurns

/-! ## Texts in order -/

def sortTexts (ts : List Text) : List Text := ts.mergeSort fun s t => decide (¬t < s)

theorem mem_sortTexts {ts : List Text} {t : Text} : t ∈ sortTexts ts ↔ t ∈ ts := (List.mergeSort_perm ts _).mem_iff

theorem eq_of_not_lt {s t : Text} (h : ¬s < t) (h' : ¬t < s) : s = t := by
  by_contra hne
  exact h' (Keyed.lt_of_not_lt h hne)

theorem pairwise_sortTexts (ts : List Text) : (sortTexts ts).Pairwise fun s t => ¬t < s := by
  have h : (sortTexts ts).Pairwise fun s t => decide (¬t < s) = true := by
    apply List.pairwise_mergeSort
    · intro s t u hst htu
      rw [decide_eq_true_iff] at hst htu ⊢
      intro hus
      by_cases heq : t = s
      · exact htu (heq ▸ hus)
      · exact htu (List.lt_trans hus (Keyed.lt_of_not_lt hst heq))
    · intro s t
      by_cases hst : s < t
      · simp [List.lt_asymm hst]
      · simp [hst]
  exact h.imp of_decide_eq_true

/-- Texts that differ from one another increase when they are sorted. -/
theorem ordered_sortTexts {ts : List Text} (h : ts.Nodup) : Keyed.Ordered id (sortTexts ts) := by
  have hnodup : (sortTexts ts).Nodup := (List.mergeSort_perm ts _).nodup_iff.2 h
  refine List.Pairwise.imp₂ (fun s t hle hne => ?_) (pairwise_sortTexts ts) hnodup
  exact Keyed.lt_of_not_lt hle (Ne.symm hne)

theorem not_lt_of_sortTexts_eq_cons {ts rest : List Text} {s t : Text} (h : sortTexts ts = s :: rest) (ht : t ∈ ts) :
    ¬t < s := by
  have hsorted := pairwise_sortTexts ts
  rw [h] at hsorted
  rcases List.mem_cons.1 (h ▸ mem_sortTexts.2 ht) with rfl | ht
  · exact List.lt_irrefl _
  · exact (List.pairwise_cons.1 hsorted).1 t ht

theorem head?_sortTexts {ts : List Text} {t : Text} : (sortTexts ts).head? = some t ↔ t ∈ ts ∧ ∀ s ∈ ts, ¬s < t := by
  constructor
  · intro h
    obtain ⟨rest, hrest⟩ := List.head?_eq_some_iff.1 h
    exact ⟨mem_sortTexts.1 (hrest ▸ List.mem_cons_self), fun s => not_lt_of_sortTexts_eq_cons hrest⟩
  · rintro ⟨ht, hleast⟩
    obtain ⟨s, rest, hrest⟩ := List.exists_cons_of_ne_nil (List.ne_nil_of_mem (mem_sortTexts.2 ht))
    have hs : s ∈ ts := mem_sortTexts.1 (hrest ▸ List.mem_cons_self)
    rw [hrest, List.head?_cons, eq_of_not_lt (hleast s hs) (not_lt_of_sortTexts_eq_cons hrest ht)]

/-! ## Formats of different names -/

/-- The first element that has a property is the one of the least key. -/
theorem Keyed.map_find?_eq_some_iff {α : Type} {key : α → Text} {p : α → Bool} {as : List α} (h : Keyed.Ordered key as)
    {k : Text} : (as.find? p).map key = some k ↔
      (∃ a ∈ as, p a ∧ key a = k) ∧ ∀ a ∈ as, p a → ¬key a < k := by
  induction as with
  | nil => simp
  | cons a as ih =>
    obtain ⟨ha, has⟩ := List.pairwise_cons.1 h
    by_cases hp : p a
    · have hafter : ∀ b ∈ as, ¬key b < key a := fun b hb => List.lt_asymm (ha b hb)
      rw [List.find?_cons_of_pos hp, Option.map_some, Option.some_inj]
      constructor
      · rintro rfl
        refine ⟨⟨a, List.mem_cons_self, hp, rfl⟩, List.forall_mem_cons.2 ⟨fun _ => List.lt_irrefl _, fun b hb _ => hafter b hb⟩⟩
      · rintro ⟨⟨b, hb, -, rfl⟩, hleast⟩
        rcases List.mem_cons.1 hb with rfl | hb
        · rfl
        · exact absurd (ha b hb) (hleast a List.mem_cons_self hp)
    · rw [List.find?_cons_of_neg hp, ih has]
      simp [hp]

section

variable {fs formats : List Format}

theorem claims_iff (h : ∀ f, f ∈ formats ↔ lastNamed? fs f.name = some f) {path extension : Text}
    (hext : PathName.extension? path = some extension) (name : Text) :
    Claims fs path name ↔ ∃ f ∈ formats, Text.lowercase extension ∈ f.extensions ∧ f.name = name := by
  constructor
  · rintro ⟨e, f, he, hf, hmem⟩
    obtain rfl : e = extension := Option.some_inj.1 (he.symm.trans hext)
    have hname := (mem_of_lastNamed? hf).2
    exact ⟨f, (h f).2 (hname ▸ hf), hmem, hname⟩
  · rintro ⟨f, hf, hmem, rfl⟩
    exact ⟨extension, f, hext, (h f).1 hf, hmem⟩

theorem find?_name_eq_some_iff (h : (fs.map Format.name).Nodup) {f : Format} {name : Text} :
    (fs.find? fun f => f.name = name) = some f ↔ f ∈ fs ∧ f.name = name := by
  induction fs with
  | nil => simp
  | cons g gs ih =>
    obtain ⟨hg, hgs⟩ := List.nodup_cons.1 h
    by_cases hname : g.name = name
    · have hothers : f ∈ gs → f.name ≠ name := fun hf heq => hg (hname.trans heq.symm ▸ List.mem_map_of_mem hf)
      rw [List.find?_cons_of_pos (by simpa using hname), List.mem_cons, Option.some_inj]
      constructor
      · rintro rfl
        exact ⟨.inl rfl, hname⟩
      · rintro ⟨rfl | hf, heq⟩
        · rfl
        · exact absurd heq (hothers hf)
    · have hne : f.name = name → f ≠ g := fun heq hfg => hname (hfg ▸ heq)
      rw [List.find?_cons_of_neg (by simpa using hname), ih hgs, List.mem_cons]
      exact ⟨fun hf => ⟨.inr hf.1, hf.2⟩, fun hf => ⟨hf.1.resolve_left (hne hf.2), hf.2⟩⟩

end

/-! ## What is asked of a registry -/

structure Answers where
  names : List Text
  has : Text → Bool
  get : Text → Except FormatError Format
  read (name source : Text) : Except FormatError Document
  write (name : Text) (d : Document) : Except FormatError Text
  convert (source input output : Text) : Except FormatError Text
  detect? (path : Text) : Option Text

namespace Registry

def ofFormats (fs : List Format) : Registry := fs.foldl register empty

def answers (r : Registry) : Answers := ⟨r.names, r.has, r.get, r.read, r.write, r.convert, r.detect?⟩

theorem find?_ofFormats (fs : List Format) (name : Text) : (ofFormats fs).find? name = lastNamed? fs name := by
  induction fs using List.reverseRecOn with
  | nil => rfl
  | append_singleton fs f ih =>
    rw [ofFormats, List.foldl_append, lastNamed?_append, ← ih]
    exact Keyed.find?_put f name

theorem ordered_names (r : Registry) : Keyed.Ordered id r.names := List.pairwise_map.2 r.ordered

theorem nodup_names (r : Registry) : r.names.Nodup := by
  refine r.ordered_names.imp fun {a b} (hlt : a < b) heq => ?_
  exact List.lt_irrefl b (heq ▸ hlt)

theorem mem_formats_ofFormats {fs : List Format} {f : Format} :
    f ∈ (ofFormats fs).formats ↔ lastNamed? fs f.name = some f := by
  rw [← find?_ofFormats]
  exact ((find?_name_eq_some_iff (ofFormats fs).nodup_names).trans (and_iff_left rfl)).symm

theorem detect?_ofFormats {fs : List Format} {path name : Text} : (ofFormats fs).detect? path = some name ↔
    Claims fs path name ∧ ∀ other, Claims fs path other → ¬other < name := by
  rw [detect?]
  cases hext : PathName.extension? path with
  | none => simp [Claims, hext]
  | some extension =>
    have hclaims : ∀ n, Claims fs path n ↔ _ := claims_iff (fun _ => mem_formats_ofFormats) hext
    simp only [hclaims, Option.bind_eq_bind, Option.bind_some]
    change Option.bind _ (some ∘ Format.name) = _ ↔ _
    rw [← Option.map_eq_bind, Keyed.map_find?_eq_some_iff (ofFormats fs).ordered]
    refine and_congr (by simp) ⟨?_, ?_⟩
    · rintro hleast _ ⟨f, hf, hmem, rfl⟩
      exact hleast f hf (by simpa using hmem)
    · intro hleast f hf hmem
      exact hleast f.name ⟨f, hf, by simpa using hmem, rfl⟩

end Registry

/-! ## Tables -/

/-- The formats of a hash table in the order in which it lists them, one for each name. -/
structure Table where
  formats : List Format
  distinct : (formats.map Format.name).Nodup

namespace Table

def empty : Table := ⟨[], List.nodup_nil⟩

/-- The second table holds what the first does and a format, in the place of one with its name.  Its order is any. -/
def Registers (t : Table) (f : Format) (u : Table) : Prop :=
  u.formats.Perm (f :: t.formats.filter fun g => g.name ≠ f.name)

/-- The tables that registering the formats of a sequence can lead to. -/
inductive Runs : List Format → Table → Prop
  | empty : Runs [] empty
  | register {fs : List Format} {t u : Table} {f : Format} : Runs fs t → t.Registers f u → Runs (fs ++ [f]) u

def find? (t : Table) (name : Text) : Option Format := t.formats.find? fun f => f.name = name

def get (t : Table) (name : Text) : Except FormatError Format :=
  match t.find? name with
  | some f => .ok f
  | none => .error (.unknown name)

def has (t : Table) (name : Text) : Bool := (t.find? name).isSome

def names (t : Table) : List Text := sortTexts (t.formats.map Format.name)

/-- The least name of a format with the extension of a path, which may be in any case. -/
def detect? (t : Table) (path : Text) : Option Text := do
  let extension := Text.lowercase (← PathName.extension? path)
  (sortTexts ((t.formats.filter fun f => f.extensions.contains extension).map Format.name)).head?

def read (t : Table) (name source : Text) : Except FormatError Document := do
  let f ← t.get name
  if f.reads then f.read source else .error (.notReadable name)

def write (t : Table) (name : Text) (d : Document) : Except FormatError Text := do
  let f ← t.get name
  if f.writes then f.write d else .error (.notWritable name)

def convert (t : Table) (source input output : Text) : Except FormatError Text := do
  t.write output (← t.read input source)

def answers (t : Table) : Answers := ⟨t.names, t.has, t.get, t.read, t.write, t.convert, t.detect?⟩

theorem ordered_names (t : Table) : Keyed.Ordered id t.names := ordered_sortTexts t.distinct

variable {fs : List Format} {t u : Table}

theorem Registers.mem_formats {f g : Format} (h : t.Registers f u) :
    g ∈ u.formats ↔ g = f ∨ g ∈ t.formats ∧ g.name ≠ f.name := by
  rw [h.mem_iff, List.mem_cons, List.mem_filter, decide_eq_true_iff]

/-- **A table holds the formats registered last under their names**, whatever its order. -/
theorem Runs.mem_formats (h : t.Runs fs) {f : Format} : f ∈ t.formats ↔ lastNamed? fs f.name = some f := by
  induction h with
  | empty => simp [Table.empty, lastNamed?_nil]
  | @register fs t u g _ hput ih =>
    rw [hput.mem_formats, ih, lastNamed?_append]
    by_cases hname : g.name = f.name
    · simp [hname, eq_comm]
    · have hne : f ≠ g := fun heq => hname (heq ▸ rfl)
      simp [hname, hne, Ne.symm hname]

theorem Runs.find?_eq (h : t.Runs fs) (name : Text) : t.find? name = lastNamed? fs name := by
  ext f
  rw [find?, find?_name_eq_some_iff t.distinct, h.mem_formats]
  constructor
  · rintro ⟨hf, rfl⟩
    exact hf
  · intro hf
    have hname := (mem_of_lastNamed? hf).2
    exact ⟨hname ▸ hf, hname⟩

theorem Runs.mem_names (h : t.Runs fs) {name : Text} : name ∈ t.names ↔ ∃ f ∈ fs, f.name = name := by
  rw [names, mem_sortTexts, List.mem_map, ← exists_lastNamed?_iff fs]
  constructor
  · rintro ⟨f, hf, rfl⟩
    exact ⟨f, h.mem_formats.1 hf⟩
  · rintro ⟨f, hf⟩
    have hname := (mem_of_lastNamed? hf).2
    exact ⟨f, h.mem_formats.2 (hname ▸ hf), hname⟩

theorem Runs.detect?_eq_some_iff (h : t.Runs fs) {path name : Text} : t.detect? path = some name ↔
    Claims fs path name ∧ ∀ other, Claims fs path other → ¬other < name := by
  rw [detect?]
  cases hext : PathName.extension? path with
  | none => simp [Claims, hext]
  | some extension =>
    have hclaims := claims_iff (fun _ => h.mem_formats) hext
    simp [head?_sortTexts, hclaims, and_assoc]

/-- **What a table answers is settled by the formats registered last under their names.** -/
theorem Runs.answers_eq (h : t.Runs fs) : t.answers = (Registry.ofFormats fs).answers := by
  have hfind : t.find? = (Registry.ofFormats fs).find? := by
    funext name
    rw [h.find?_eq, Registry.find?_ofFormats]
  -- all but the names and the extensions go by what stands under one name
  have hget : t.get = (Registry.ofFormats fs).get := by
    funext name
    have hname := congrFun hfind name
    cases hf : t.find? name <;> simp [get, Registry.get, ← hname, hf]
  have hread : t.read = (Registry.ofFormats fs).read := by
    funext name source
    rw [read, hget, Registry.read]
  have hwrite : t.write = (Registry.ofFormats fs).write := by
    funext name d
    rw [write, hget, Registry.write]
  have hconvert : t.convert = (Registry.ofFormats fs).convert := by
    funext source input output
    rw [convert, hread, hwrite, Registry.convert]
  have hhas : t.has = (Registry.ofFormats fs).has := by
    funext name
    rw [has, hfind, Registry.has]
  have hnames : t.names = (Registry.ofFormats fs).names := by
    refine Keyed.eq_of_mem_iff t.ordered_names (Registry.ofFormats fs).ordered_names fun name => ?_
    rw [names, mem_sortTexts, Registry.names, List.mem_map, List.mem_map]
    simp only [h.mem_formats, Registry.mem_formats_ofFormats]
  have hdetect : t.detect? = (Registry.ofFormats fs).detect? := by
    funext path
    ext name
    rw [h.detect?_eq_some_iff, Registry.detect?_ofFormats]
  rw [answers, Registry.answers, hnames, hhas, hget, hread, hwrite, hconvert, hdetect]

end Table

theorem SameTurns.ofFormats_eq {fs gs : List Format} (h : SameTurns fs gs) :
    Registry.ofFormats fs = Registry.ofFormats gs := by
  have hformats : (Registry.ofFormats fs).formats = (Registry.ofFormats gs).formats := by
    refine Keyed.eq_of_mem_iff (Registry.ofFormats fs).ordered (Registry.ofFormats gs).ordered fun f => ?_
    rw [Registry.mem_formats_ofFormats, Registry.mem_formats_ofFormats, h.lastNamed?]
  rw [Registry.mk.injEq]
  exact hformats

/-- **Neither the order of registration nor the order of a table is seen.** -/
theorem Table.answers_of_sameTurns {fs gs : List Format} {t u : Table} (hturns : SameTurns fs gs) (ht : t.Runs fs)
    (hu : u.Runs gs) :
    t.answers = u.answers ∧ t.answers = (Registry.ofFormats fs).answers ∧
    t.names.Pairwise (· < ·) ∧ (∀ name, name ∈ t.names ↔ ∃ f ∈ fs, f.name = name) ∧
    (∀ name, t.get name = (lastNamed? fs name).elim (.error (.unknown name)) .ok) ∧
    ∀ path name, t.detect? path = some name ↔ Claims fs path name ∧ ∀ other, Claims fs path other → ¬other < name := by
  refine ⟨?_, ht.answers_eq, t.ordered_names, fun name => ht.mem_names, fun name => ?_, fun path name => ht.detect?_eq_some_iff⟩
  · rw [ht.answers_eq, hu.answers_eq, hturns.ofFormats_eq]
  · rw [Table.get, ht.find?_eq]
    cases lastNamed? fs name <;> rfl

def Format.drafts : Format := { Format.json with extensions := ["draft".toList] }

theorem Table.answers_redefined :
    SameTurns [.json, .yaml, .drafts] [.yaml, .json, .drafts] ∧
    ∃ t u : Table, t.Runs [.json, .yaml, .drafts] ∧ u.Runs [.yaml, .json, .drafts] ∧
      t.formats = [.drafts, .yaml] ∧ u.formats = [.yaml, .drafts] ∧ t.answers = u.answers ∧
      t.detect? "notes.Draft".toList = some "json".toList ∧ t.detect? "notes.json".toList = none := by
  have hne : Format.json.name ≠ Format.yaml.name := by decide
  have hdrafts : Format.drafts.name = Format.json.name := rfl
  have hturns : SameTurns [.json, .yaml, .drafts] [.yaml, .json, .drafts] := SameTurns.swap hne [] [.drafts]
  let t : Table := ⟨[.drafts, .yaml], by simp [hdrafts, hne]⟩
  let u : Table := ⟨[.yaml, .drafts], by simp [hdrafts, hne.symm]⟩
  let tj : Table := ⟨[.json], by simp⟩
  let ty : Table := ⟨[.yaml], by simp⟩
  let tjy : Table := ⟨[.json, .yaml], by simp [hne]⟩
  have hj : tj.Runs [.json] := .register .empty (.refl _)
  have hy : ty.Runs [.yaml] := .register .empty (.refl _)
  have ht : t.Runs [.json, .yaml, .drafts] := by
    refine .register (t := tjy) (.register hj ?_) ?_
    · simp [Table.Registers, tj, tjy, hne, List.Perm.swap]
    · simp [Table.Registers, t, tjy, hne.symm, hdrafts]
  have hu : u.Runs [.yaml, .json, .drafts] := by
    refine .register (t := tjy) (.register hy ?_) ?_
    · simp [Table.Registers, ty, tjy, hne.symm]
    · simp [Table.Registers, u, tjy, hne.symm, hdrafts, List.Perm.swap]
  obtain ⟨hsame, hanswers, -⟩ := Table.answers_of_sameTurns hturns ht hu
  have hdetect := congrFun (congrArg Answers.detect? hanswers)
  refine ⟨hturns, t, u, ht, hu, rfl, rfl, hsame, (hdetect _).trans ?_, (hdetect _).trans ?_⟩
  · decide +kernel
  · decide +kernel

end Gridmark
