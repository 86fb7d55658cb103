import Gridmark.Proofs.WellFormed
/-!
# Quoting — what comes back of a value

A written value stands on one line and is read as itself, but that each backslash with an `n` behind it is read as a line
feed.  Two such pairs never overlap, so a value is its pieces between the pairs (`exists_pieces`), and what is read is the
same pieces with line feeds between them (`expandNewlines_joinWith`).  What a text writes has no pair left in it, so the
values that come back are the values that can be read at all (`exists_read_iff`).
-/
namespace Gridmark
namespace Value

open Text (joinWith)

/-- A pair does not go on behind a backslash, so what stands before one is read on its own. -/
theorem expandNewlines_append_backslash (t u : Text) :
    expandNewlines (t ++ '\\' :: u) = expandNewlines t ++ expandNewlines ('\\' :: u) := by
  fun_induction expandNewlines t with
  | case1 => rfl
  | case2 t ih => rw [List.cons_append, List.cons_append, expandNewlines, ih, List.cons_append]
  | case3 c t h ih =>
    rw [List.cons_append, expandNewlines_cons, ih, List.cons_append]
    intro w hc hw
    cases t with
    | nil => cases hw
    | cons d t =>
      obtain ⟨rfl, -⟩ := List.cons.inj hw
      exact h t hc rfl

/-- **Pieces with pairs between them are read as the pieces with line feeds between them.** -/
theorem expandNewlines_joinWith : ∀ {ps : List Text}, (∀ p ∈ ps, Expanded p) →
    expandNewlines (joinWith newlinePair ps) = joinWith ['\n'] ps
  | [], _ => rfl
  | [p], h => expandNewlines_eq_self (h p List.mem_cons_self)
  | p :: q :: ps, h => by
    obtain ⟨hp, hps⟩ := List.forall_mem_cons.1 h
    have hj : joinWith newlinePair (p :: q :: ps) = p ++ '\\' :: 'n' :: joinWith newlinePair (q :: ps) := by
      simp [joinWith, newlinePair]
    rw [hj, expandNewlines_append_backslash, expandNewlines_eq_self hp, expandNewlines, expandNewlines_joinWith hps]
    simp [joinWith]

theorem joinWith_cons_head (sep : Text) (c : Char) (p : Text) : ∀ ps : List Text,
    joinWith sep ((c :: p) :: ps) = c :: joinWith sep (p :: ps)
  | [] => rfl
  | _ :: _ => rfl

/-- Every text is its pieces between the pairs. -/
theorem exists_pieces (t : Text) : ∃ ps, ps ≠ [] ∧ t = joinWith newlinePair ps ∧ ∀ p ∈ ps, Expanded p := by
  fun_induction expandNewlines t with
  | case1 => exact ⟨[[]], by simp, rfl, by simp [Expanded, newlinePair]⟩
  | case2 t ih =>
    obtain ⟨ps, hne, rfl, hps⟩ := ih
    obtain ⟨p, ps, rfl⟩ := List.exists_cons_of_ne_nil hne
    exact ⟨[] :: p :: ps, by simp, rfl, List.forall_mem_cons.2 ⟨by simp [Expanded, newlinePair], hps⟩⟩
  | case3 c t h ih =>
    obtain ⟨ps, hne, rfl, hps⟩ := ih
    obtain ⟨p, ps, rfl⟩ := List.exists_cons_of_ne_nil hne
    obtain ⟨hp, htail⟩ := List.forall_mem_cons.1 hps
    refine ⟨(c :: p) :: ps, by simp, (joinWith_cons_head _ c p ps).symm, List.forall_mem_cons.2 ⟨fun hi => ?_, htail⟩⟩
    rcases List.infix_cons_iff.1 hi with hi | hi
    · -- a piece that starts with a pair is in a text that starts with one
      obtain ⟨rfl, u, rfl⟩ := List.cons_prefix_cons.1 hi
      exact h _ rfl (joinWith_cons_head _ 'n' u ps)
    · exact hp hi

theorem expandNewlines_eq_self_iff {t : Text} : expandNewlines t = t ↔ Expanded t :=
  ⟨fun h => h ▸ expanded_expandNewlines t, expandNewlines_eq_self⟩

/-- **The values that come back are the values that some text writes.** -/
theorem exists_read_iff {v : Text} : (∃ t, read t = v) ↔ read (write v) = v := by
  refine ⟨?_, fun h => ⟨write v, h⟩⟩
  rintro ⟨t, rfl⟩
  rw [read_write, expandNewlines_eq_self (expanded_read t)]

/-- **What comes back of a value**: it is written on one line and read as its pieces between the pairs, with line feeds for
the pairs.  So it comes back as it was just when no pair stands in it, and that is so of the values that can be read. -/
theorem read_write_pieces (v : Text) :
    '\n' ∉ write v ∧
      (∃ ps, v = joinWith newlinePair ps ∧ (∀ p ∈ ps, ¬newlinePair <:+: p) ∧ read (write v) = joinWith ['\n'] ps) ∧
      (read (write v) = v ↔ ¬newlinePair <:+: v) ∧ ((∃ t, read t = v) ↔ read (write v) = v) := by
  obtain ⟨ps, -, hv, hps⟩ := exists_pieces v
  refine ⟨not_mem_write v, ⟨ps, hv, hps, ?_⟩, ?_, exists_read_iff⟩
  · rw [read_write, hv, expandNewlines_joinWith hps]
  · rw [read_write]
    exact expandNewlines_eq_self_iff

/-- A value with composite quotes of its own, a backslash before a pair and a line feed at its end. -/
example : read (write ['"', '<', '\\', '\\', 'n', '>', '"', '\n']) = ['"', '<', '\\', '\n', '>', '"', '\n'] := by decide

end Value
end Gridmark
