import Mathlib
import Gridmark.Text.Digit
/-!
# Counts — sums up to the ceiling and printed numbers

A sum of counts is the exact one up to the ceiling (`foldl_add_eq_min`), and the digits of a number have its value
(`digitsValue?_ofNat`).  A printed number other than zero does not start with a zero (`head_ofNat`).
-/
namespace Gridmark
namespace Count

/-- A sum that stops at the ceiling is the exact one up to there. -/
theorem foldl_add_eq_min : ∀ (ns : List Nat) (a : Nat), ns.foldl add (min a ceiling) = min (a + ns.sum) ceiling
  | [], a => rfl
  | n :: ns, a => by
    have hadd : add (min a ceiling) n = min (a + n) ceiling := by
      unfold add
      omega
    rw [List.foldl_cons, hadd, foldl_add_eq_min ns, List.sum_cons, Nat.add_assoc]

theorem foldl_add {ns : List Nat} {a : Nat} (h : a + ns.sum ≤ ceiling) : ns.foldl add a = a + ns.sum := by
  have ha : min a ceiling = a := by omega
  rw [← ha, foldl_add_eq_min, ha, Nat.min_eq_left h]

theorem digitsValue?_eq : ∀ {t : Text} {acc : Nat}, (∀ c ∈ t, c.isDigit = true) →
    Text.digitsValue? t acc = some (Nat.ofDigitChars 10 t acc)
  | [], acc, _ => by rw [Text.digitsValue?, Nat.ofDigitChars_nil]
  | c :: t, acc, h => by
    rw [Text.digitsValue?, if_pos (h c List.mem_cons_self), Nat.ofDigitChars_cons,
      digitsValue?_eq fun d hd => h d (List.mem_cons_of_mem _ hd)]

theorem isDigit_of_mem_ofNat {n : Nat} {c : Char} (h : c ∈ Text.ofNat n) : c.isDigit = true :=
  Nat.isDigit_of_mem_toDigits (by decide) (by decide) h

theorem ofNat_ne_nil (n : Nat) : Text.ofNat n ≠ [] := Nat.toDigits_ne_nil

theorem digitsValue?_ofNat (n : Nat) : Text.digitsValue? (Text.ofNat n) 0 = some n := by
  rw [digitsValue?_eq fun c hc => isDigit_of_mem_ofNat hc]
  exact congrArg some Nat.ofDigitChars_ten_toDigits

theorem read?_ofNat {n : Nat} (h : n ≤ ceiling) : read? (Text.ofNat n) = some n := by
  rw [read?, if_neg (ofNat_ne_nil n), digitsValue?_ofNat]
  exact if_pos h

theorem head_ofNat (n : Nat) (h0 : 0 < n) : ∀ c ∈ (Text.ofNat n).head?, c ≠ '0' := by
  induction n using Nat.strongRecOn with
  | ind n ih =>
    by_cases h : n < 10
    · have hdigit : ∀ k < 10, 0 < k → Nat.digitChar k ≠ '0' := by decide
      rw [Text.ofNat, Nat.toDigits_of_lt_base h]
      simpa using hdigit n h h0
    · have hq : 0 < n / 10 := by omega
      rw [Text.ofNat, Nat.toDigits_of_base_le (by decide) (by omega),
        List.head?_append_of_ne_nil _ Nat.toDigits_ne_nil]
      exact ih (n / 10) (by omega) hq

end Count

theorem Text.isDecimalDigit_of_isDigit {c : Char} (h : c.isDigit = true) : isDecimalDigit c = true := by
  have hn : c.toNat < 0x80 := by
    simp only [Char.isDigit, Bool.and_eq_true, decide_eq_true_eq, ge_iff_le, UInt32.le_iff_toNat_le] at h
    exact Nat.lt_of_le_of_lt h.2 (by decide)
  rw [isDecimalDigit, if_pos hn, h]

end Gridmark
