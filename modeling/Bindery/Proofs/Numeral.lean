import Bindery.Numeral
import Mathlib.Data.List.TakeWhile

/-!
# Reading decimal numerals

The decimal digits of a number are read back as the number when it fits into 64 bits. Digit
separators do not count, and neither do suffix letters when they are dropped first.

## Main statements

* `Numeral.magnitude?_of_digits`: reading digits back.
-/
namespace Bindery.Numeral

variable {cs digits suffix : List Char} {c : Char} {n : ℕ}

theorem digitValue?_of_isDigit (h : c.isDigit = true) :
    digitValue? c = some (c.toNat - '0'.toNat) := by
  have hrange : ('0' ≤ c && c ≤ '9') = true := by
    simpa [Char.isDigit, Char.le_def] using h
  rw [digitValue?, if_pos hrange]

theorem digitValue?_lt (h : c.isDigit = true) : c.toNat - '0'.toNat < 10 := by
  have hle : c.toNat ≤ 57 := by
    have hrange : '0' ≤ c ∧ c ≤ '9' := by simpa [Char.isDigit, Char.le_def] using h
    exact hrange.2
  have hzero : '0'.toNat = 48 := rfl
  omega

theorem digitsFrom?_of_isDigit (value : ℕ) (h : ∀ c ∈ cs, c.isDigit = true) :
    digitsFrom? 10 value cs = some (Nat.ofDigitChars 10 cs value) := by
  induction cs generalizing value with
  | nil => rfl
  | cons c cs ih =>
    have hc : c.isDigit = true := h c (.head _)
    simp only [digitsFrom?, digitValue?_of_isDigit hc, if_pos (digitValue?_lt hc)]
    rw [ih _ fun d hd => h d (.tail _ hd), Nat.mul_comm]
    rfl

theorem read?_of_isDigit (hne : cs ≠ []) (h : ∀ c ∈ cs, c.isDigit = true) :
    read? 10 cs = fit? (Nat.ofDigitChars 10 cs 0) := by
  have hdigits : digits? 10 cs = some (Nat.ofDigitChars 10 cs 0) := by
    rw [digits?, if_neg hne, digitsFrom?_of_isDigit 0 h]
  rw [read?.eq_def]
  split
  · exact absurd (h '-' (.head _)) (by decide)
  · exact absurd (h '+' (.head _)) (by decide)
  · rw [hdigits, Option.bind_some]

/-- The digits of a number, with separators between them, are read as the number. -/
theorem magnitude?_of_digits (hdigits : cs.filter (· ≠ '\'') = Nat.toDigits 10 n)
    (hn : (n : Int) ≤ maxInt64) : magnitude? cs = some (n : Int) := by
  have hall : ∀ c ∈ Nat.toDigits 10 n, c.isDigit = true := fun c hc =>
    Nat.isDigit_of_mem_toDigits (by decide) (by decide) hc
  have hread : read? 10 (Nat.toDigits 10 n) = some (n : Int) := by
    rw [read?_of_isDigit Nat.toDigits_ne_nil hall,
      Nat.ofDigitChars_toDigits (by decide) (by decide), fit?, if_pos]
    simp only [Bool.and_eq_true, decide_eq_true_eq]
    exact ⟨Int.le_trans (by decide) (Int.natCast_nonneg n), hn⟩
  rw [magnitude?, hdigits]
  split
  · next heq => exact absurd (hall 'x' (heq ▸ .tail _ (.head _))) (by decide)
  · next heq => exact absurd (hall 'X' (heq ▸ .tail _ (.head _))) (by decide)
  · exact hread

theorem dropSuffix_append {p : Char → Bool} (hcs : ∀ c ∈ cs, p c = false)
    (hsuffix : ∀ c ∈ suffix, p c = true) : dropSuffix p (cs ++ suffix) = cs := by
  rw [dropSuffix, List.reverse_append, List.dropWhile_append_of_pos (by simpa using hsuffix)]
  have hkeep : cs.reverse.dropWhile p = cs.reverse := by
    rw [List.dropWhile_eq_self_iff]
    intro hlength
    have hmem := hcs _ (List.mem_reverse.1 (List.getElem_mem hlength))
    simpa using hmem
  rw [hkeep, List.reverse_reverse]

end Bindery.Numeral
