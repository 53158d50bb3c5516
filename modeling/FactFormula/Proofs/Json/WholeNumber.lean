import FactFormula.Proofs.Decimal.Denotation
import FactFormula.Proofs.Json.NumberText

/-!
Whole numbers through their own texts. A number that a machine word holds is read back exactly,
whatever may be the matter with the printer of other numbers.
-/
namespace FactFormula.Json

open Decimal (natural natural_begins AllDigits allDigits_natural)
open Decimal (spelled spelled_natural spelled_zero)

/-- A significand takes all digits if their value fits. -/
theorem appendDigits_of_lt {m : Nat} {s : List Char}
    (fits : Nat.ofDigitChars 10 s m < significandLimit) :
    appendDigits m s = (Nat.ofDigitChars 10 s m, s.length) := by
  induction s generalizing m with
  | nil => rfl
  | cons c s ih =>
    rw [Nat.ofDigitChars_cons] at fits ⊢
    -- No digit that follows makes the value smaller.
    have here : 10 * m + digitValue c < significandLimit := by
      refine lt_of_le_of_lt ?_ fits
      rw [Nat.ofDigitChars_eq_ofDigitChars_zero]
      exact (Nat.le_mul_of_pos_left _ (Nat.pow_pos (by decide))).trans (Nat.le_add_right _ _)
    rw [appendDigits, if_pos here, digitValue, ih fits]
    rfl

/-- Only zero begins with a zero. -/
theorem natural_ne_zero_cons {n : Nat} (positive : 0 < n) (s : List Char) :
    natural n ≠ '0' :: s := by
  induction n using Nat.strongRecOn generalizing s with
  | ind n ih =>
    intro zero
    by_cases single : n < 10
    · have alone : natural n = [n.digitChar] := Nat.toDigits_of_lt_base single
      have value := spelled_natural n
      rw [alone] at zero value
      rw [(List.cons.inj zero).1, spelled_zero] at value
      omega
    · have less : n / 10 < n := Nat.div_lt_self positive (by decide)
      have leading : 0 < n / 10 := by omega
      obtain ⟨c, t, split, -⟩ := natural_begins (n / 10)
      have digits : natural n = natural (n / 10) ++ [(n % 10).digitChar] := by
        rw [natural, Nat.toDigits_eq_if (by decide), if_neg single]
        rfl
      rw [digits, split, List.cons_append] at zero
      rw [(List.cons.inj zero).1] at split
      exact ih (n / 10) less leading t split

/-- A row of digits is all there is to a whole number. -/
theorem magnitude_of_digits {s : List Char} (digits : AllDigits s)
    (fits : spelled s < significandLimit) :
    magnitude false s = .ok (.integer (spelled s), []) := by
  have all : Json.digits s = s := List.takeWhile_eq_self_iff.mpr digits
  have behind : afterDigits s = [] := List.dropWhile_eq_nil_iff.mpr digits
  have value : appendDigits 0 s = (spelled s, s.length) := appendDigits_of_lt fits
  rw [magnitude_of_no_point false (by simp [behind])]
  simp [isWhole, all, behind, value, whole]

/-- A whole number that fits is read back from its own text. -/
theorem readNumber_integer_chars {n : Nat} (fits : n < significandLimit) :
    readNumber (Decimal.integer n) = .ok (.integer n, []) := by
  have text : Decimal.integer n = natural n := by simp [Decimal.integer]
  have digits := allDigits_natural n
  have value := magnitude_of_digits digits (by rwa [spelled_natural])
  rw [spelled_natural] at value
  obtain ⟨c, s, split, digit⟩ := natural_begins n
  have zero : c = '0' → ∀ d ∈ s.head?, d.isDigit = false := by
    rintro rfl
    obtain rfl | positive := Nat.eq_zero_or_pos n
    · obtain rfl : [] = s := (List.cons.inj split).2
      intro d none
      cases none
    · exact absurd split (natural_ne_zero_cons positive s)
  rw [text, split]
  rw [split] at value
  have unsigned : unsignedNumber false (c :: s) = .ok (.integer n, []) :=
    unsignedNumber_cons_eq_ok_iff.mpr ⟨digit, zero, value⟩
  unfold readNumber
  split
  · rename_i heq
    cases heq
    cases digit
  · exact unsigned

end FactFormula.Json
