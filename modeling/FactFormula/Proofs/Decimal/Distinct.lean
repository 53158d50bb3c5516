import FactFormula.Proofs.Decimal.Bits
import FactFormula.Proofs.Decimal.Denotation

/-!
The texts of numbers, of which no two are the same. They begin with a sign or a digit and have
nothing in them but digits, signs, a point and the letter of an exponent.
-/
namespace FactFormula.Decimal

/-- The characters of decimals. -/
def isNumeral (c : Char) : Bool := c.isDigit || c == '.' || c == 'e' || c == '+' || c == '-'

/-- A digit is left where the coefficient is not zero. -/
theorem dropTrailingZeros_ne_nil {d : Scaled} (h : d.coefficient ≠ 0) :
    dropTrailingZeros (natural d.coefficient) ≠ [] := by
  intro empty
  have value := spelled_natural d.coefficient
  obtain ⟨n, split⟩ := exists_dropTrailingZeros (natural d.coefficient)
  rw [split, empty, List.nil_append, spelled_zeros] at value
  exact h value.symm

theorem isNumeral_of_digit_or_point {s : List Char} (hs : ∀ c ∈ s, c.isDigit = true ∨ c = '.') :
    ∀ c ∈ s, isNumeral c = true := by
  intro c hc
  rcases hs c hc with digit | rfl
  · simp [isNumeral, digit]
  · rfl

theorem isNumeral_natural (n : ℕ) : ∀ c ∈ natural n, isNumeral c = true := by
  intro c hc
  simp [isNumeral, allDigits_natural n c hc]

theorem isNumeral_integer (n : ℤ) : ∀ c ∈ integer n, isNumeral c = true := by
  intro c hc
  unfold integer at hc
  split_ifs at hc with negative
  · rcases List.mem_cons.mp hc with rfl | hc
    · rfl
    · exact isNumeral_natural _ c hc
  · exact isNumeral_natural _ c hc

/-- Sign and magnitude are all there is to a number. -/
theorem eq_of_magnitudeBits {x y : Float}
    (sign : x.toBits.toNat / signPlace = y.toBits.toNat / signPlace)
    (magnitude : magnitudeBits x = magnitudeBits y) : x = y := by
  have bits : x.toBits.toNat = y.toBits.toNat := by
    rw [← Nat.div_add_mod x.toBits.toNat signPlace, ← Nat.div_add_mod y.toBits.toNat signPlace,
      sign]
    exact congrArg _ magnitude
  exact toBits_inj.mp (UInt64.toNat_inj.mp bits)

namespace Layout

variable {l : Layout}

/-- A magnitude begins with a digit. -/
theorem magnitude_begins (l : Layout) (x : Float) :
    ∃ c s, l.magnitude x = c :: s ∧ c.isDigit = true := by
  simp only [magnitude]
  obtain ⟨d, hd⟩ : ∃ d, shortest l.tie x = d := ⟨_, rfl⟩
  rw [hd]
  split_ifs with none small
  · exact ⟨'0', _, rfl, rfl⟩
  all_goals
    obtain ⟨c, rest, split⟩ := List.exists_cons_of_ne_nil (dropTrailingZeros_ne_nil none)
    have first : c.isDigit = true := by
      have digits := allDigits_dropTrailingZeros (allDigits_natural d.coefficient)
      exact digits c (split ▸ List.mem_cons_self)
    rw [split]
  · simp only [positional]
    split_ifs
    · exact ⟨'0', _, rfl, rfl⟩
    · exact ⟨c, _, rfl, first⟩
    · exact ⟨c, _, rfl, first⟩
  · exact ⟨c, _, rfl, first⟩

theorem magnitude_chars (plain : l.Plain) (x : Float) :
    ∀ c ∈ l.magnitude x, isNumeral c = true := by
  simp only [magnitude]
  obtain ⟨d, hd⟩ : ∃ d, shortest l.tie x = d := ⟨_, rfl⟩
  have digits := allDigits_dropTrailingZeros (allDigits_natural d.coefficient)
  rw [hd]
  split_ifs with none small
  · have mark : ∀ c ∈ l.wholeMark, isNumeral c = true := by
      rcases plain.whole with h | h <;> simp [h, isNumeral]
    exact List.forall_mem_cons.mpr ⟨rfl, mark⟩
  · exact isNumeral_of_digit_or_point (positional_chars plain digits _)
  · intro c hc
    rw [scientific_eq] at hc
    rcases List.mem_append.mp hc with hc | hc
    · exact isNumeral_of_digit_or_point (mantissa_chars digits) c hc
    · rcases List.mem_cons.mp hc with rfl | hc
      · rfl
      · split_ifs at hc with negative
        · exact isNumeral_integer _ c hc
        · rcases List.mem_append.mp hc with hc | hc
          · rcases plain.exponent with mark | mark <;> rw [mark] at hc
            · cases hc
            · cases List.mem_singleton.mp hc
              rfl
          · exact isNumeral_integer _ c hc

theorem chars_eq_ite (l : Layout) (x : Float) :
    l.chars x = if isNegative x then '-' :: l.magnitude x else l.magnitude x := rfl

theorem chars_begins (l : Layout) (x : Float) :
    ∃ c s, l.chars x = c :: s ∧ (c = '-' ∨ c.isDigit = true) := by
  rw [chars_eq_ite]
  split_ifs with negative
  · exact ⟨'-', _, rfl, .inl rfl⟩
  · obtain ⟨c, s, split, digit⟩ := l.magnitude_begins x
    exact ⟨c, s, split, .inr digit⟩

theorem chars_numeral (plain : l.Plain) (x : Float) : ∀ c ∈ l.chars x, isNumeral c = true := by
  intro c hc
  rw [chars_eq_ite] at hc
  split_ifs at hc with negative
  · rcases List.mem_cons.mp hc with rfl | hc
    · rfl
    · exact magnitude_chars plain x c hc
  · exact magnitude_chars plain x c hc

theorem isNegative_eq_iff (x y : Float) :
    isNegative x = isNegative y ↔ x.toBits.toNat / signPlace = y.toBits.toNat / signPlace := by
  have hx := x.toBits.toNat_lt
  have hy := y.toBits.toNat_lt
  rw [Bool.eq_iff_iff, isNegative, isNegative, beq_iff_eq, beq_iff_eq, signPlace]
  omega

/-- No magnitude is the text of a negative number. -/
theorem magnitude_ne_minus (l : Layout) (x : Float) (s : List Char) : l.magnitude x ≠ '-' :: s := by
  obtain ⟨c, t, split, digit⟩ := l.magnitude_begins x
  rw [split]
  intro same
  cases (List.cons.inj same).1
  cases digit

/-- Different numbers have different texts. -/
theorem chars_injective (plain : l.Plain) : Function.Injective l.chars := by
  intro x y same
  have parts : isNegative x = isNegative y ∧ l.magnitude x = l.magnitude y := by
    rw [chars_eq_ite, chars_eq_ite] at same
    split_ifs at same with hx hy hy
    · exact ⟨hx.trans hy.symm, (List.cons.inj same).2⟩
    · exact absurd same.symm (l.magnitude_ne_minus y _)
    · exact absurd same (l.magnitude_ne_minus x _)
    · exact ⟨by simp [hx, hy], same⟩
  obtain ⟨sign, magnitude⟩ := parts
  refine eq_of_magnitudeBits ((isNegative_eq_iff x y).mp sign) ?_
  apply magnitudeBits_eq_of_shortest
  rw [← denoted_magnitude plain x, magnitude, denoted_magnitude plain y]

end Layout

end FactFormula.Decimal
