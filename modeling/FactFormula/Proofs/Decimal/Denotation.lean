import Mathlib.Data.List.TakeWhile
import Mathlib.Tactic.Ring
import FactFormula.Decimal.Layout
import FactFormula.Proofs.Decimal.Neighbours

/-!
The numbers that written decimals denote. Whatever a layout decides, the text of a number denotes
its shortest decimal; so different numbers have different texts.
-/
namespace FactFormula.Decimal

/-- The whole number that a row of digits spells. -/
def spelled (digits : List Char) : ℕ := Nat.ofDigitChars 10 digits 0

/-- The denotation of digits with a point among them, or without one. -/
def fixed (s : List Char) : ℚ :=
  let fraction := (s.dropWhile (· != '.')).drop 1
  spelled (s.takeWhile (· != '.') ++ fraction) / 10 ^ fraction.length

/-- The whole number that digits with or without a sign spell. -/
def spelledInt (s : List Char) : ℤ :=
  match s with
  | '-' :: digits => -(spelled digits)
  | '+' :: digits => spelled digits
  | digits => spelled digits

/-- The denotation of a decimal without a sign. -/
def denoted (s : List Char) : ℚ :=
  fixed (s.takeWhile (· != 'e')) * 10 ^ spelledInt ((s.dropWhile (· != 'e')).drop 1)

/-- The two marks of a layout add nothing to what its digits denote. -/
structure Layout.Plain (l : Layout) : Prop where
  whole : l.wholeMark = [] ∨ l.wholeMark = ['.', '0']
  exponent : l.exponentMark = [] ∨ l.exponentMark = ['+']

theorem json_plain : json.Plain := ⟨.inr rfl, .inr rfl⟩

def AllDigits (s : List Char) : Prop := ∀ c ∈ s, c.isDigit = true

section

variable {s t : List Char}

theorem AllDigits.append (hs : AllDigits s) (ht : AllDigits t) : AllDigits (s ++ t) := by
  intro c hc
  rcases List.mem_append.mp hc with hc | hc
  · exact hs c hc
  · exact ht c hc

theorem AllDigits.ne (hs : AllDigits s) {d : Char} (hd : d.isDigit = false) :
    ∀ c ∈ s, (c != d) = true := by
  intro c hc
  rw [bne_iff_ne]
  rintro rfl
  exact Bool.false_ne_true (hd.symm.trans (hs c hc))

theorem allDigits_natural (n : ℕ) : AllDigits (natural n) := fun _ hc =>
  Nat.isDigit_of_mem_toDigits (by decide) (by decide) hc

theorem allDigits_zeros (n : ℕ) : AllDigits (zeros n) := by
  intro c hc
  rw [List.eq_of_mem_replicate hc]
  rfl

theorem spelled_append (s t : List Char) :
    spelled (s ++ t) = 10 ^ t.length * spelled s + spelled t := by
  rw [spelled, Nat.ofDigitChars_append, Nat.ofDigitChars_eq_ofDigitChars_zero]
  rfl

theorem spelled_zeros (n : ℕ) : spelled (zeros n) = 0 := by
  simp [spelled, zeros, Nat.ofDigitChars_replicate_zero]

theorem spelled_zero : spelled ['0'] = 0 := rfl

theorem spelled_append_zeros (s : List Char) (n : ℕ) :
    spelled (s ++ zeros n) = 10 ^ n * spelled s := by
  rw [spelled_append, spelled_zeros, zeros, List.length_replicate, Nat.add_zero]

theorem spelled_natural (n : ℕ) : spelled (natural n) = n := Nat.ofDigitChars_ten_toDigits

theorem natural_begins (n : ℕ) : ∃ c s, natural n = c :: s ∧ c.isDigit = true := by
  cases h : natural n with
  | nil => exact absurd h Nat.toDigits_ne_nil
  | cons c s => exact ⟨c, s, rfl, allDigits_natural n c (h ▸ List.mem_cons_self)⟩

theorem integer_begins (n : ℤ) : ∃ c s, integer n = c :: s ∧ (c = '-' ∨ c.isDigit = true) := by
  unfold integer
  split_ifs with negative
  · exact ⟨'-', _, rfl, .inl rfl⟩
  · obtain ⟨c, s, split, digit⟩ := natural_begins n.natAbs
    exact ⟨c, s, split, .inr digit⟩

theorem spelledInt_natural (n : ℕ) : spelledInt (natural n) = n := by
  have value := spelled_natural n
  obtain ⟨c, s, split, digit⟩ := natural_begins n
  have minus : c ≠ '-' := by rintro rfl; cases digit
  have plus : c ≠ '+' := by rintro rfl; cases digit
  rw [split] at value ⊢
  simp [spelledInt, minus, plus, value]

theorem spelledInt_integer (n : ℤ) : spelledInt (integer n) = n := by
  unfold integer
  split_ifs with negative
  · rw [spelledInt, spelled_natural]
    omega
  · rw [spelledInt_natural]
    omega

theorem fixed_of_digits (hs : AllDigits s) : fixed s = spelled s := by
  have point := hs.ne (d := '.') rfl
  have before : s.takeWhile (· != '.') = s := List.takeWhile_eq_self_iff.mpr point
  have behind : s.dropWhile (· != '.') = [] := List.dropWhile_eq_nil_iff.mpr point
  simp [fixed, before, behind]

theorem fixed_point (hs : AllDigits s) (t : List Char) :
    fixed (s ++ '.' :: t) = spelled (s ++ t) / 10 ^ t.length := by
  have point := hs.ne (d := '.') rfl
  have before : (s ++ '.' :: t).takeWhile (· != '.') = s := by
    rw [List.takeWhile_append_of_pos point]
    simp
  have behind : (s ++ '.' :: t).dropWhile (· != '.') = '.' :: t := by
    rw [List.dropWhile_append_of_pos point]
    rfl
  simp [fixed, before, behind]

theorem no_exponent (hs : ∀ c ∈ s, c.isDigit = true ∨ c = '.') : ∀ c ∈ s, (c != 'e') = true := by
  intro c hc
  rw [bne_iff_ne]
  rintro rfl
  rcases hs _ hc with digit | point
  · cases digit
  · cases point

theorem denoted_of_fixed (hs : ∀ c ∈ s, (c != 'e') = true) : denoted s = fixed s := by
  have before : s.takeWhile (· != 'e') = s := List.takeWhile_eq_self_iff.mpr hs
  have behind : s.dropWhile (· != 'e') = [] := List.dropWhile_eq_nil_iff.mpr hs
  simp [denoted, before, behind, spelledInt, spelled]

theorem denoted_exponent (hs : ∀ c ∈ s, (c != 'e') = true) (t : List Char) :
    denoted (s ++ 'e' :: t) = fixed s * 10 ^ spelledInt t := by
  have before : (s ++ 'e' :: t).takeWhile (· != 'e') = s := by
    rw [List.takeWhile_append_of_pos hs]
    simp
  have behind : (s ++ 'e' :: t).dropWhile (· != 'e') = 'e' :: t := by
    rw [List.dropWhile_append_of_pos hs]
    rfl
  simp [denoted, before, behind]

/-- What was dropped is a row of zeros. -/
theorem exists_dropTrailingZeros (s : List Char) : ∃ n, s = dropTrailingZeros s ++ zeros n := by
  have dropped : ∀ c ∈ s.reverse.takeWhile (· == '0'), c = '0' := by
    intro c hc
    have zero : (c == '0') = true := List.mem_takeWhile_imp (p := (· == '0')) hc
    exact beq_iff_eq.mp zero
  refine ⟨(s.reverse.takeWhile (· == '0')).length, List.reverse_injective ?_⟩
  have split := (List.takeWhile_append_dropWhile (p := (· == '0')) (l := s.reverse)).symm
  rw [List.eq_replicate_of_mem dropped] at split
  simpa [dropTrailingZeros, zeros] using split

theorem allDigits_dropTrailingZeros (hs : AllDigits s) : AllDigits (dropTrailingZeros s) := by
  obtain ⟨n, split⟩ := exists_dropTrailingZeros s
  intro c hc
  rw [split] at hs
  exact hs c (List.mem_append_left _ hc)

end

namespace Layout

variable {l : Layout} {digits : List Char}

theorem fixed_below_one (digits : List Char) {e : ℤ} (small : e < 0) :
    fixed (l.positional digits e) = spelled digits * 10 ^ (e + 1 - digits.length) := by
  have zero : AllDigits ['0'] := by simp [AllDigits]
  have behind : ((zeros (-e - 1).toNat ++ digits).length : ℤ) = -(e + 1 - digits.length) := by
    simp only [zeros, List.length_append, List.length_replicate]
    omega
  have value : spelled (['0'] ++ (zeros (-e - 1).toNat ++ digits)) = spelled digits := by
    rw [spelled_append, spelled_append, spelled_zeros, spelled_zero]
    omega
  rw [positional, if_pos small]
  calc fixed (['0'] ++ '.' :: (zeros (-e - 1).toNat ++ digits))
      = spelled digits / 10 ^ (zeros (-e - 1).toNat ++ digits).length := by
        rw [fixed_point zero, value]
    _ = spelled digits * 10 ^ (e + 1 - digits.length) := by
        rw [← zpow_natCast, behind, zpow_neg, div_inv_eq_mul]

theorem fixed_filled (plain : l.Plain) (hd : AllDigits digits) {e : ℤ} (large : ¬ e < 0)
    (filled : digits.length ≤ e.toNat + 1) :
    fixed (l.positional digits e) = spelled digits * 10 ^ (e + 1 - digits.length) := by
  obtain ⟨n, places⟩ : ∃ n : ℕ, e.toNat + 1 - digits.length = n := ⟨_, rfl⟩
  have power : (10 : ℚ) ^ (e + 1 - digits.length) = 10 ^ n := by
    rw [← zpow_natCast]
    congr 1
    omega
  have whole : AllDigits (digits ++ zeros n) := hd.append (allDigits_zeros n)
  simp only [positional, if_neg large, if_pos filled, places]
  rw [power]
  rcases plain.whole with mark | mark
  · rw [mark, List.append_nil, fixed_of_digits whole, spelled_append_zeros]
    push_cast
    ring
  · rw [mark, fixed_point whole, spelled_append _ ['0'], spelled_append_zeros]
    rw [spelled_zero]
    push_cast
    field_simp
    simp

theorem fixed_parted (hd : AllDigits digits) {e : ℤ} (large : ¬ e < 0)
    (parted : ¬ digits.length ≤ e.toNat + 1) :
    fixed (l.positional digits e) = spelled digits * 10 ^ (e + 1 - digits.length) := by
  have before : AllDigits (digits.take (e.toNat + 1)) := fun c hc => hd c (List.mem_of_mem_take hc)
  have behind : ((digits.drop (e.toNat + 1)).length : ℤ) = -(e + 1 - digits.length) := by
    rw [List.length_drop]
    omega
  simp only [positional, if_neg large, if_neg parted]
  rw [fixed_point before, List.take_append_drop, ← zpow_natCast, behind, zpow_neg, div_inv_eq_mul]

/-- The first digit has the weight `10 ^ e`. -/
theorem fixed_positional (plain : l.Plain) (hd : AllDigits digits) (e : ℤ) :
    fixed (l.positional digits e) = spelled digits * 10 ^ (e + 1 - digits.length) := by
  by_cases small : e < 0
  · exact fixed_below_one digits small
  · by_cases filled : digits.length ≤ e.toNat + 1
    · exact fixed_filled plain hd small filled
    · exact fixed_parted hd small filled

/-- Only digits and a point stand in a text without an exponent. -/
theorem positional_chars (plain : l.Plain) (hd : AllDigits digits) (e : ℤ) :
    ∀ c ∈ l.positional digits e, c.isDigit = true ∨ c = '.' := by
  have zero (n : ℕ) := allDigits_zeros n
  have mark : ∀ c ∈ l.wholeMark, c.isDigit = true ∨ c = '.' := by
    rcases plain.whole with h | h <;> simp [h]
  intro c hc
  simp only [positional] at hc
  split_ifs at hc with small filled
  · simp only [List.cons_append, List.mem_cons, List.mem_append] at hc
    rcases hc with rfl | rfl | hc | hc
    · exact .inl rfl
    · exact .inr rfl
    · exact .inl (zero _ c hc)
    · exact .inl (hd c hc)
  · simp only [List.mem_append] at hc
    rcases hc with (hc | hc) | hc
    · exact .inl (hd c hc)
    · exact .inl (zero _ c hc)
    · exact mark c hc
  · simp only [List.mem_append, List.mem_cons] at hc
    rcases hc with hc | rfl | hc
    · exact .inl (hd c (List.mem_of_mem_take hc))
    · exact .inr rfl
    · exact .inl (hd c (List.mem_of_mem_drop hc))

/-- The digits of a text with an exponent, with a point behind the first unless it is alone. -/
def mantissa (digits : List Char) : List Char :=
  digits.take 1 ++ if (digits.drop 1).isEmpty then [] else '.' :: digits.drop 1

theorem mantissa_chars (hd : AllDigits digits) :
    ∀ c ∈ mantissa digits, c.isDigit = true ∨ c = '.' := by
  intro c hc
  rcases List.mem_append.mp hc with hc | hc
  · exact .inl (hd c (List.mem_of_mem_take hc))
  · split_ifs at hc with none
    · cases hc
    · rcases List.mem_cons.mp hc with rfl | hc
      · exact .inr rfl
      · exact .inl (hd c (List.mem_of_mem_drop hc))

theorem fixed_mantissa (hd : AllDigits digits) :
    fixed (mantissa digits) = spelled digits * 10 ^ (1 - digits.length : ℤ) := by
  have first : AllDigits (digits.take 1) := fun c hc => hd c (List.mem_of_mem_take hc)
  rcases digits with _ | ⟨c, _ | ⟨d, rest⟩⟩
  · simp [fixed, mantissa, spelled]
  · simpa [mantissa] using fixed_of_digits first
  · have point : fixed (mantissa (c :: d :: rest)) =
        spelled ([c] ++ d :: rest) / 10 ^ (d :: rest).length := fixed_point first (d :: rest)
    have weight : (1 - (c :: d :: rest).length : ℤ) = -(d :: rest).length := by
      simp only [List.length_cons]
      omega
    rw [point, weight, zpow_neg, zpow_natCast, div_eq_mul_inv, List.singleton_append]

theorem spelledInt_written (plain : l.Plain) (e : ℤ) :
    spelledInt (if e < 0 then integer e else l.exponentMark ++ integer e) = e := by
  split_ifs with negative
  · exact spelledInt_integer e
  · rcases plain.exponent with mark | mark
    · rw [mark, List.nil_append, spelledInt_integer]
    · rw [mark, List.singleton_append, spelledInt, integer, if_neg negative, spelled_natural]
      omega

theorem scientific_eq (l : Layout) (digits : List Char) (e : ℤ) : l.scientific digits e =
    mantissa digits ++ 'e' :: if e < 0 then integer e else l.exponentMark ++ integer e := rfl

theorem denoted_scientific (plain : l.Plain) (hd : AllDigits digits) (e : ℤ) :
    denoted (l.scientific digits e) = spelled digits * 10 ^ (e + 1 - digits.length) := by
  have weight : (e + 1 - digits.length : ℤ) = 1 - digits.length + e := by omega
  rw [scientific_eq, denoted_exponent (no_exponent (mantissa_chars hd)), fixed_mantissa hd,
    spelledInt_written plain, mul_assoc, ← zpow_add₀ (by norm_num), weight]

/-- Nothing is lost with the zeros at the end, as the weight of the first digit is kept. -/
theorem spelled_dropTrailingZeros (d : Scaled) :
    (spelled (dropTrailingZeros (natural d.coefficient)) : ℚ) *
        10 ^ (d.exponent + (natural d.coefficient).length - 1 + 1 -
          (dropTrailingZeros (natural d.coefficient)).length) = d.toRat := by
  obtain ⟨n, split⟩ := exists_dropTrailingZeros (natural d.coefficient)
  have coefficient := spelled_natural d.coefficient
  generalize dropTrailingZeros (natural d.coefficient) = digits at split ⊢
  rw [split, spelled_append_zeros] at coefficient
  have weight : d.exponent + (natural d.coefficient).length - 1 + 1 - digits.length =
      n + d.exponent := by
    rw [split, zeros, List.length_append, List.length_replicate]
    push_cast
    ring
  rw [weight, zpow_add₀ (by norm_num), zpow_natCast, ← mul_assoc, Scaled.toRat, ← coefficient]
  push_cast
  ring

theorem denoted_zero (plain : l.Plain) : denoted ('0' :: l.wholeMark) = 0 := by
  have zero : AllDigits ['0'] := by simp [AllDigits]
  rcases plain.whole with mark | mark <;> rw [mark]
  · rw [denoted_of_fixed (by simp), fixed_of_digits zero, spelled_zero, Nat.cast_zero]
  · have value : spelled (['0'] ++ ['0']) = 0 := rfl
    have point : fixed ['0', '.', '0'] = 0 := by
      rw [← List.singleton_append, fixed_point zero, value, Nat.cast_zero, zero_div]
    rw [denoted_of_fixed (by simp), point]

/-- The text of a magnitude denotes its shortest decimal. -/
theorem denoted_magnitude (plain : l.Plain) (x : Float) :
    denoted (l.magnitude x) = (shortest l.tie x).toRat := by
  simp only [magnitude]
  obtain ⟨d, hd⟩ : ∃ d, shortest l.tie x = d := ⟨_, rfl⟩
  have digits := allDigits_dropTrailingZeros (allDigits_natural d.coefficient)
  rw [hd]
  split_ifs with none positional
  · rw [denoted_zero plain, Scaled.toRat, none, Nat.cast_zero, zero_mul]
  · rw [denoted_of_fixed (no_exponent (positional_chars plain digits _)), fixed_positional plain digits,
      spelled_dropTrailingZeros]
  · rw [denoted_scientific plain digits, spelled_dropTrailingZeros]

end Layout

end FactFormula.Decimal
