import Mathlib.Order.Monotone.Basic
import FactFormula.Proofs.Decimal.Grid

/-!
The intervals of different numbers. Each begins where the one before it ends, and the common end
belongs to one of the two: so no decimal rounds to two numbers, and the shortest decimal tells
numbers apart.
-/
namespace FactFormula.Decimal

/-- The significand of the number with the sign-free bits `bits`. -/
def significand (bits : ℕ) : ℕ :=
  if bits / normalSignificand = 0 then bits % normalSignificand
  else normalSignificand + bits % normalSignificand

/-- A quarter of the last binary place has the weight `2 ^ place`. -/
def place (bits : ℕ) : ℤ := (max (bits / normalSignificand) 1 : ℕ) - 1077

/-- How many of these quarters lie between the number and the lower end of its interval. -/
def gapBelow (bits : ℕ) : ℕ :=
  if bits % normalSignificand = 0 ∧ 1 < bits / normalSignificand then 1 else 2

theorem significand_cases (bits : ℕ) :
    bits < 0x10000000000000 ∧ significand bits = bits ∨
      0x10000000000000 ≤ bits ∧ significand bits = 0x10000000000000 + bits % 0x10000000000000 := by
  unfold significand normalSignificand
  by_cases h : bits < 0x10000000000000
  · rw [if_pos (Nat.div_eq_of_lt h), Nat.mod_eq_of_lt h]
    exact .inl ⟨h, rfl⟩
  · rw [if_neg (by omega)]
    exact .inr ⟨not_lt.mp h, rfl⟩

theorem gapBelow_cases (bits : ℕ) :
    (bits % 0x10000000000000 = 0 ∧ 0x20000000000000 ≤ bits) ∧ gapBelow bits = 1 ∨
      ¬ (bits % 0x10000000000000 = 0 ∧ 0x20000000000000 ≤ bits) ∧ gapBelow bits = 2 := by
  unfold gapBelow normalSignificand
  by_cases h : bits % 0x10000000000000 = 0 ∧ 0x20000000000000 ≤ bits
  · rw [if_pos (by omega)]
    exact .inl ⟨h, rfl⟩
  · rw [if_neg (by omega)]
    exact .inr ⟨h, rfl⟩

namespace Interval

theorem ofBits_eq (bits : ℕ) : ofBits bits =
    { low := (4 * significand bits - gapBelow bits) * 2 ^ (place bits).toNat
      value := 4 * significand bits * 2 ^ (place bits).toNat
      high := (4 * significand bits + 2) * 2 ^ (place bits).toNat
      den := 2 ^ (-place bits).toNat
      closed := significand bits % 2 = 0 } := rfl

theorem quarters_eq (n bits : ℕ) :
    ((n * 2 ^ (place bits).toNat : ℕ) / (2 ^ (-place bits).toNat : ℕ) : ℚ) = n * 2 ^ place bits := by
  rw [zpow_eq_div, mul_div_assoc']
  push_cast
  rfl

theorem bottom_ofBits (bits : ℕ) : (ofBits bits).bottom =
    (4 * significand bits - gapBelow bits : ℕ) * 2 ^ place bits := quarters_eq _ bits

theorem center_ofBits (bits : ℕ) : (ofBits bits).center =
    (4 * significand bits : ℕ) * 2 ^ place bits := quarters_eq _ bits

theorem top_ofBits (bits : ℕ) : (ofBits bits).top =
    (4 * significand bits + 2 : ℕ) * 2 ^ place bits := quarters_eq _ bits

/-- The ends belong to every other interval. -/
theorem closed_ofBits (bits : ℕ) : (ofBits bits).closed = true ↔ bits % 2 = 0 := by
  have parity : significand bits % 2 = bits % 2 := by
    have := significand_cases bits
    omega
  rw [ofBits_eq, decide_eq_true_eq, parity]

/-- The interval of a number begins where that of the number before it ends. -/
theorem top_ofBits_eq_bottom (bits : ℕ) : (ofBits bits).top = (ofBits (bits + 1)).bottom := by
  have adjacent : place (bits + 1) = place bits ∧
      4 * significand bits + 2 = 4 * significand (bits + 1) - gapBelow (bits + 1) ∨
      place (bits + 1) = place bits + 1 ∧
        4 * significand bits + 2 = (4 * significand (bits + 1) - gapBelow (bits + 1)) * 2 := by
    have := significand_cases bits
    have := significand_cases (bits + 1)
    have := gapBelow_cases (bits + 1)
    simp only [place, normalSignificand]
    omega
  rw [top_ofBits, bottom_ofBits]
  rcases adjacent with ⟨place, ends⟩ | ⟨place, ends⟩
  · rw [place, ends]
  · rw [place, ends, zpow_add_one₀ (by norm_num), Nat.cast_mul, mul_assoc, mul_comm _ (2 : ℚ)]
    rfl

theorem significand_pos {bits : ℕ} (hb : 0 < bits) : 0 < significand bits := by
  have := significand_cases bits
  omega

/-- Seventeen digits are finer than the interval. -/
theorem narrow_ofBits (bits : ℕ) :
    (ofBits bits).center < 10 ^ 16 * ((ofBits bits).top - (ofBits bits).bottom) := by
  have width : 4 * significand bits + 10 ^ 16 * (4 * significand bits - gapBelow bits) <
      10 ^ 16 * (4 * significand bits + 2) := by
    have := significand_cases bits
    have := gapBelow_cases bits
    omega
  have weight : (0 : ℚ) < 2 ^ place bits := by positivity
  rw [center_ofBits, top_ofBits, bottom_ofBits, ← sub_mul, ← mul_assoc]
  apply mul_lt_mul_of_pos_right _ weight
  rw [mul_sub, lt_sub_iff_add_lt]
  exact_mod_cast width

theorem proper_ofBits {bits : ℕ} (hb : 0 < bits) : (ofBits bits).Proper := by
  have pos := significand_pos hb
  have gap := gapBelow_cases bits
  refine ⟨?_, ?_, ?_⟩
  · exact Nat.pow_pos (by decide)
  · rw [ofBits_eq]
    exact Nat.mul_lt_mul_of_pos_right (by omega) (Nat.pow_pos (by decide))
  · rw [ofBits_eq]
    exact Nat.mul_lt_mul_of_pos_right (by omega) (Nat.pow_pos (by decide))

theorem bottom_lt_top_ofBits (bits : ℕ) : (ofBits bits).bottom < (ofBits bits).top := by
  have quarters : 4 * significand bits - gapBelow bits < 4 * significand bits + 2 := by omega
  have weight : (0 : ℚ) < 2 ^ place bits := by positivity
  rw [bottom_ofBits, top_ofBits]
  exact mul_lt_mul_of_pos_right (by exact_mod_cast quarters) weight

theorem strictMono_top : StrictMono fun bits => (ofBits bits).top := by
  apply strictMono_nat_of_lt_succ
  intro bits
  rw [top_ofBits_eq_bottom]
  exact bottom_lt_top_ofBits (bits + 1)

/-- Only neighbours have an end in common, and of neighbours not both intervals are closed. -/
theorem not_contains_of_lt {b c : ℕ} (hb : (ofBits b).Contains q) (lt : b < c) :
    ¬ (ofBits c).Contains q := by
  rintro ⟨above, -⟩
  obtain ⟨c, rfl⟩ := Nat.exists_eq_succ_of_ne_zero (Nat.ne_zero_of_lt lt)
  have le : (ofBits b).top ≤ (ofBits c).top := strictMono_top.monotone (Nat.le_of_lt_succ lt)
  rw [Above, ← top_ofBits_eq_bottom] at above
  rcases above with above | ⟨closed, rfl⟩
  · rcases hb.2 with below | ⟨-, rfl⟩
    · linarith
    · linarith
  · rcases hb.2 with below | ⟨closed', ends⟩
    · linarith
    · obtain rfl : b = c := strictMono_top.injective ends
      rw [closed_ofBits] at closed closed'
      omega

/-- No decimal rounds to two numbers. -/
theorem Contains.unique {b c : ℕ} (hb : (ofBits b).Contains q) (hc : (ofBits c).Contains q) :
    b = c := by
  rcases lt_trichotomy b c with lt | rfl | lt
  · exact absurd hc (not_contains_of_lt hb lt)
  · rfl
  · exact absurd hb (not_contains_of_lt hc lt)

theorem contains_shortest_ofBits {bits : ℕ} (hb : 0 < bits) (tie : Tie) :
    (ofBits bits).Contains ((ofBits bits).shortest tie).toRat :=
  contains_shortest (proper_ofBits hb) tie (narrow_ofBits bits)

theorem bottom_ofBits_pos {bits : ℕ} (hb : 0 < bits) : 0 < (ofBits bits).bottom := by
  have quarters : 0 < 4 * significand bits - gapBelow bits := by
    have := significand_pos hb
    have := gapBelow_cases bits
    omega
  rw [bottom_ofBits]
  exact mul_pos (by exact_mod_cast quarters) (by positivity)

end Interval

/-- The bits without the sign. -/
def magnitudeBits (x : Float) : ℕ := x.toBits.toNat % signPlace

theorem shortest_of_zero {x : Float} (h : magnitudeBits x = 0) (tie : Tie) :
    shortest tie x = ⟨0, 0⟩ := if_pos h

theorem shortest_of_pos {x : Float} (h : 0 < magnitudeBits x) (tie : Tie) :
    shortest tie x = (Interval.ofBits (magnitudeBits x)).shortest tie := if_neg h.ne'

theorem shortest_toRat_pos {x : Float} (h : 0 < magnitudeBits x) (tie : Tie) :
    0 < (shortest tie x).toRat := by
  have above := (Interval.contains_shortest_ofBits h tie).1
  have bottom := Interval.bottom_ofBits_pos h
  rw [shortest_of_pos h]
  rcases above with above | ⟨-, ends⟩
  · exact bottom.trans above
  · exact ends ▸ bottom

/-- The shortest decimal tells magnitudes apart. -/
theorem magnitudeBits_eq_of_shortest {x y : Float} {tie : Tie}
    (same : (shortest tie x).toRat = (shortest tie y).toRat) : magnitudeBits x = magnitudeBits y := by
  have zero {z : Float} (h : magnitudeBits z = 0) : (shortest tie z).toRat = 0 := by
    simp [shortest_of_zero h, Scaled.toRat]
  rcases Nat.eq_zero_or_pos (magnitudeBits x) with hx | hx <;>
    rcases Nat.eq_zero_or_pos (magnitudeBits y) with hy | hy
  · rw [hx, hy]
  · exact absurd (same.symm.trans (zero hx)) (shortest_toRat_pos hy tie).ne'
  · exact absurd (same.trans (zero hy)) (shortest_toRat_pos hx tie).ne'
  · have inside := Interval.contains_shortest_ofBits hx tie
    rw [← shortest_of_pos hx, same, shortest_of_pos hy] at inside
    exact inside.unique (Interval.contains_shortest_ofBits hy tie)

end FactFormula.Decimal
