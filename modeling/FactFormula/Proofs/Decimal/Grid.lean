import Mathlib.Algebra.Order.Field.Power
import Mathlib.Tactic.FieldSimp
import Mathlib.Tactic.Linarith
import Mathlib.Tactic.NormNum
import Mathlib.Tactic.Positivity
import Mathlib.Tactic.SplitIfs
import FactFormula.Decimal.Shortest

/-!
Hits of decimal grids. A hit on a grid lies in the interval, a grid finer than the interval has
one, and where seventeen digits are fine enough the shortest decimal lies in the interval.
-/
namespace FactFormula.Decimal

/-- The rational number that a scaled decimal stands for. -/
def Scaled.toRat (d : Scaled) : ℚ := d.coefficient * 10 ^ d.exponent

/-- One of the two powers is `1`. -/
theorem zpow_eq_div (b : ℚ) (e : ℤ) : b ^ e = b ^ e.toNat / b ^ (-e).toNat := by
  rcases le_total 0 e with h | h
  · obtain ⟨n, rfl⟩ := Int.eq_ofNat_of_zero_le h
    simp
  · obtain ⟨n, hn⟩ := Int.eq_ofNat_of_zero_le (neg_nonneg.mpr h)
    obtain rfl : e = -n := by omega
    simp

section Grid

variable {m n den : ℕ}

/-- The comparison of a quotient with a multiple of a power of ten, in natural numbers. -/
theorem div_lt_grid_iff (hd : 0 < den) (e : ℤ) :
    (m / den : ℚ) < n * 10 ^ e ↔ m * 10 ^ (-e).toNat < n * (den * 10 ^ e.toNat) := by
  have hden : (0 : ℚ) < den := by exact_mod_cast hd
  have hup : (0 : ℚ) < 10 ^ (-e).toNat := by positivity
  rw [zpow_eq_div, mul_div_assoc', div_lt_div_iff₀ hden hup, mul_assoc (n : ℚ),
    mul_comm _ (den : ℚ)]
  norm_cast

theorem grid_lt_div_iff (hd : 0 < den) (e : ℤ) :
    (n * 10 ^ e : ℚ) < m / den ↔ n * (den * 10 ^ e.toNat) < m * 10 ^ (-e).toNat := by
  have hden : (0 : ℚ) < den := by exact_mod_cast hd
  have hup : (0 : ℚ) < 10 ^ (-e).toNat := by positivity
  rw [zpow_eq_div, mul_div_assoc', div_lt_div_iff₀ hup hden, mul_assoc (n : ℚ),
    mul_comm _ (den : ℚ)]
  norm_cast

theorem div_eq_grid_iff (hd : 0 < den) (e : ℤ) :
    (m / den : ℚ) = n * 10 ^ e ↔ m * 10 ^ (-e).toNat = n * (den * 10 ^ e.toNat) := by
  rw [eq_iff_le_not_lt, ← not_lt, div_lt_grid_iff hd, grid_lt_div_iff hd]
  omega

end Grid

namespace Interval

variable {v : Interval} {tie : Tie} {e : ℤ} {q : ℚ}

def bottom (v : Interval) : ℚ := v.low / v.den

def center (v : Interval) : ℚ := v.value / v.den

def top (v : Interval) : ℚ := v.high / v.den

/-- The decimal is not too small to round to the number. -/
def Above (v : Interval) (q : ℚ) : Prop := v.bottom < q ∨ v.closed = true ∧ v.bottom = q

/-- The decimal is not too great to round to the number. -/
def Below (v : Interval) (q : ℚ) : Prop := q < v.top ∨ v.closed = true ∧ v.top = q

/-- The decimal rounds to the number. -/
def Contains (v : Interval) (q : ℚ) : Prop := v.Above q ∧ v.Below q

/-- The number lies inside its interval. -/
structure Proper (v : Interval) : Prop where
  den_pos : 0 < v.den
  low_lt : v.low < v.value
  lt_high : v.value < v.high

/-- The greatest multiple of `10 ^ e` that does not exceed the number, as a multiple. -/
def gridFloor (v : Interval) (e : ℤ) : ℕ :=
  v.value * 10 ^ (-e).toNat / (v.den * 10 ^ e.toNat)

theorem above_grid_iff (hd : 0 < v.den) (n : ℕ) (e : ℤ) :
    v.Above (n * 10 ^ e) ↔ v.low * 10 ^ (-e).toNat < n * (v.den * 10 ^ e.toNat) ∨
      v.closed = true ∧ v.low * 10 ^ (-e).toNat = n * (v.den * 10 ^ e.toNat) := by
  rw [Above, bottom, div_lt_grid_iff hd, div_eq_grid_iff hd]

theorem below_grid_iff (hd : 0 < v.den) (n : ℕ) (e : ℤ) :
    v.Below (n * 10 ^ e) ↔ n * (v.den * 10 ^ e.toNat) < v.high * 10 ^ (-e).toNat ∨
      v.closed = true ∧ n * (v.den * 10 ^ e.toNat) = v.high * 10 ^ (-e).toNat := by
  rw [Below, top, grid_lt_div_iff hd, div_eq_grid_iff hd, eq_comm (a := v.high * _)]

/-- A hit on the grid is one of the two neighbours of the number, and it is on the right side of
the end next to it. -/
theorem onGrid_eq_some (hd : 0 < v.den) {n : ℕ} (h : v.onGrid tie e = some n) :
    n = v.gridFloor e ∧ v.Above (n * 10 ^ e) ∨ n = v.gridFloor e + 1 ∧ v.Below (n * 10 ^ e) := by
  have floor : v.value * 10 ^ (-e).toNat / (v.den * 10 ^ e.toNat) = v.gridFloor e := rfl
  rw [above_grid_iff hd, below_grid_iff hd]
  unfold onGrid at h
  simp only [Nat.pow_eq, floor] at h
  split at h
  · rename_i above _
    obtain rfl := Option.some.inj h
    exact .inl ⟨rfl, by simpa using above⟩
  · rename_i _ below
    obtain rfl := Option.some.inj h
    exact .inr ⟨rfl, by simpa using below⟩
  · cases h
  · rename_i above below
    have two : n = v.gridFloor e ∨ n = v.gridFloor e + 1 := by
      split at h <;> grind
    rcases two with rfl | rfl
    · exact .inl ⟨rfl, by simpa using above⟩
    · exact .inr ⟨rfl, by simpa using below⟩

/-- There is a hit as soon as one of the neighbours is on the right side. -/
theorem exists_onGrid (hd : 0 < v.den) (tie : Tie)
    (h : v.Above (v.gridFloor e * 10 ^ e) ∨ v.Below ((v.gridFloor e + 1 : ℕ) * 10 ^ e)) :
    ∃ n, v.onGrid tie e = some n := by
  have floor : v.value * 10 ^ (-e).toNat / (v.den * 10 ^ e.toNat) = v.gridFloor e := rfl
  rw [above_grid_iff hd, below_grid_iff hd] at h
  unfold onGrid
  simp only [Nat.pow_eq, floor]
  split
  · exact ⟨_, rfl⟩
  · exact ⟨_, rfl⟩
  · rename_i above below
    simp only [Bool.or_eq_false_iff, Bool.and_eq_false_imp, decide_eq_false_iff_not] at above below
    grind
  · split
    · exact ⟨_, rfl⟩
    · exact ⟨_, rfl⟩
    · split <;> exact ⟨_, rfl⟩

theorem gridFloor_le (hd : 0 < v.den) (e : ℤ) : (v.gridFloor e * 10 ^ e : ℚ) ≤ v.center := by
  rw [center, ← not_lt, div_lt_grid_iff hd, not_lt]
  exact Nat.div_mul_le_self _ _

theorem lt_gridFloor_succ (hd : 0 < v.den) (e : ℤ) :
    v.center < (v.gridFloor e + 1 : ℕ) * 10 ^ e := by
  have step : 0 < v.den * 10 ^ e.toNat := Nat.mul_pos hd (by positivity)
  rw [center, div_lt_grid_iff hd, mul_comm (v.gridFloor e + 1)]
  exact Nat.lt_mul_div_succ _ step

namespace Proper

theorem bottom_lt (proper : v.Proper) : v.bottom < v.center := by
  have den : (0 : ℚ) < v.den := by exact_mod_cast proper.den_pos
  have low : (v.low : ℚ) < v.value := by exact_mod_cast proper.low_lt
  exact div_lt_div_of_pos_right low den

theorem lt_top (proper : v.Proper) : v.center < v.top := by
  have den : (0 : ℚ) < v.den := by exact_mod_cast proper.den_pos
  have high : (v.value : ℚ) < v.high := by exact_mod_cast proper.lt_high
  exact div_lt_div_of_pos_right high den

/-- A hit on the grid rounds to the number. -/
theorem contains_of_onGrid (proper : v.Proper) {n : ℕ} (h : v.onGrid tie e = some n) :
    v.Contains (n * 10 ^ e) := by
  rcases onGrid_eq_some proper.den_pos h with ⟨rfl, above⟩ | ⟨rfl, below⟩
  · exact ⟨above, .inl ((gridFloor_le proper.den_pos e).trans_lt proper.lt_top)⟩
  · exact ⟨.inl (proper.bottom_lt.trans (lt_gridFloor_succ proper.den_pos e)), below⟩

/-- A grid that is finer than the interval is wide has a hit. -/
theorem exists_onGrid (proper : v.Proper) (tie : Tie) (fine : (10 : ℚ) ^ e < v.top - v.bottom) :
    ∃ n, v.onGrid tie e = some n := by
  apply Interval.exists_onGrid proper.den_pos
  by_contra none
  obtain ⟨above, below⟩ := not_or.mp none
  have low : (v.gridFloor e * 10 ^ e : ℚ) ≤ v.bottom := not_lt.mp fun h => above (.inl h)
  have high : v.top ≤ (v.gridFloor e + 1 : ℕ) * 10 ^ e := not_lt.mp fun h => below (.inl h)
  push_cast at high
  linarith

end Proper

theorem pow_digitCount_le {n : ℕ} (hn : 0 < n) : 10 ^ (digitCount n - 1) ≤ n := by
  by_contra h
  have none : digitCount n - 1 ≠ 0 := by
    intro single
    rw [single] at h
    omega
  have count : digitCount n ≤ digitCount n - 1 :=
    (Nat.length_toDigits_le_iff (by decide) (Nat.pos_of_ne_zero none)).mpr (not_le.mp h)
  omega

theorem lt_pow_digitCount (n : ℕ) : n < 10 ^ digitCount n :=
  (Nat.length_toDigits_le_iff (by decide) Nat.length_toDigits_pos).mp le_rfl

/-- The leading digit of the number has a weight that does not exceed the number. -/
theorem pow_leadingExponent_le (hd : 0 < v.den) (hv : 0 < v.value) :
    (10 : ℚ) ^ v.leadingExponent ≤ v.center := by
  have den : (0 : ℚ) < v.den := by exact_mod_cast hd
  rw [leadingExponent, center, le_div_iff₀ den]
  split_ifs with large
  · have quotient : 0 < v.value / v.den := Nat.div_pos large hd
    have count : 1 ≤ digitCount (v.value / v.den) := Nat.length_toDigits_pos
    have whole : 10 ^ (digitCount (v.value / v.den) - 1) * v.den ≤ v.value :=
      (Nat.mul_le_mul_right _ (pow_digitCount_le quotient)).trans (Nat.div_mul_le_self _ _)
    rw [← Nat.cast_one, ← Nat.cast_sub count, zpow_natCast]
    exact_mod_cast whole
  · have small : v.den ≤ v.value * 10 ^ digitCount ((v.den - 1) / v.value) := by
      have := (Nat.div_lt_iff_lt_mul hv).mp (lt_pow_digitCount ((v.den - 1) / v.value))
      rw [mul_comm]
      omega
    rw [zpow_neg, zpow_natCast, inv_mul_le_iff₀ (by positivity), mul_comm]
    exact_mod_cast small

/-- On the grid of the seventeenth digit. -/
theorem exists_onGrid_last (proper : v.Proper) (tie : Tie)
    (narrow : v.center < 10 ^ 16 * (v.top - v.bottom)) :
    ∃ n, v.onGrid tie (v.leadingExponent - 16) = some n := by
  apply proper.exists_onGrid
  have lead := pow_leadingExponent_le proper.den_pos (Nat.zero_lt_of_lt proper.low_lt)
  rw [zpow_sub₀ (by norm_num), div_lt_iff₀ (by norm_num), mul_comm]
  exact lead.trans_lt (by exact_mod_cast narrow)

/-- The shortest decimal rounds to the number. -/
theorem contains_shortest (proper : v.Proper) (tie : Tie)
    (narrow : v.center < 10 ^ 16 * (v.top - v.bottom)) : v.Contains (v.shortest tie).toRat := by
  obtain ⟨n, hit⟩ := exists_onGrid_last proper tie narrow
  unfold shortest
  simp only
  generalize found : List.findSome? _ (List.range 17) = result
  cases result with
  | none =>
    have none := List.findSome?_eq_none_iff.mp found 16 (by decide)
    simp [hit] at none
  | some d =>
    obtain ⟨k, -, hd⟩ := List.exists_of_findSome?_eq_some found
    obtain ⟨m, hm, rfl⟩ := Option.map_eq_some_iff.mp hd
    exact proper.contains_of_onGrid hm

end Interval

end FactFormula.Decimal
