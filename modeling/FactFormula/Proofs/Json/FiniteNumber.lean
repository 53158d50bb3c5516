import FactFormula.Json.Reader
import FactFormula.Proofs.Decimal.Overflow
import FactFormula.Proofs.Json.NumberText

/-!
Every number that is read is finite. A significand has 64 bits and is far from overflowing; negative
powers of ten only make it smaller, and what overflows under a positive one is refused.
-/
namespace FactFormula.Json
open Decimal

theorem appendDigits_lt {m : Nat} (h : m < significandLimit) (s : List Char) :
    (appendDigits m s).1 < significandLimit := by
  induction s generalizing m with
  | nil => exact h
  | cons c s ih =>
    simp only [appendDigits]
    split
    · exact ih ‹_›
    · exact h

section Scaling

variable {x : Float}

/-- The powers of ten that occur are finite, and none is less than one. -/
theorem powerOfTen_lastPlaceGe :
    ∀ n : Fin 309, LastPlaceGe (-52) (powerOfTen n).toModel.unpack := by decide +kernel

theorem greatestPower_lastPlaceGe : LastPlaceGe 971 (powerOfTen 308).toModel.unpack := by
  decide +kernel

theorem small_divideOften (h : Small 200 x) (n : Nat) : Small 200 (divideOften x n) := by
  induction n generalizing x with
  | zero => exact h
  | succ n ih =>
    simp only [divideOften]
    split
    · exact h
    · have quotient := h.div greatestPower_lastPlaceGe (by decide) (by decide)
      exact ih (quotient.mono (by decide))

theorem divideByPower_isFinite (h : Small 200 x) (n : Nat) :
    (divideByPower x n).isFinite = true := by
  have bound : n % 308 < 309 := by omega
  have quotient := (small_divideOften h (n / 308)).div (powerOfTen_lastPlaceGe ⟨n % 308, bound⟩)
    (by decide) (by decide)
  exact quotient.isFinite

theorem isFinite_of_scale? {m : Nat} {e : Int} (bits : m < significandLimit)
    (h : scale? m e = some x) : x.isFinite = true := by
  have small : Small 200 (Float.ofNat m) := small_ofNat bits
  simp only [scale?] at h
  split_ifs at h with negative moderate infinite zero
  · cases h
    exact divideByPower_isFinite small e.natAbs
  · cases h
    have bound : e.natAbs < 309 := by omega
    have power := powerOfTen_lastPlaceGe ⟨e.natAbs, bound⟩
    exact isFinite_mul_of_isInf_eq_false small.isFinite power.isFinite
      (Bool.not_eq_true _ ▸ infinite)
  · cases h
    exact small.isFinite

theorem isFinite_signed (negative : Bool) (h : x.isFinite = true) :
    (signed negative x).isFinite = true := by
  cases negative with
  | false => exact h
  | true => exact isFinite_neg h

end Scaling

section Reading

variable {m : Significand} {n : Number} {negative : Bool} {s t : List Char}

theorem Significand.finish_isFinite {e : Int} (bits : m.value < significandLimit)
    (h : m.finish e s = .ok (n, t)) : n.toFloat.isFinite = true := by
  unfold finish at h
  split at h
  · rename_i x scaled
    cases h
    exact isFinite_signed m.negative (isFinite_of_scale? bits scaled)
  · cases h

theorem Significand.exponentPart_isFinite (bits : m.value < significandLimit)
    (h : m.exponentPart s = .ok (n, t)) : n.toFloat.isFinite = true := by
  obtain ⟨below, c, u, -, -, comes, -⟩ := exponentPart_eq_ok_iff.mp h
  cases value : (exponentValue 0 (c :: u)).1 with
  | some e => exact finish_isFinite bits (value ▸ comes)
  | none =>
    obtain ⟨-, rfl⟩ := value ▸ comes
    exact isFinite_signed m.negative (by decide +kernel)

theorem Significand.tail_isFinite (bits : m.value < significandLimit)
    (h : m.tail s = .ok (n, t)) : n.toFloat.isFinite = true := by
  unfold tail at h
  split at h
  · exact finish_isFinite bits h
  · split at h
    · exact exponentPart_isFinite bits h
    · exact finish_isFinite bits h

theorem Significand.fractionPart_isFinite (bits : m.value < significandLimit)
    (h : m.fractionPart s = .ok (n, t)) : n.toFloat.isFinite = true := by
  unfold fractionPart at h
  simp only at h
  split at h
  · cases h
  · exact tail_isFinite (appendDigits_lt bits (digits s)) h

theorem whole_isFinite {k : Nat} (bits : k < significandLimit) :
    (whole negative k).toFloat.isFinite = true := by
  have small : Small 200 (Float.ofNat k) := small_ofNat bits
  cases negative with
  | false => exact small.isFinite
  | true =>
    simp only [whole, if_true]
    split
    · exact isFinite_neg small.isFinite
    · cases k with
      | zero => exact small.isFinite
      | succ k => exact isFinite_neg small.isFinite

theorem magnitude_isFinite (h : magnitude negative s = .ok (n, t)) : n.toFloat.isFinite = true := by
  have bits : (appendDigits 0 (digits s)).1 < significandLimit := appendDigits_lt (by decide) _
  by_cases point : (afterDigits s).head? = some '.'
  · obtain ⟨u, hu⟩ := List.head?_eq_some_iff.mp point
    rw [magnitude_of_point negative hu] at h
    exact Significand.fractionPart_isFinite bits h
  · rw [magnitude_of_no_point negative point] at h
    split at h
    · cases h
      exact whole_isFinite bits
    · exact Significand.tail_isFinite bits h

theorem unsignedNumber_isFinite (h : unsignedNumber negative s = .ok (n, t)) :
    n.toFloat.isFinite = true := by
  cases s with
  | nil => cases h
  | cons c s => exact magnitude_isFinite (unsignedNumber_cons_eq_ok_iff.mp h).2.2

theorem readNumber_isFinite (h : readNumber s = .ok (n, t)) : n.toFloat.isFinite = true := by
  unfold readNumber at h
  split at h <;> exact unsignedNumber_isFinite h

end Reading

end FactFormula.Json
