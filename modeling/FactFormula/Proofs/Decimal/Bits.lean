import Mathlib.Algebra.Group.Nat.Defs

/-!
Floats by their bits: what they unpack to. What unpacks to one number has one pattern of bits, so
floats that compare equal are the same, but for the two zeros.
-/
namespace FactFormula.Decimal
open Float.Model Float.Model.UnpackedFloat

/-- Floats have nothing but their bits. -/
theorem toBits_inj {x y : Float} : x.toBits = y.toBits ↔ x = y := by
  constructor
  · intro bits
    obtain ⟨⟨b, _⟩⟩ := x
    obtain ⟨⟨c, _⟩⟩ := y
    obtain rfl : b = c := bits
    rfl
  · intro same
    rw [same]

section Unpacked

variable {u v : UnpackedFloat}

/-- The bits of a number other than zero, without its sign. -/
def packedMagnitude (m : Nat) (e : Int) : Nat :=
  if m < 2 ^ 52 then m else (e + 1075).toNat * 2 ^ 52 + m - 2 ^ 52

/-- The bits that a number is unpacked from. -/
def packedBits : UnpackedFloat → Nat
  | .zero s => s.toBitVec.toNat * 2 ^ 63
  | .infinity s => s.toBitVec.toNat * 2 ^ 63 + 2047 * 2 ^ 52
  | .finite s m e _ => s.toBitVec.toNat * 2 ^ 63 + packedMagnitude m e
  | .notANumber => 0

/-- The exponent and the mantissa decide what kind of number is unpacked. -/
inductive Unpacks (b : BitVec Format.binary64.numBits) : UnpackedFloat → Prop where
  | infinity (top : unpackExponent b = -1#11) (whole : unpackMantissa b = 0#52) :
    Unpacks b (.infinity (.ofBitVec (unpackSign b)))
  | notANumber (top : unpackExponent b = -1#11) (part : unpackMantissa b ≠ 0#52) :
    Unpacks b .notANumber
  | zero (least : unpackExponent b = 0#11) (whole : unpackMantissa b = 0#52) :
    Unpacks b (.zero (.ofBitVec (unpackSign b)))
  | subnormal (least : unpackExponent b = 0#11) (pos : 0 < (unpackMantissa b).toNat) :
    Unpacks b (.finite (.ofBitVec (unpackSign b)) (unpackMantissa b).toNat (-1074) pos)
  | normal (proper : unpackExponent b ≠ -1#11) (large : unpackExponent b ≠ 0#11)
    (pos : 0 < (1#1 ++ unpackMantissa b).toNat) :
    Unpacks b (.finite (.ofBitVec (unpackSign b)) (1#1 ++ unpackMantissa b).toNat
      ((unpackExponent b).toNat - 1075) pos)

theorem unpacks (b : BitVec Format.binary64.numBits) :
    Unpacks b (UnpackedFloat.unpack .binary64 b) := by
  delta UnpackedFloat.unpack
  dsimp only
  by_cases top : unpackExponent b = -1#11
  · rw [if_pos top]
    by_cases whole : unpackMantissa b = 0#52
    · rw [if_pos whole]
      exact .infinity top whole
    · rw [if_neg whole]
      exact .notANumber top whole
  · rw [if_neg top]
    by_cases least : unpackExponent b = 0#11
    · rw [if_pos least]
      by_cases whole : unpackMantissa b = 0#52
      · rw [dif_pos whole]
        exact .zero least whole
      · have exponent : ((unpackExponent b).toNat : Int) -
            (Format.binary64.exponentBias + (52 : Nat)) + 1 = -1074 := by
          rw [least]
          rfl
        rw [dif_neg whole, exponent]
        exact .subnormal least _
    · rw [if_neg least]
      exact .normal top least _

theorem toNat_eq_parts (b : BitVec Format.binary64.numBits) :
    b.toNat = (unpackSign b).toNat * 2 ^ 63 + (unpackExponent b).toNat * 2 ^ 52 +
      (unpackMantissa b).toNat := by
  have bound : b.toNat < 2 ^ 64 := b.isLt
  have sign : (unpackSign b).toNat = b.toNat / 2 ^ 63 % 2 := by
    show b.toNat >>> 63 % 2 = _
    rw [Nat.shiftRight_eq_div_pow]
  have exponent : (unpackExponent b).toNat = b.toNat / 2 ^ 52 % 2 ^ 11 := by
    show b.toNat >>> 52 % 2 ^ 11 = _
    rw [Nat.shiftRight_eq_div_pow]
  have mantissa : (unpackMantissa b).toNat = b.toNat % 2 ^ 52 := by
    show b.toNat >>> 0 % 2 ^ 52 = _
    rw [Nat.shiftRight_zero]
  omega

theorem packedBits_unpack (b : BitVec Format.binary64.numBits)
    (number : UnpackedFloat.unpack .binary64 b ≠ .notANumber) :
    packedBits (UnpackedFloat.unpack .binary64 b) = b.toNat := by
  have sign : ∀ v : BitVec 1, (Sign.ofBitVec v).toBitVec = v := by decide
  have bound : (unpackMantissa b).toNat < 2 ^ 52 := (unpackMantissa b).isLt
  have parts := toNat_eq_parts b
  have kind := unpacks b
  generalize UnpackedFloat.unpack .binary64 b = u at number kind
  cases kind with
  | infinity top whole =>
    show (Sign.ofBitVec (unpackSign b)).toBitVec.toNat * 2 ^ 63 + 2047 * 2 ^ 52 = _
    rw [sign, parts, top, whole]
    simp
  | notANumber => exact absurd rfl number
  | zero least whole =>
    show (Sign.ofBitVec (unpackSign b)).toBitVec.toNat * 2 ^ 63 = _
    rw [sign, parts, least, whole]
    simp
  | subnormal least pos =>
    show (Sign.ofBitVec (unpackSign b)).toBitVec.toNat * 2 ^ 63 + packedMagnitude _ _ = _
    rw [sign, packedMagnitude, if_pos bound, parts, least]
    simp
  | normal proper large pos =>
    have implicit : (1#1 ++ unpackMantissa b).toNat = 2 ^ 52 + (unpackMantissa b).toNat := by
      rw [BitVec.toNat_append]
      exact (Nat.two_pow_add_eq_or_of_lt bound 1).symm
    show (Sign.ofBitVec (unpackSign b)).toBitVec.toNat * 2 ^ 63 + packedMagnitude _ _ = _
    rw [sign, packedMagnitude, implicit, if_neg (by omega), Int.sub_add_cancel, Int.toNat_natCast]
    omega

theorem eq_of_compare_sign {s t : Sign} (equal : compare s t = .eq) : s = t := by
  cases s <;> cases t <;> first | rfl | cases equal

/-- Numbers with one sign are equal if their exponents and their mantissas are. -/
theorem finite_eq_of_compare {s : Sign} {m n : Nat} {d e : Int} {pos : 0 < m} {pos' : 0 < n}
    (equal : (compare d e).then (compare m n) = .eq) :
    UnpackedFloat.finite s m d pos = .finite s n e pos' := by
  obtain ⟨exponents, mantissas⟩ := Ordering.then_eq_eq.mp equal
  obtain rfl := Int.compare_eq_eq.mp exponents
  obtain rfl := Nat.compare_eq_eq.mp mantissas
  rfl

theorem eq_or_zeros_of_beq (equal : u.beq v = true) :
    u ≠ .notANumber ∧ (u = v ∨ ∃ s t, u = .zero s ∧ v = .zero t) := by
  have equal : u.compare v = some .eq := beq_iff_eq.mp equal
  cases u with
  | notANumber => cases equal
  | infinity s =>
    cases v with
    | infinity t =>
      have signs : s = t := eq_of_compare_sign (Option.some.inj equal)
      exact ⟨nofun, .inl (congrArg _ signs)⟩
    | zero | finite => cases s <;> cases equal
    | notANumber => cases equal
  | zero s =>
    cases v with
    | zero t => exact ⟨nofun, .inr ⟨s, t, rfl, rfl⟩⟩
    | infinity t | finite t => cases t <;> cases equal
    | notANumber => cases equal
  | finite s m d pos =>
    cases v with
    | finite t n e pos' =>
      refine ⟨nofun, .inl ?_⟩
      cases s <;> cases t
      case negative.negative =>
        exact finite_eq_of_compare (Ordering.swap_eq_eq.mp (Option.some.inj equal))
      case positive.positive => exact finite_eq_of_compare (Option.some.inj equal)
      all_goals cases equal
    | infinity t => cases t <;> cases equal
    | zero => cases s <;> cases equal
    | notANumber => cases equal

end Unpacked

section Floats

variable {x y : Float}

theorem eq_of_unpack (number : x.toModel.unpack ≠ .notANumber)
    (same : x.toModel.unpack = y.toModel.unpack) : x = y := by
  have number' : y.toModel.unpack ≠ .notANumber := same ▸ number
  have bits : x.toBits.toBitVec.toNat = y.toBits.toBitVec.toNat := by
    rw [← packedBits_unpack x.toBits.toBitVec number, ← packedBits_unpack y.toBits.toBitVec number']
    exact congrArg packedBits same
  exact toBits_inj.mp (UInt64.toNat_inj.mp bits)

theorem eq_zero_of_unpack {s : Sign} (zero : x.toModel.unpack = .zero s) : x = 0 ∨ x = -0 := by
  have positive : (0 : Float).toModel.unpack = .zero .positive := rfl
  have negative : (-0 : Float).toModel.unpack = .zero .negative := rfl
  have number : x.toModel.unpack ≠ .notANumber := by simp [zero]
  cases s with
  | positive => exact .inl (eq_of_unpack number (zero.trans positive.symm))
  | negative => exact .inr (eq_of_unpack number (zero.trans negative.symm))

/-- Floats that are equal as numbers are the same, or the zeros of the two signs. -/
theorem eq_or_opposite_of_beq (equal : (x == y) = true) :
    x = y ∨ (x = 0 ∧ y = -0) ∨ (x = -0 ∧ y = 0) := by
  obtain ⟨number, same | ⟨s, t, left, right⟩⟩ := eq_or_zeros_of_beq equal
  · exact .inl (eq_of_unpack number same)
  · rcases eq_zero_of_unpack left with rfl | rfl <;>
      rcases eq_zero_of_unpack right with rfl | rfl <;> simp

/-- As numbers, zero equals itself and the zero of the other sign. -/
theorem beq_zero_iff (y : Float) : (y == 0) = true ↔ y = 0 ∨ y = -0 := by
  constructor
  · intro equal
    rcases eq_or_opposite_of_beq equal with zero | ⟨zero, -⟩ | ⟨zero, -⟩
    · exact .inl zero
    · exact .inl zero
    · exact .inr zero
  · intro zero
    rcases zero with rfl | rfl <;> decide +kernel

end Floats

end FactFormula.Decimal
