import Mathlib.Data.Int.Order.Basic
import FactFormula.Proofs.Decimal.Bits

/-!
How far products and quotients of floats are from overflowing. The weight of the last place of a
result is bounded by the weights of its operands; the bounds are not sharp, and need not be, as
long as they stay below the greatest weight that a float can have.
-/
namespace FactFormula.Decimal
open Float.Model Float.Model.UnpackedFloat

/-- Zero, or a number whose last place weighs at most `2 ^ k`. -/
inductive LastPlaceLe (k : Int) : UnpackedFloat → Prop where
  | zero (s : Sign) : LastPlaceLe k (.zero s)
  | finite {s : Sign} {m : Nat} {e : Int} {pos : 0 < m} (le : e ≤ k) :
      LastPlaceLe k (.finite s m e pos)

/-- A number other than zero whose last place weighs at least `2 ^ k`. -/
inductive LastPlaceGe (k : Int) : UnpackedFloat → Prop where
  | finite {s : Sign} {m : Nat} {e : Int} {pos : 0 < m} (ge : k ≤ e) :
      LastPlaceGe k (.finite s m e pos)

/-- The mantissa has `n` bits at most. -/
def HasBits (n : Nat) (u : UnpackedFloat) : Prop :=
  ∀ s m e pos, u = .finite s m e pos → m < 2 ^ n

variable {u v : UnpackedFloat} {k l : Int}

theorem lastPlaceLe_finite_iff {s : Sign} {m : Nat} {e : Int} {pos : 0 < m} :
    LastPlaceLe k (.finite s m e pos) ↔ e ≤ k :=
  ⟨fun | .finite le => le, .finite⟩

theorem lastPlaceGe_finite_iff {s : Sign} {m : Nat} {e : Int} {pos : 0 < m} :
    LastPlaceGe k (.finite s m e pos) ↔ k ≤ e :=
  ⟨fun | .finite ge => ge, .finite⟩

instance : DecidablePred (LastPlaceLe k)
  | .zero s => .isTrue (.zero s)
  | .finite .. => decidable_of_iff' _ lastPlaceLe_finite_iff
  | .infinity _ | .notANumber => .isFalse nofun

instance : DecidablePred (LastPlaceGe k)
  | .finite .. => decidable_of_iff' _ lastPlaceGe_finite_iff
  | .zero _ | .infinity _ | .notANumber => .isFalse nofun

theorem LastPlaceLe.mono (h : LastPlaceLe k u) (hkl : k ≤ l) : LastPlaceLe l u := by
  cases h with
  | zero s => exact .zero s
  | finite le => exact .finite (Int.le_trans le hkl)

theorem LastPlaceLe.isFinite (h : LastPlaceLe k u) : u.isFinite = true := by
  cases h <;> rfl

theorem LastPlaceGe.isFinite (h : LastPlaceGe k u) : u.isFinite = true := by
  cases h
  rfl

section Rounding

theorem mantissa_shiftRight_le (em : ExtendedMantissa) (n : Nat) :
    (em >>> n).mantissa ≤ em.mantissa := by
  induction n with
  | zero => exact Nat.le_refl _
  | succ n ih => exact Nat.le_trans (Nat.div_le_self _ 2) ih

theorem mantissa_ofMantissaAndAccuracy (m : Nat) (accuracy : Accuracy) :
    (ExtendedMantissa.ofMantissaAndAccuracy m accuracy).mantissa = m := by
  match accuracy with
  | .exact | .inexact .lt | .inexact .eq | .inexact .gt => rfl

theorem roundToNearestEven_le (m : Nat) (accuracy : Accuracy) :
    accuracy.roundToNearestEven m ≤ m + 1 := by
  match accuracy with
  | .exact | .inexact .lt => exact Nat.le_succ m
  | .inexact .eq =>
    have : m % 2 < 2 := Nat.mod_lt m (by decide)
    simp only [Accuracy.roundToNearestEven]
    omega
  | .inexact .gt => exact Nat.le_refl _

theorem mantissaBits_binary64 : Format.binary64.mantissaBits = 53 := by decide

/-- The weight of the last place is raised until the mantissa fits its bits. -/
theorem shiftToTargetExponent_snd_le {m n : Nat} {e : Int} (accuracy : Accuracy)
    (bits : m < 2 ^ n) (hn : 53 ≤ n) (he : e ≤ k) (hk : -1074 ≤ k) :
    (shiftToTargetExponent .binary64 m e accuracy).2 ≤ k + n - 53 := by
  have log : m.log2 < n := by
    rcases Nat.eq_zero_or_pos m with rfl | pos
    · exact Nat.lt_of_lt_of_le (by decide) hn
    · exact (Nat.log2_lt (Nat.ne_of_gt pos)).mpr bits
  have least : Format.binary64.minExponent = -1074 := by decide
  simp only [shiftToTargetExponent, shiftToExponent, Format.targetExponent, totalExponent, least,
    mantissaBits_binary64]
  omega

theorem shiftToTargetExponent_mantissa_le (m : Nat) (e : Int) (accuracy : Accuracy) :
    (shiftToTargetExponent .binary64 m e accuracy).1.mantissa ≤ m := by
  have shifted := mantissa_shiftRight_le (.ofMantissaAndAccuracy m accuracy)
    (Format.binary64.targetExponent (totalExponent m e) - e).toNat
  rwa [mantissa_ofMantissaAndAccuracy] at shifted

/-- Rounding shifts twice, since it may make the mantissa one bit longer. -/
theorem roundWithAccuracy_eq_zero_or_finite (s : Sign) {m : Nat} {e : Int} {accuracy : Accuracy}
    {first second : ExtendedMantissa × Int}
    (shift : shiftToTargetExponent .binary64 m e accuracy = first)
    (again : shiftToTargetExponent .binary64 first.1.roundedMantissa first.2 .exact = second) :
    roundWithAccuracy .binary64 s m e accuracy = .zero s ∨
      ∃ pos, roundWithAccuracy .binary64 s m e accuracy =
        .finite s second.1.mantissa second.2 pos := by
  rcases Nat.eq_zero_or_pos second.1.mantissa with nothing | pos
  · subst shift again
    exact .inl (dif_pos nothing)
  · subst shift again
    exact .inr ⟨pos, dif_neg (Nat.ne_of_gt pos)⟩

theorem roundWithAccuracy_lastPlaceLe (s : Sign) {m n : Nat} {e : Int} (accuracy : Accuracy)
    (bits : m < 2 ^ n) (hn : 53 ≤ n) (he : e ≤ k) (hk : -1074 ≤ k) :
    LastPlaceLe (k + 2 * n - 105) (roundWithAccuracy .binary64 s m e accuracy) := by
  have shifted := shiftToTargetExponent_snd_le accuracy bits hn he hk
  have small := shiftToTargetExponent_mantissa_le m e accuracy
  obtain ⟨first, shift⟩ : ∃ first, shiftToTargetExponent .binary64 m e accuracy = first := ⟨_, rfl⟩
  rw [shift] at shifted small
  have rounded : first.1.roundedMantissa < 2 ^ (n + 1) := by
    have := roundToNearestEven_le first.1.mantissa first.1.accuracy
    rw [Nat.pow_succ]
    unfold ExtendedMantissa.roundedMantissa
    omega
  have shiftedAgain := shiftToTargetExponent_snd_le .exact rounded (by omega) shifted (by omega)
  rcases roundWithAccuracy_eq_zero_or_finite s shift rfl with zero | ⟨pos, finite⟩
  · rw [zero]
    exact .zero s
  · rw [finite]
    exact .finite (by omega)

theorem isFinite_roundWithAccuracy (s : Sign) (m : Nat) (e : Int) (accuracy : Accuracy) :
    (roundWithAccuracy .binary64 s m e accuracy).isFinite = true := by
  rcases roundWithAccuracy_eq_zero_or_finite s rfl rfl with zero | ⟨pos, finite⟩
  · rw [zero]
    rfl
  · rw [finite]
    rfl

/-- A whole number is first shifted the other way, to have bits enough. -/
theorem round_lastPlaceLe (s : Sign) {m n : Nat} (bits : m < 2 ^ n) :
    LastPlaceLe (2 * n + 1) (round .binary64 s m 0) := by
  have exponent : (decreaseExponent m 0 (Format.binary64.targetExponent (totalExponent m 0))).2 ≤
      0 := by
    simp only [decreaseExponent]
    omega
  have mantissa : (decreaseExponent m 0 (Format.binary64.targetExponent (totalExponent m 0))).1 <
      2 ^ (n + 53) := by
    simp only [decreaseExponent]
    rw [Nat.shiftLeft_eq, Nat.pow_add]
    refine Nat.mul_lt_mul_of_lt_of_le bits (Nat.pow_le_pow_right (by decide) ?_) (by decide)
    simp only [Format.targetExponent, totalExponent, mantissaBits_binary64]
    omega
  have rounded := roundWithAccuracy_lastPlaceLe s .exact mantissa (by omega) exponent (by decide)
  exact rounded.mono (by omega)

end Rounding

section Packing

variable {s : Sign} {exponent : BitVec Format.binary64.exponentBits}
variable {mantissa : BitVec Format.binary64.mantissaBitsWithoutImplicit}

/-- The exponent of all ones is the only one that does not make a finite number. -/
theorem unpack_packComponents_lastPlaceLe (bounded : exponent.toNat ≤ k + 1075) (hk : -1074 ≤ k)
    (top : k ≤ 971) : LastPlaceLe k
      (UnpackedFloat.unpack .binary64 (packComponents .binary64 s exponent mantissa)) := by
  have proper : exponent ≠ -1#11 := by
    rintro rfl
    have : (-1#11).toNat = 2047 := by decide
    omega
  have kind := unpacks (packComponents .binary64 s exponent mantissa)
  generalize UnpackedFloat.unpack .binary64 (packComponents .binary64 s exponent mantissa) = u
    at kind ⊢
  cases kind with
  | infinity top | notANumber top =>
    exact absurd (unpackExponent_packComponents.symm.trans top) proper
  | zero => exact .zero _
  | subnormal => exact .finite hk
  | normal =>
    rw [unpackExponent_packComponents]
    exact .finite (by omega)

theorem pack_finite (m : Nat) (e : Int) (pos : 0 < m) :
    UnpackedFloat.pack .binary64 (.finite s m e pos) =
      if 2 ^ 11 ≤ (e + 1023 + 52).toNat + 1 then packedInfinity .binary64 s
      else if m.log2 + 1 = 53 then
        packComponents .binary64 s (.ofNat 11 (e + 1023 + 52).toNat) (.ofNat 52 m)
      else packComponents .binary64 s 0#11 (.ofNat 52 m) := rfl

/-- What is packed and unpacked has its last place where it was, or at the least weight there is,
unless its exponent overflows. -/
theorem LastPlaceLe.unpack_pack (h : LastPlaceLe k u) (hk : -1074 ≤ k) (top : k ≤ 971) :
    LastPlaceLe k (pack u).unpack := by
  change LastPlaceLe k (UnpackedFloat.unpack .binary64 (UnpackedFloat.pack .binary64 u))
  have subnormal : ((0 : BitVec Format.binary64.exponentBits).toNat : Int) ≤ k + 1075 := by
    rw [BitVec.ofNat_eq_ofNat, BitVec.toNat_zero]
    omega
  cases h with
  | zero s => exact unpack_packComponents_lastPlaceLe subnormal hk top
  | @finite s m e pos le =>
    rw [pack_finite]
    split_ifs with big full
    · omega
    · apply unpack_packComponents_lastPlaceLe _ hk top
      have := Nat.mod_le (e + 1023 + 52).toNat (2 ^ 11)
      simp only [BitVec.toNat_ofNat]
      omega
    · exact unpack_packComponents_lastPlaceLe subnormal hk top

/-- Packing loses no number but those that overflow. -/
theorem isFinite_or_isInf_unpack_pack (h : u.isFinite = true) :
    (pack u).unpack.isFinite = true ∨ (pack u).unpack.isInf = true := by
  cases u with
  | zero s =>
    have small : LastPlaceLe 0 (.zero s) := .zero s
    exact .inl (small.unpack_pack (by decide) (by decide)).isFinite
  | finite s m e pos =>
    by_cases top : e ≤ 971
    · have small : LastPlaceLe (max e (-1074)) (.finite s m e pos) := .finite (le_max_left e _)
      exact .inl (small.unpack_pack (by omega) (by omega)).isFinite
    · have overflow : UnpackedFloat.pack .binary64 (.finite s m e pos) =
          packedInfinity .binary64 s := by
        have big : 2 ^ 11 ≤ (e + 1023 + 52).toNat + 1 := by omega
        rw [pack_finite, if_pos big]
      right
      change (UnpackedFloat.unpack .binary64 (UnpackedFloat.pack .binary64 _)).isInf = true
      rw [overflow]
      cases s <;> decide +kernel
  | infinity | notANumber => cases h

theorem hasBits_unpack (b : BitVec Format.binary64.numBits) :
    HasBits 53 (UnpackedFloat.unpack .binary64 b) := by
  intro s m e pos finite
  have kind := unpacks b
  rw [finite] at kind
  cases kind with
  | subnormal => exact Nat.lt_trans (unpackMantissa b).isLt (by decide)
  | normal => exact (1#1 ++ unpackMantissa b).isLt

/-- No finite float has a last place beyond the bound for packing. -/
theorem lastPlaceLe_unpack {b : BitVec Format.binary64.numBits}
    (h : (UnpackedFloat.unpack .binary64 b).isFinite = true) :
    LastPlaceLe 971 (UnpackedFloat.unpack .binary64 b) := by
  have kind := unpacks b
  generalize UnpackedFloat.unpack .binary64 b = u at h kind ⊢
  cases kind with
  | infinity | notANumber => cases h
  | zero => exact .zero _
  | subnormal => exact .finite (by decide)
  | normal proper =>
    have bounded : (unpackExponent b).toNat < 2 ^ 11 := (unpackExponent b).isLt
    have notTop : (unpackExponent b).toNat ≠ 2047 := fun top => proper (BitVec.eq_of_toNat_eq top)
    exact .finite (by omega)

end Packing

section Operations

theorem LastPlaceLe.neg (h : LastPlaceLe k u) : LastPlaceLe k u.neg := by
  cases h with
  | zero s => exact .zero (-s)
  | finite le => exact .finite le

theorem LastPlaceLe.mul {m n : Nat} (left : LastPlaceLe k u) (right : LastPlaceLe l v)
    (hu : HasBits m u) (hv : HasBits n v) (hmn : 53 ≤ m + n) (hkl : -1074 ≤ k + l) :
    LastPlaceLe (k + l + 2 * (m + n : Nat) - 105) (UnpackedFloat.mul .binary64 u v) := by
  cases left with
  | zero s => cases right <;> exact .zero _
  | finite hd =>
    cases right with
    | zero t => exact .zero _
    | finite he =>
      have bits := Nat.mul_lt_mul'' (hu _ _ _ _ rfl) (hv _ _ _ _ rfl)
      rw [← Nat.pow_add] at bits
      exact roundWithAccuracy_lastPlaceLe _ _ bits hmn (Int.add_le_add hd he) hkl

/-- A quotient is computed to 105 bits at most before it is rounded. -/
theorem LastPlaceLe.div (left : LastPlaceLe k u) (right : LastPlaceGe l v)
    (hu : HasBits 53 u) (hv : HasBits 53 v) (hkl : -1074 ≤ k - l) :
    LastPlaceLe (k - l + 211) (UnpackedFloat.div .binary64 u v) := by
  cases right with
  | @finite t q e pos he =>
    cases left with
    | zero s => exact .zero _
    | @finite s p d _ hd =>
      have log : q.log2 < 53 := (Nat.log2_lt (Nat.ne_of_gt pos)).mpr (hv _ _ _ _ rfl)
      have target : (divCore .binary64 p d q e).2.1 ≤ k - l := by
        simp only [divCore]
        omega
      have bits : (divCore .binary64 p d q e).1 < 2 ^ (53 + 105) := by
        simp only [divCore]
        refine Nat.lt_of_le_of_lt (Nat.div_le_self _ q) ?_
        rw [Nat.shiftLeft_eq, Nat.pow_add]
        refine Nat.mul_lt_mul_of_lt_of_le (hu _ _ _ _ rfl) (Nat.pow_le_pow_right (by decide) ?_)
          (by decide)
        simp only [Format.targetExponent, totalExponent, mantissaBits_binary64]
        omega
      have rounded := roundWithAccuracy_lastPlaceLe (s / t) (divCore .binary64 p d q e).2.2 bits
        (by decide) target hkl
      exact rounded.mono (by omega)

theorem isFinite_mul (left : u.isFinite = true) (right : v.isFinite = true) :
    (UnpackedFloat.mul .binary64 u v).isFinite = true := by
  match u, v with
  | .infinity _, _ | .notANumber, _ => cases left
  | _, .infinity _ | _, .notANumber => cases right
  | .zero _, .zero _ | .zero _, .finite .. | .finite .., .zero _ => rfl
  | .finite .., .finite .. => exact isFinite_roundWithAccuracy _ _ _ _

theorem ofScientific_lastPlaceLe {n : Nat} (h : n < 2 ^ 64) :
    LastPlaceLe 200 (UnpackedFloat.ofScientific .binary64 n 0) := by
  have notHuge : ¬ (0 : Int) > 2 ^ Format.binary64.exponentBits := by decide
  have notTiny : ¬ (0 : Int) < -(2 ^ Format.binary64.exponentBits + n.log2) := by
    show ¬ (0 : Int) < -(2048 + n.log2)
    omega
  delta UnpackedFloat.ofScientific
  rcases Nat.eq_zero_or_pos n with nothing | pos
  · rw [dif_pos nothing]
    exact .zero _
  · rw [dif_neg (Nat.ne_of_gt pos), if_neg notHuge, if_neg notTiny, if_pos (Int.le_refl 0)]
    have wide : n <<< Format.binary64.mantissaBits * 10 ^ (0 : Int).toNat < 2 ^ 117 := by
      rw [Nat.shiftLeft_eq, mantissaBits_binary64, Int.toNat_zero, Nat.pow_zero]
      omega
    have rounded := roundWithAccuracy_lastPlaceLe .positive .exact wide (by decide)
      (Int.le_refl (-53)) (by decide)
    exact rounded.mono (by decide)

variable {x y : Float}

/-- The last place of a float weighs at most `2 ^ k`. -/
def Small (k : Int) (x : Float) : Prop := LastPlaceLe k x.toModel.unpack

instance : DecidablePred (Small k) := fun x =>
  inferInstanceAs (Decidable (LastPlaceLe k x.toModel.unpack))

theorem Small.mono (h : Small k x) (hkl : k ≤ l) : Small l x := LastPlaceLe.mono h hkl

theorem Small.isFinite (h : Small k x) : x.isFinite = true := LastPlaceLe.isFinite h

theorem Small.neg (h : Small k x) (hk : -1074 ≤ k) (top : k ≤ 971) : Small k (-x) :=
  (LastPlaceLe.neg h).unpack_pack hk top

theorem Small.mul (left : Small k x) (right : Small l y) (hkl : -1074 ≤ k + l)
    (top : k + l + 107 ≤ 971) : Small (k + l + 107) (x * y) := by
  have product := LastPlaceLe.mul left right (hasBits_unpack _) (hasBits_unpack _) (by decide) hkl
  exact (product.mono (by omega)).unpack_pack (by omega) top

theorem Small.div (left : Small k x) (right : LastPlaceGe l y.toModel.unpack)
    (hkl : -1074 ≤ k - l) (top : k - l + 211 ≤ 971) : Small (k - l + 211) (x / y) :=
  (LastPlaceLe.div left right (hasBits_unpack _) (hasBits_unpack _) hkl).unpack_pack (by omega) top

theorem isFinite_neg (h : x.isFinite = true) : (-x).isFinite = true :=
  have bounded : Small 971 x := lastPlaceLe_unpack h
  (bounded.neg (by decide) (by decide)).isFinite

/-- A product of finite numbers that is not finite is infinite. -/
theorem isFinite_mul_of_isInf_eq_false (left : x.isFinite = true) (right : y.isFinite = true)
    (bounded : (x * y).isInf = false) : (x * y).isFinite = true := by
  rcases isFinite_or_isInf_unpack_pack (isFinite_mul left right) with h | h
  · exact h
  · exact absurd (bounded.symm.trans h) Bool.false_ne_true

theorem small_toFloat {n : UInt64} (h : n.toNat < 2 ^ 53) : Small 107 n.toFloat := by
  have unpacked : LastPlaceLe 107 (UnpackedFloat.ofUInt64 .binary64 n) := by
    simp only [UnpackedFloat.ofUInt64, UnpackedFloat.ofNat, UnpackedFloat.ofInt,
      UnpackedFloat.normalize]
    split
    · rename_i negative
      exact absurd (compare_lt_iff_lt.mp negative) (by omega)
    · exact .zero _
    · exact round_lastPlaceLe _ h
  exact unpacked.unpack_pack (by decide) (by decide)

/-- Natural numbers of 64 bits are far from overflowing. -/
theorem small_ofNat {n : Nat} (h : n < 2 ^ 64) : Small 200 (Float.ofNat n) := by
  change Small 200 (Float.ofScientific n false 0)
  unfold Float.ofScientific
  split
  · rename_i exact
    have word : n.toUInt64.toNat < 2 ^ 53 := by
      rw [Nat.toUInt64_eq, UInt64.toNat_ofNat']
      omega
    have one : Small (-52) Float.exactlyRepresentablePowersOfTen[0] := by
      decide +kernel
    have product := (small_toFloat word).mul one (by decide) (by decide)
    exact product.mono (by decide)
  · exact (ofScientific_lastPlaceLe h).unpack_pack (by decide) (by decide)

end Operations

end FactFormula.Decimal
