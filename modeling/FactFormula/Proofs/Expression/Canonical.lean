import FactFormula.Proofs.Expression.RoundTrip
import FactFormula.Proofs.Json.Unique

/-!
What the canonical text tells about a formula: everything, except which values its literals have
where these are no numbers. Formulas that agree have the same text unless a zero stands where the
other has the zero of the other sign.
-/
namespace FactFormula
open Json

/-- The same bits, or two values that JSON has no number for. -/
def SameLiteral (x y : Float) : Prop :=
  x.toBits = y.toBits ∨ x.isFinite = false ∧ y.isFinite = false

/-- The same tree with the same symbols and names, and at its leaves literals that JSON does not
tell apart. -/
inductive Operand.Alike : Operand → Operand → Prop where
  | attribute (name : String) : Alike (.attribute name) (.attribute name)
  | literal {x y : Float} (same : SameLiteral x y) : Alike (.literal x) (.literal y)
  | node (op : String) {a b a' b' : Operand} (left : Alike a a') (right : Alike b b') :
      Alike (.node op a b) (.node op a' b')

theorem SameLiteral.eq_of_finite {x y : Float} (h : SameLiteral x y) (finite : x.isFinite = true) :
    x = y := by
  rcases h with bits | ⟨infinite, -⟩
  · exact Decimal.toBits_inj.mp bits
  · exact absurd (finite.symm.trans infinite) (by decide)

theorem literalValue_eq_iff (x y : Float) : literalValue x = literalValue y ↔ SameLiteral x y := by
  unfold literalValue SameLiteral
  rw [Decimal.toBits_inj]
  by_cases hx : x.isFinite = true <;> by_cases hy : y.isFinite = true <;> simp [hx, hy]
  · rintro rfl
    exact hy hx
  · rintro rfl
    exact hx hy

namespace Operand

theorem normalize_toValue_literal (x : Float) : (literal x).toValue.normalize = literalValue x :=
  normalize_literalValue x

/-- A literal is written like another literal or like nothing. -/
theorem exists_literal_of_literalValue_eq {x : Float} {o : Operand}
    (h : literalValue x = o.toValue.normalize) : ∃ y, o = .literal y ∧ SameLiteral x y := by
  cases o with
  | «attribute» name =>
    have string : literalValue x = .string name := h
    unfold literalValue at string
    split at string <;> cases string
  | literal y =>
    rw [normalize_toValue_literal] at h
    exact ⟨y, rfl, (literalValue_eq_iff x y).mp h⟩
  | node op a b =>
    rw [normalize_toValue_node] at h
    unfold literalValue at h
    split at h <;> cases h

/-- Operands are written with the same value exactly when they are alike. -/
theorem normalize_toValue_eq_iff (o o' : Operand) :
    o.toValue.normalize = o'.toValue.normalize ↔ o.Alike o' := by
  constructor
  · intro h
    induction o generalizing o' with
    | «attribute» name =>
      cases o' with
      | «attribute» name' =>
        obtain rfl : name = name' := Value.string.inj h
        exact .attribute name
      | literal y =>
        obtain ⟨x, other, -⟩ := exists_literal_of_literalValue_eq
          ((normalize_toValue_literal y).symm.trans h.symm)
        cases other
      | node op a b =>
        rw [normalize_toValue_node] at h
        cases h
    | literal x =>
      rw [normalize_toValue_literal] at h
      obtain ⟨y, rfl, same⟩ := exists_literal_of_literalValue_eq h
      exact .literal same
    | node op a b iha ihb =>
      cases o' with
      | «attribute» name =>
        rw [normalize_toValue_node] at h
        cases h
      | literal y =>
        obtain ⟨x, other, -⟩ := exists_literal_of_literalValue_eq
          ((normalize_toValue_literal y).symm.trans h.symm)
        cases other
      | node op' a' b' =>
        simp only [normalize_toValue_node, Value.object.injEq, List.cons.injEq, Prod.mk.injEq,
          Value.string.injEq, true_and, and_true] at h
        obtain ⟨left, right, rfl⟩ := h
        exact .node op (iha a' left) (ihb b' right)
  · intro h
    induction h with
    | «attribute» name => rfl
    | literal same =>
      rw [normalize_toValue_literal, normalize_toValue_literal]
      exact (literalValue_eq_iff _ _).mpr same
    | node op left right iha ihb =>
      rw [normalize_toValue_node, normalize_toValue_node, iha, ihb]

/-- What is true of formulas is true of operands: texts are the same where the operands are
alike. -/
theorem text_eq_iff (o o' : Operand) :
    o.toValue.normalize.text = o'.toValue.normalize.text ↔ o.Alike o' :=
  Value.text_injective.eq_iff.trans (o.normalize_toValue_eq_iff o')

end Operand

/-- The canonical text settles a formula: its shape, its symbols, its names and the bits of all its
literals that are finite. -/
theorem Expression.canonicalText_eq_iff (e f : Expression) :
    e.canonicalText = f.canonicalText ↔ e.toOperand.Alike f.toOperand :=
  e.toOperand.text_eq_iff f.toOperand

/-- A zero of the one sign and a zero of the other. -/
def OppositeZeros (x y : Float) : Prop := x = 0 ∧ y = -0 ∨ x = -0 ∧ y = 0

theorem isFinite_zero : (0 : Float).isFinite = true := by decide +kernel

theorem isFinite_neg_zero : (-0 : Float).isFinite = true := by decide +kernel

theorem zero_ne_neg_zero : (0 : Float) ≠ -0 := by decide +kernel

/-- Literals that are equal as numbers are written alike unless they are zeros of two signs. -/
theorem sameLiteral_iff_of_beq {x y : Float} (h : (x == y) = true) :
    SameLiteral x y ↔ ¬ OppositeZeros x y := by
  constructor
  · rintro same (⟨rfl, rfl⟩ | ⟨rfl, rfl⟩)
    · exact zero_ne_neg_zero (same.eq_of_finite isFinite_zero)
    · exact zero_ne_neg_zero (same.eq_of_finite isFinite_neg_zero).symm
  · intro unopposed
    rcases Decimal.eq_or_opposite_of_beq h with rfl | opposed
    · exact .inl rfl
    · exact absurd opposed unopposed

namespace Operand

theorem length_literals_of_agrees {o o' : Operand} (h : o.agrees o' = true) :
    o.literals.length = o'.literals.length := by
  induction o generalizing o' with
  | «attribute» name => cases o' <;> simp_all [agrees, literals]
  | literal x => cases o' <;> simp_all [agrees, literals]
  | node op a b iha ihb =>
    cases o' with
    | «attribute» name => simp [agrees] at h
    | literal y => simp [agrees] at h
    | node op' a' b' =>
      simp only [agrees, Bool.and_eq_true] at h
      simp only [literals, List.length_append, iha h.1.2, ihb h.2]

/-- Operands that agree are alike unless a zero stands where the other has the opposite zero. -/
theorem alike_iff_of_agrees {o o' : Operand} (h : o.agrees o' = true) :
    o.Alike o' ↔ ∀ p ∈ o.literals.zip o'.literals, ¬ OppositeZeros p.1 p.2 := by
  induction o generalizing o' with
  | «attribute» name =>
    cases o' with
    | «attribute» name' =>
      obtain rfl : name = name' := by simpa [agrees] using h
      exact iff_of_true (.attribute name) (by simp [literals])
    | literal y => simp [agrees] at h
    | node op' a' b' => simp [agrees] at h
  | literal x =>
    cases o' with
    | «attribute» name' => simp [agrees] at h
    | literal y =>
      have same : (literal x).Alike (literal y) ↔ SameLiteral x y := by
        refine ⟨fun alike => ?_, .literal⟩
        cases alike with
        | literal same => exact same
      rw [same, sameLiteral_iff_of_beq h]
      simp [literals]
    | node op' a' b' => simp [agrees] at h
  | node op a b iha ihb =>
    cases o' with
    | «attribute» name' => simp [agrees] at h
    | literal y => simp [agrees] at h
    | node op' a' b' =>
      simp only [agrees, Bool.and_eq_true, beq_iff_eq] at h
      obtain ⟨⟨rfl, left⟩, right⟩ := h
      have parts : (node op a b).Alike (node op a' b') ↔ a.Alike a' ∧ b.Alike b' := by
        refine ⟨fun alike => ?_, fun both => .node op both.1 both.2⟩
        cases alike with
        | node _ left right => exact ⟨left, right⟩
      rw [parts, iha left, ihb right, literals, literals,
        List.zip_append (length_literals_of_agrees left), List.forall_mem_append]

end Operand

namespace Expression

/-- Formulas that agree have the same text and the same digest as long as no zero stands where the
other has the opposite zero; with one, their texts differ. -/
theorem canonicalText_eq_iff_of_agrees {e f : Expression} (h : e.agrees f = true) :
    (e.canonicalText = f.canonicalText ↔
        ∀ p ∈ e.literals.zip f.literals, ¬ OppositeZeros p.1 p.2) ∧
      ((∀ p ∈ e.literals.zip f.literals, ¬ OppositeZeros p.1 p.2) → e.hash = f.hash) := by
  have same : e.canonicalText = f.canonicalText ↔
      ∀ p ∈ e.literals.zip f.literals, ¬ OppositeZeros p.1 p.2 :=
    (e.toOperand.text_eq_iff f.toOperand).trans (Operand.alike_iff_of_agrees h)
  refine ⟨same, fun unopposed => ?_⟩
  unfold hash
  rw [same.mpr unopposed]

/-- Zero, of either sign, and one. -/
def zeroAndOne (zero : Float) : Expression := ⟨"+", .literal zero, .literal 1⟩

theorem zeroAndOne_canonicalText_ne :
    (zeroAndOne 0).canonicalText ≠ (zeroAndOne (-0)).canonicalText := by
  have agree : (zeroAndOne 0).agrees (zeroAndOne (-0)) = true := by decide +kernel
  intro same
  have unopposed := (canonicalText_eq_iff_of_agrees agree).1.mp same
  exact unopposed (0, -0) List.mem_cons_self (.inl ⟨rfl, rfl⟩)

/-- Both formulas can be read from a text, they agree, and their digests differ. -/
theorem zeroAndOne_hash_ne :
    Expression.ofText "\x7b\"fn\":\"+\",\"a\":0.0,\"b\":1\x7d" = .ok (zeroAndOne 0) ∧
      Expression.ofText "\x7b\"fn\":\"+\",\"a\":-0.0,\"b\":1\x7d" = .ok (zeroAndOne (-0)) ∧
      (zeroAndOne 0).agrees (zeroAndOne (-0)) = true ∧
      (zeroAndOne 0).hash ≠ (zeroAndOne (-0)).hash := by
  decide +kernel

end Expression

end FactFormula
