import FactFormula.Proofs.Evaluation.Locality
import FactFormula.Proofs.Evaluation.Meaning
import FactFormula.Proofs.Expression.Canonical

/-!
Values kept under the canonical text of their formula. The text does not tell one literal that is
not finite from another, so a kept value is right as long as no operator tells them apart either.
Of the four arithmetic operators division does.
-/
namespace FactFormula
open Float.Model

theorem SameLiteral.refl (x : Float) : SameLiteral x x := .inl rfl

theorem SameLiteral.isFinite_eq {x y : Float} (h : SameLiteral x y) : x.isFinite = y.isFinite := by
  rcases h with bits | ⟨hx, hy⟩
  · rw [Decimal.toBits_inj.mp bits]
  · rw [hx, hy]

namespace Operator

/-- Operands that JSON does not tell apart make the same finite number or none. -/
def Blind (f : Operator) : Prop :=
  ∀ x x' y y', SameLiteral x x' → SameLiteral y y' →
    (f.apply x y).filter Float.isFinite = (f.apply x' y').filter Float.isFinite

/-- A finite number is made of finite numbers only. -/
def Strict (f : Operator) : Prop :=
  ∀ x y z, f.apply x y = some z → z.isFinite = true → x.isFinite = true ∧ y.isFinite = true

theorem Strict.filter_eq_none {f : Operator} (strict : f.Strict) {x y : Float}
    (h : ¬ (x.isFinite = true ∧ y.isFinite = true)) :
    (f.apply x y).filter Float.isFinite = none := by
  rw [Option.filter_eq_none_iff]
  intro z made finite
  exact h (strict x y z made finite)

theorem Strict.blind {f : Operator} (strict : f.Strict) : f.Blind := by
  intro x x' y y' left right
  by_cases finite : x.isFinite = true ∧ y.isFinite = true
  · rw [left.eq_of_finite finite.1, right.eq_of_finite finite.2]
  · have finite' : ¬ (x'.isFinite = true ∧ y'.isFinite = true) := by
      rwa [← left.isFinite_eq, ← right.isFinite_eq]
    rw [strict.filter_eq_none finite, strict.filter_eq_none finite']

end Operator

section Arithmetic

variable {u v : UnpackedFloat}

theorem isFinite_of_isFinite_pack (h : (pack u).unpack.isFinite = true) : u.isFinite = true := by
  cases u with
  | infinity sign =>
    cases sign
    · exact absurd h (by decide +kernel)
    · exact absurd h (by decide +kernel)
  | notANumber => exact absurd h (by decide +kernel)
  | zero sign => rfl
  | finite sign mantissa exponent pos => rfl

theorem isFinite_of_isFinite_add (h : (UnpackedFloat.add .binary64 u v).isFinite = true) :
    u.isFinite = true ∧ v.isFinite = true := by
  cases u <;> cases v
  case infinity.infinity s t => cases s <;> cases t <;> cases h
  all_goals first | exact ⟨rfl, rfl⟩ | cases h

theorem isFinite_of_isFinite_sub (h : (UnpackedFloat.sub .binary64 u v).isFinite = true) :
    u.isFinite = true ∧ v.isFinite = true := by
  cases u <;> cases v
  case infinity.infinity s t => cases s <;> cases t <;> cases h
  all_goals first | exact ⟨rfl, rfl⟩ | cases h

theorem isFinite_of_isFinite_mul (h : (UnpackedFloat.mul .binary64 u v).isFinite = true) :
    u.isFinite = true ∧ v.isFinite = true := by
  cases u <;> cases v
  case infinity.infinity s t => cases s <;> cases t <;> cases h
  all_goals first | exact ⟨rfl, rfl⟩ | cases h

theorem Arithmetic.strict_operator {op : Arithmetic} (h : op ≠ .div) : op.operator.Strict := by
  intro x y z made finite
  cases op with
  | add =>
    obtain rfl : x + y = z := Option.some.inj made
    exact isFinite_of_isFinite_add (isFinite_of_isFinite_pack finite)
  | sub =>
    obtain rfl : x - y = z := Option.some.inj made
    exact isFinite_of_isFinite_sub (isFinite_of_isFinite_pack finite)
  | mul =>
    obtain rfl : x * y = z := Option.some.inj made
    exact isFinite_of_isFinite_mul (isFinite_of_isFinite_pack finite)
  | div => exact absurd rfl h

/-- One divided by infinity is zero, and by what is not a number nothing. -/
theorem Arithmetic.not_blind_div : ¬ Arithmetic.div.operator.Blind := by
  intro blind
  have same := blind 1 1 (1 / 0) (0 / 0) (.refl 1) (.inr (by decide +kernel))
  exact absurd same (by decide +kernel)

/-- Of the four operators, division alone tells operands apart that JSON does not. -/
theorem Arithmetic.blind_operator_iff (op : Arithmetic) : op.operator.Blind ↔ op ≠ .div := by
  constructor
  · rintro blind rfl
    exact not_blind_div blind
  · intro h
    exact (strict_operator h).blind

end Arithmetic

/-- No operator of the table tells operands apart that JSON does not. -/
def OperatorRegistry.Blind (ops : OperatorRegistry) : Prop :=
  ∀ symbol f, ops.get? symbol = some f → f.Blind

variable {source : FactSource} {ops : OperatorRegistry} {securityId : SecurityId}

theorem combine_value_eq_of_blind (blind : ops.Blind) (op : String) {u u' v v' : Option Float}
    (left : Option.Rel SameLiteral u u') (right : Option.Rel SameLiteral v v') :
    (combine ops op u v).1 = (combine ops op u' v').1 := by
  cases left with
  | none => rfl
  | some left =>
    cases right with
    | none => rfl
    | some right =>
      simp only [combine, applyOperator_value]
      cases h : ops.get? op with
      | none => rfl
      | some f => exact blind op f h _ _ _ _ left right

theorem rel_sameLiteral_of_eq {u v : Option Float} (h : u = v) : Option.Rel SameLiteral u v := by
  subst h
  cases u with
  | none => exact .none
  | some x => exact .some (.refl x)

/-- Values of alike operands are the same as far as JSON can tell. -/
theorem Operand.Alike.run_value_rel (blind : ops.Blind) {o o' : Operand} (h : o.Alike o') :
    Option.Rel SameLiteral (o.run source ops securityId).value
      (o'.run source ops securityId).value := by
  induction h with
  | «attribute» name => exact rel_sameLiteral_of_eq rfl
  | literal same => exact .some same
  | node op _ _ left right =>
    exact rel_sameLiteral_of_eq (combine_value_eq_of_blind blind op left right)

/-- With all literals finite there is but one operand like it. -/
theorem Operand.Alike.eq_of_finite {o o' : Operand} (h : o.Alike o')
    (finite : ∀ x ∈ o.literals, x.isFinite = true) : o = o' := by
  induction h with
  | «attribute» name => rfl
  | literal same => rw [same.eq_of_finite (finite _ List.mem_cons_self)]
  | node op _ _ left right =>
    rw [left fun x hx => finite x (List.mem_append_left _ hx),
      right fun x hx => finite x (List.mem_append_right _ hx)]

namespace Expression

variable {e f : Expression}

theorem value_eq_of_blind (blind : ops.Blind) (same : e.canonicalText = f.canonicalText) :
    (e.run source ops securityId).value = (f.run source ops securityId).value := by
  have alike : e.toOperand.Alike f.toOperand :=
    (e.toOperand.text_eq_iff f.toOperand).mp same
  obtain ⟨op, a, b⟩ := e
  obtain ⟨op', a', b'⟩ := f
  cases alike with
  | node _ left right =>
    exact combine_value_eq_of_blind blind op (left.run_value_rel blind) (right.run_value_rel blind)

theorem run_eq_of_finite (finite : ∀ x ∈ e.literals, x.isFinite = true)
    (same : e.canonicalText = f.canonicalText) :
    e.run source ops securityId = f.run source ops securityId := by
  have alike : e.toOperand.Alike f.toOperand :=
    (e.toOperand.text_eq_iff f.toOperand).mp same
  unfold run
  rw [alike.eq_of_finite finite]

/-- One operation on two literals gives what its operator makes of them. -/
theorem blind_of_value_eq
    (h : ∀ e f : Expression, e.canonicalText = f.canonicalText →
      (e.run source ops securityId).value = (f.run source ops securityId).value) : ops.Blind := by
  intro symbol f registered x x' y y' left right
  have alike : (Operand.node symbol (.literal x) (.literal y)).Alike
      (.node symbol (.literal x') (.literal y')) := .node symbol (.literal left) (.literal right)
  have value := h ⟨symbol, .literal x, .literal y⟩ ⟨symbol, .literal x', .literal y'⟩
    ((Operand.text_eq_iff _ _).mpr alike)
  simpa [run, toOperand, Operand.run, combine, applyOperator_value, registered] using value

/-- A value kept under the text of its formula is right for all formulas of that text exactly when
the operators are blind, as the arithmetic operators are except for division. Whatever the
operators, it is right where the literals are finite. -/
theorem kept_value_sound (ops : OperatorRegistry) :
    (ops.Blind ↔ ∀ e f : Expression, e.canonicalText = f.canonicalText → ∀ source securityId,
      (e.run source ops securityId).value = (f.run source ops securityId).value) ∧
    (∀ op : Arithmetic, op.operator.Blind ↔ op ≠ .div) ∧
    ∀ e f : Expression, (∀ x ∈ e.literals, x.isFinite = true) →
      e.canonicalText = f.canonicalText → ∀ source securityId,
        e.run source ops securityId = f.run source ops securityId := by
  refine ⟨⟨?_, ?_⟩, Arithmetic.blind_operator_iff, ?_⟩
  · intro blind e f same source securityId
    exact value_eq_of_blind blind same
  · intro sound
    exact blind_of_value_eq fun e f same => sound e f same priceSource 0
  · intro e f finite same source securityId
    exact run_eq_of_finite finite same

/-- One divided by `x`. -/
def inverse (x : Float) : Expression := ⟨"/", .literal 1, .literal x⟩

/-- The same text and the same digest, but zero for the one and nothing for the other. -/
theorem inverse_values_differ :
    (inverse (1 / 0)).canonicalText = (inverse (0 / 0)).canonicalText ∧
      (inverse (1 / 0)).hash = (inverse (0 / 0)).hash ∧
      ((inverse (1 / 0)).run priceSource .builtins 0).value = some 0 ∧
      ((inverse (0 / 0)).run priceSource .builtins 0).value = none := by
  decide +kernel

end Expression

end FactFormula
