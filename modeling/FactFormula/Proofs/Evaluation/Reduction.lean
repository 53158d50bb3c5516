import Mathlib.Data.Option.Basic
import FactFormula.Check
import FactFormula.Proofs.Decimal.Bits
import FactFormula.Proofs.Evaluation.Meaning

/-!
The value of a document under the four arithmetic operators, said without registry, questions and
events. The default evaluation gives just this value, and its registry has just the symbols that
the check takes for known.
-/
namespace FactFormula

/-- The number an operation makes, whatever it is. -/
def Arithmetic.number (op : Arithmetic) (x y : Float) : Float :=
  match op with
  | .add => x + y
  | .sub => x - y
  | .mul => x * y
  | .div => x / y

/-- There is no value where a zero of either sign divides, nor where the number is not finite. -/
def Arithmetic.reduce (op : Arithmetic) (x y : Float) : Option Float :=
  if op = .div ∧ (y = 0 ∨ y = -0) then none
  else if (op.number x y).isFinite then some (op.number x y)
  else none

def Operand.reduce (source : FactSource) (securityId : SecurityId) : Operand → Option Float
  | .literal x => some x
  | .attribute name => (source.lookup securityId name).toOption
  | .node op a b =>
    match Arithmetic.ofSymbol? op, a.reduce source securityId, b.reduce source securityId with
    | some f, some x, some y => f.reduce x y
    | _, _, _ => none

/-- A document has a value only if its security resolves. -/
def Document.reduce (source : FactSource) (d : Document) : Except EvaluationFailure Float :=
  match source.securityId d.security with
  | .error _ => .error .noValue
  | .ok securityId =>
    match d.expression.toOperand.reduce source securityId with
    | some x => .ok x
    | none => .error .noValue

theorem Arithmetic.filter_apply (op : Arithmetic) (x y : Float) :
    (op.apply x y).filter Float.isFinite = op.reduce x y := by
  cases op with
  | add => rfl
  | sub => rfl
  | mul => rfl
  | div =>
    by_cases zero : y = 0 ∨ y = -0
    · have equal : (y == 0) = true := (Decimal.beq_zero_iff y).mpr zero
      rw [apply, reduce, if_pos equal, if_pos ⟨rfl, zero⟩, Option.filter_none]
    · have unequal : ¬ (y == 0) = true := fun h => zero ((Decimal.beq_zero_iff y).mp h)
      rw [apply, reduce, if_neg unequal, if_neg fun h => zero h.2, Option.filter_some, number]

variable {source : FactSource} {securityId : SecurityId}

theorem combine_builtins_value (op : String) (u v : Option Float) :
    (combine .builtins op u v).1 =
      match Arithmetic.ofSymbol? op, u, v with
      | some f, some x, some y => f.reduce x y
      | _, _, _ => none := by
  cases u with
  | none => cases Arithmetic.ofSymbol? op <;> rfl
  | some x =>
    cases v with
    | none => cases Arithmetic.ofSymbol? op <;> rfl
    | some y =>
      simp only [combine, applyOperator_value, OperatorRegistry.get?_builtins]
      cases Arithmetic.ofSymbol? op with
      | none => rfl
      | some f => exact f.filter_apply x y

theorem Operand.run_builtins_value (o : Operand) :
    (o.run source .builtins securityId).value = o.reduce source securityId := by
  induction o with
  | «attribute» name => exact attributeRun_value name
  | literal x => rfl
  | node op a b iha ihb => simp only [run, reduce, combine_builtins_value, iha, ihb]

theorem OperatorRegistry.operatorSet_builtins :
    builtins.operatorSet = Arithmetic.operatorSet := by
  funext s
  rw [operatorSet, contains_eq_isSome_get?, get?_builtins, Option.isSome_map,
    Arithmetic.operatorSet]

/-- The default evaluation is direct reduction. Its registry contains the symbols of the arithmetic
operators and no other, so it makes no difference to the check which of the two is asked. -/
theorem Document.evaluate_eq_reduce (source : FactSource) (d : Document) :
    d.evaluate source = d.reduce source ∧
      (∀ s, OperatorRegistry.builtins.contains s = true ↔ Arithmetic.operatorSet s = true) ∧
      ∀ catalog : Catalog,
        d.check catalog Arithmetic.operatorSet =
            d.check catalog OperatorRegistry.builtins.operatorSet ∧
          d.problems catalog Arithmetic.operatorSet =
            d.problems catalog OperatorRegistry.builtins.operatorSet := by
  refine ⟨?_, ?_, ?_⟩
  · unfold evaluate evaluateWith Document.run reduce
    cases source.securityId d.security with
    | error e => rfl
    | ok s =>
      cases h : d.expression.toOperand.reduce source s <;>
        simp [Expression.run, Operand.run_builtins_value, Run.outcome, h]
  · intro s
    rw [← OperatorRegistry.operatorSet_builtins, OperatorRegistry.operatorSet]
  · intro catalog
    rw [OperatorRegistry.operatorSet_builtins]
    exact ⟨rfl, rfl⟩

end FactFormula
