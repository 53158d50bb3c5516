import FactFormula.Evaluation.Run

/-!
Evaluation goes by the values of the parts. What stands at a place of a formula, at whatever depth,
matters only through its value: without one the whole has none, and an operand with the same value
may take its place.
-/
namespace FactFormula

/-- An operand with a hole at one place. -/
inductive Context where
  | hole
  | left (op : String) (c : Context) (b : Operand)
  | right (op : String) (a : Operand) (c : Context)
  deriving DecidableEq

namespace Context

def fill : Context → Operand → Operand
  | .hole, o => o
  | .left op c b, o => .node op (c.fill o) b
  | .right op a c, o => .node op a (c.fill o)

variable {source : FactSource} {ops : OperatorRegistry} {securityId : SecurityId}

theorem run_value_node (op : String) (a b : Operand) :
    ((Operand.node op a b).run source ops securityId).value =
      (combine ops op (a.run source ops securityId).value (b.run source ops securityId).value).1 :=
  rfl

theorem combine_none_right (op : String) (u : Option Float) :
    combine ops op u none = (none, []) := by
  cases u <;> rfl

/-- The value around the hole is a function of the value in it, and there is none without one. -/
theorem run_value_fill (c : Context) (o : Operand) :
    ((c.fill o).run source ops securityId).value =
      (o.run source ops securityId).value.bind fun x =>
        ((c.fill (.literal x)).run source ops securityId).value := by
  induction c with
  | hole => cases h : (o.run source ops securityId).value <;> simp [fill, Operand.run, h]
  | left op c b ih =>
    simp only [fill, run_value_node, ih]
    cases (o.run source ops securityId).value with
    | none => rfl
    | some x => rfl
  | right op a c ih =>
    simp only [fill, run_value_node, ih]
    cases (o.run source ops securityId).value with
    | none => simp [combine_none_right]
    | some x => rfl

/-- No value at a place is no value of the whole. A part may give way to the literal of its value,
and operands of the same value to each other. -/
theorem run_value_compositional (c : Context) (o : Operand) (source : FactSource)
    (ops : OperatorRegistry) (securityId : SecurityId) :
    ((o.run source ops securityId).value = none →
        ((c.fill o).run source ops securityId).value = none) ∧
      (∀ x, (o.run source ops securityId).value = some x →
        ((c.fill o).run source ops securityId).value =
          ((c.fill (.literal x)).run source ops securityId).value) ∧
      ∀ o' : Operand,
        (o'.run source ops securityId).value = (o.run source ops securityId).value →
        ((c.fill o').run source ops securityId).value =
          ((c.fill o).run source ops securityId).value := by
  refine ⟨?_, ?_, ?_⟩
  · intro missing
    rw [run_value_fill, missing, Option.bind_none]
  · intro x value
    rw [run_value_fill, value, Option.bind_some]
  · intro o' same
    rw [c.run_value_fill o', c.run_value_fill o, same]

end Context

end FactFormula
