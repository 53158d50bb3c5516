import Mathlib.Tactic.Tauto
import FactFormula.Expression.Dependencies

/-! What occurs in a formula. Its dependencies hold exactly the names that occur. -/
namespace FactFormula

/-- Operator symbols, an operation before its operands. -/
def Operand.operators : Operand → List String
  | .attribute _ => []
  | .literal _ => []
  | .node op a b => op :: (a.operators ++ b.operators)

/-- The operations in an operand, each behind its own operands. -/
def Operand.operations : Operand → List Expression
  | .attribute _ => []
  | .literal _ => []
  | .node op a b => a.operations ++ (b.operations ++ [⟨op, a, b⟩])

/-- Literals from left to right. -/
def Operand.literals : Operand → List Float
  | .attribute _ => []
  | .literal x => [x]
  | .node _ a b => a.literals ++ b.literals

namespace Expression

def attributes (e : Expression) : List String := e.toOperand.attributes

def operators (e : Expression) : List String := e.toOperand.operators

def operations (e : Expression) : List Expression := e.toOperand.operations

def literals (e : Expression) : List Float := e.toOperand.literals

end Expression

/-- The walk over an operand adds the attributes that occur in it and keeps those it has. -/
theorem Operand.mem_addDependencies_attributes (o : Operand) (d : Dependencies) (name : String) :
    name ∈ (o.addDependencies d).attributes ↔ name ∈ d.attributes ∨ name ∈ o.attributes := by
  induction o generalizing d with
  | «attribute» n =>
    simp only [addDependencies, attributes, Std.TreeSet.mem_insert,
      Std.LawfulEqCmp.compare_eq_iff_eq, List.mem_singleton]
    tauto
  | literal x => simp [addDependencies, attributes]
  | node op a b iha ihb =>
    simp only [addDependencies, attributes, ihb, iha, List.mem_append]
    tauto

theorem Operand.mem_addDependencies_operators (o : Operand) (d : Dependencies) (symbol : String) :
    symbol ∈ (o.addDependencies d).operators ↔ symbol ∈ d.operators ∨ symbol ∈ o.operators := by
  induction o generalizing d with
  | «attribute» n => simp [addDependencies, operators]
  | literal x => simp [addDependencies, operators]
  | node op a b iha ihb =>
    simp only [addDependencies, operators, ihb, iha, List.mem_append, List.mem_cons,
      Std.TreeSet.mem_insert, Std.LawfulEqCmp.compare_eq_iff_eq]
    tauto

theorem Expression.mem_dependencies_attributes (e : Expression) (name : String) :
    name ∈ e.dependencies.attributes ↔ name ∈ e.attributes := by
  simp [dependencies, Dependencies.empty, Operand.mem_addDependencies_attributes, attributes]

theorem Expression.mem_dependencies_operators (e : Expression) (symbol : String) :
    symbol ∈ e.dependencies.operators ↔ symbol ∈ e.operators := by
  simp [dependencies, Dependencies.empty, Operand.mem_addDependencies_operators, operators]

end FactFormula
