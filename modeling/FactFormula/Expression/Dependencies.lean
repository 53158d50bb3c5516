import Std.Data.TreeSet
import FactFormula.Expression.Basic

/-! The names a formula refers to. -/
namespace FactFormula

structure Dependencies where
  attributes : Std.TreeSet String
  operators : Std.TreeSet String

def Dependencies.empty : Dependencies := ⟨∅, ∅⟩

def Operand.addDependencies (d : Dependencies) : Operand → Dependencies
  | .attribute name => { d with attributes := d.attributes.insert name }
  | .literal _ => d
  | .node op a b =>
    b.addDependencies (a.addDependencies { d with operators := d.operators.insert op })

def Expression.dependencies (e : Expression) : Dependencies :=
  e.toOperand.addDependencies .empty

/-- The attributes in increasing order. -/
def Dependencies.attributeList (d : Dependencies) : List String := d.attributes.toList

/-- The operators in increasing order. -/
def Dependencies.operatorList (d : Dependencies) : List String := d.operators.toList

def Dependencies.agree (d e : Dependencies) : Bool :=
  d.attributeList == e.attributeList && d.operatorList == e.operatorList

end FactFormula
