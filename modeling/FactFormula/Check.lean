import FactFormula.Expression.Basic
import FactFormula.Facts.Source
import FactFormula.Operator.Arithmetic

/-!
Which names of a document nobody knows. A document without problems may still have no value, for
want of a fact or of a finite result.
-/
namespace FactFormula

inductive Problem where
  | unknownSecurity (symbol : String)
  | unknownAttribute (name : String)
  | unknownOperator (symbol : String)
  deriving DecidableEq

def Problem.text : Problem → String
  | .unknownSecurity symbol => "unknown security: " ++ symbol
  | .unknownAttribute name => "unknown attribute: " ++ name
  | .unknownOperator symbol => "unknown operator: " ++ symbol

variable (catalog : Catalog) (ops : OperatorSet)

/-- The first problem: an operation before its operands, the left one before the right one. -/
def Operand.check : Operand → Except Problem Unit
  | .attribute name =>
    if catalog.hasAttribute name then .ok () else .error (.unknownAttribute name)
  | .literal _ => .ok ()
  | .node op a b =>
    if ops op then do
      a.check
      b.check
    else .error (.unknownOperator op)

def Expression.check (e : Expression) : Except Problem Unit := e.toOperand.check catalog ops

/-- The security comes before the formula. -/
def Document.check (d : Document) : Except Problem Unit :=
  if catalog.hasSecurity d.security then d.expression.check catalog ops
  else .error (.unknownSecurity d.security)

def Operand.problems : Operand → List Problem
  | .attribute name => if catalog.hasAttribute name then [] else [.unknownAttribute name]
  | .literal _ => []
  | .node op a b =>
    (if ops op then [] else [.unknownOperator op]) ++ (a.problems ++ b.problems)

/-- All problems, in the order in which a reader meets them. -/
def Expression.problems (e : Expression) : List Problem := e.toOperand.problems catalog ops

def Document.problems (d : Document) : List Problem :=
  (if catalog.hasSecurity d.security then [] else [.unknownSecurity d.security]) ++
    d.expression.problems catalog ops

end FactFormula
