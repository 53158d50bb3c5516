/-!
Formulas over the attributes of a security: binary operations on attributes, literals and further
operations. The operator is a bare symbol; whether anything implements it is asked later.
-/
namespace FactFormula

inductive Operand where
  | attribute (name : String)
  | literal (x : Float)
  | node (op : String) (a b : Operand)
  deriving DecidableEq

/-- A formula is one operation at least. -/
structure Expression where
  op : String
  a : Operand
  b : Operand
  deriving DecidableEq

/-- A formula to be evaluated for one security. -/
structure Document where
  expression : Expression
  security : String
  deriving DecidableEq

def Expression.toOperand (e : Expression) : Operand := .node e.op e.a e.b

/-- The number of operations on the longest path to a leaf. -/
def Operand.depth : Operand → Nat
  | .attribute _ => 0
  | .literal _ => 0
  | .node _ a b => 1 + max a.depth b.depth

def Expression.depth (e : Expression) : Nat := e.toOperand.depth

/-- Equality that compares literals as numbers: the two zeros are equal, and no literal that is not
a number equals itself. -/
def Operand.agrees : Operand → Operand → Bool
  | .attribute m, .attribute n => m == n
  | .literal x, .literal y => x == y
  | .node op a b, .node op' a' b' => op == op' && a.agrees a' && b.agrees b'
  | _, _ => false

def Expression.agrees (e f : Expression) : Bool := e.toOperand.agrees f.toOperand

/-- Attribute leaves from left to right. -/
def Operand.attributes : Operand → List String
  | .attribute name => [name]
  | .literal _ => []
  | .node _ a b => a.attributes ++ b.attributes

end FactFormula
