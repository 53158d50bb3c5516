/-! Operators, and the four that are always there. -/
namespace FactFormula

/-- A named operation on numbers. It may have no value. -/
structure Operator where
  symbol : String
  apply : Float → Float → Option Float

inductive Arithmetic where
  | add
  | sub
  | mul
  | div
  deriving DecidableEq, Repr

namespace Arithmetic

def all : List Arithmetic := [.add, .sub, .mul, .div]

def symbol : Arithmetic → String
  | .add => "+"
  | .sub => "-"
  | .mul => "*"
  | .div => "/"

def ofSymbol? (s : String) : Option Arithmetic :=
  if s = "+" then some .add
  else if s = "-" then some .sub
  else if s = "*" then some .mul
  else if s = "/" then some .div
  else none

/-- Division by a zero of either sign has no value. -/
def apply (op : Arithmetic) (x y : Float) : Option Float :=
  match op with
  | .add => some (x + y)
  | .sub => some (x - y)
  | .mul => some (x * y)
  | .div => if y == 0 then none else some (x / y)

def operator (op : Arithmetic) : Operator := ⟨op.symbol, op.apply⟩

theorem ofSymbol?_symbol (op : Arithmetic) : ofSymbol? op.symbol = some op := by
  cases op <;> decide

theorem symbol_of_ofSymbol? {s : String} {op : Arithmetic} (h : ofSymbol? s = some op) :
    op.symbol = s := by
  grind [ofSymbol?, Arithmetic.symbol]

end Arithmetic

/-- The symbols that something implements. -/
abbrev OperatorSet := String → Bool

/-- The four arithmetic operators and nothing else. -/
def Arithmetic.operatorSet : OperatorSet := fun s => (Arithmetic.ofSymbol? s).isSome

end FactFormula
