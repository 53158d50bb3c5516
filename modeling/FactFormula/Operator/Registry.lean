import Std.Data.TreeMap
import FactFormula.Operator.Arithmetic

/-! Tables of operators, one for each symbol. -/
namespace FactFormula

structure OperatorRegistry where
  table : Std.TreeMap String Operator

namespace OperatorRegistry

def empty : OperatorRegistry := ⟨∅⟩

/-- Puts an operator in the place of the one that had its symbol. -/
def register (r : OperatorRegistry) (op : Operator) : OperatorRegistry :=
  ⟨r.table.insert op.symbol op⟩

def registerAll (r : OperatorRegistry) (ops : List Operator) : OperatorRegistry :=
  ops.foldl register r

/-- The four arithmetic operators. -/
def builtins : OperatorRegistry := empty.registerAll (Arithmetic.all.map Arithmetic.operator)

def get? (r : OperatorRegistry) (symbol : String) : Option Operator := r.table[symbol]?

def contains (r : OperatorRegistry) (symbol : String) : Bool := r.table.contains symbol

/-- The symbols in increasing order. -/
def symbols (r : OperatorRegistry) : List String := r.table.keys

def operatorSet (r : OperatorRegistry) : OperatorSet := r.contains

theorem get?_empty (s : String) : empty.get? s = none := by simp [empty, get?]

theorem get?_register (r : OperatorRegistry) (op : Operator) (s : String) :
    (r.register op).get? s = if op.symbol = s then some op else r.get? s := by
  simp [register, get?, Std.TreeMap.getElem?_insert]

/-- Registering operators leaves the other symbols alone. -/
theorem get?_registerAll_of_ne (r : OperatorRegistry) (ops : List Operator) (s : String)
    (h : ∀ op ∈ ops, op.symbol ≠ s) : (r.registerAll ops).get? s = r.get? s := by
  induction ops generalizing r with
  | nil => rfl
  | cons op ops ih =>
    have later : ((r.register op).registerAll ops).get? s = (r.register op).get? s :=
      ih (r.register op) fun f hf => h f (List.mem_cons_of_mem op hf)
    rw [registerAll, List.foldl_cons, ← registerAll, later, get?_register,
      if_neg (h op List.mem_cons_self)]

/-- Only the arithmetic operators are there, each under its symbol. -/
theorem get?_builtins (s : String) :
    builtins.get? s = (Arithmetic.ofSymbol? s).map Arithmetic.operator := by
  have registered : builtins.get? s =
      if Arithmetic.div.symbol = s then some Arithmetic.div.operator
      else if Arithmetic.mul.symbol = s then some Arithmetic.mul.operator
      else if Arithmetic.sub.symbol = s then some Arithmetic.sub.operator
      else if Arithmetic.add.symbol = s then some Arithmetic.add.operator
      else none := by
    simp only [builtins, registerAll, Arithmetic.all, List.map_cons, List.map_nil, List.foldl_cons,
      List.foldl_nil, get?_register, get?_empty]
    rfl
  rw [registered]
  cases h : Arithmetic.ofSymbol? s with
  | none =>
    have absent (op : Arithmetic) : op.symbol ≠ s := by
      rintro rfl
      rw [Arithmetic.ofSymbol?_symbol] at h
      cases h
    simp [absent]
  | some op =>
    obtain rfl := Arithmetic.symbol_of_ofSymbol? h
    cases op <;> rfl

theorem contains_eq_isSome_get? (r : OperatorRegistry) (s : String) :
    r.contains s = (r.get? s).isSome := by
  simp [contains, get?]

end OperatorRegistry

end FactFormula
