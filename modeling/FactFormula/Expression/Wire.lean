import FactFormula.Expression.Basic
import FactFormula.Hash.Sha256
import FactFormula.Json.Printer
import FactFormula.Json.Record

/-!
Formulas in JSON. A string is an attribute, a number a literal, and an operation is an object with
the members `fn`, `a` and `b`, or a list of these three.
-/
namespace FactFormula
open Json

/-- A literal that is not finite has no number in JSON. -/
def literalValue (x : Float) : Value := if x.isFinite then .number (.float x) else .null

def Operand.toValue : Operand → Value
  | .attribute name => .string name
  | .literal x => literalValue x
  | .node op a b => .object [("fn", .string op), ("a", a.toValue), ("b", b.toValue)]

def Expression.toValue (e : Expression) : Value := e.toOperand.toValue

def Document.toValue (d : Document) : Value :=
  .object [("expression", d.expression.toValue), ("security", .string d.security)]

/-- The compact text with sorted members. -/
def Expression.canonicalText (e : Expression) : String := e.toValue.normalize.text

/-- The digest of the canonical text. -/
def Expression.hash (e : Expression) : String := Sha256.hex e.canonicalText.toUTF8.toList

def string? : Value → Option String
  | .string s => some s
  | _ => none

mutual

/-- What a value is as an operand. Of the members `fn`, `a` and `b` there is one each. -/
def operand? : Value → Option Operand
  | .string s => some (.attribute s)
  | .number n => some (.literal n.toFloat)
  | .array [op, a, b] => do return .node (← string? op) (← operand? a) (← operand? b)
  | .object members => do
    let operands := memberOperands members
    let op ← string? (← sole? "fn" members)
    let a ← (← sole? "a" operands)
    let b ← (← sole? "b" operands)
    return .node op a b
  | _ => none

def memberOperands : List (String × Value) → List (String × Option Operand)
  | [] => []
  | (key, v) :: rest => (key, operand? v) :: memberOperands rest

end

def Operand.ofValue (v : Value) : Except Mismatch Operand :=
  match operand? v with
  | some o => .ok o
  | none => .error .noOperand

def Operand.format : Format Operand := .matched Operand.ofValue

def Expression.record : Record (Option String × Option Operand × Option Operand) Expression where
  name := "Expression"
  fields := [
    Format.string.field "fn" (·.1) fun op s => (some op, s.2),
    Operand.format.field "a" (·.2.1) fun a s => (s.1, some a, s.2.2),
    Operand.format.field "b" (·.2.2) fun b s => (s.1, s.2.1, some b)]
  vacant := (none, none, none)
  build s := do
    return ⟨← required "fn" s.1, ← required "a" s.2.1, ← required "b" s.2.2⟩

def Expression.format : Format Expression := Expression.record.format

def Document.record : Record (Option Expression × Option String) Document where
  name := "DslDocument"
  fields := [
    Expression.format.field "expression" (·.1) fun e s => (some e, s.2),
    Format.string.field "security" (·.2) fun t s => (s.1, some t)]
  vacant := (none, none)
  build s := do return ⟨← required "expression" s.1, ← required "security" s.2⟩

def Document.format : Format Document := Document.record.format

end FactFormula
