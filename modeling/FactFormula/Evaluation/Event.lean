import FactFormula.Decimal.Layout
import FactFormula.Facts.Source

/-! What an evaluation reports while it runs. The failure it ends with does not tell its cause; this does. -/
namespace FactFormula

inductive Level where
  | info
  | debug
  | trace
  deriving DecidableEq, Repr

inductive Event where
  | securityNotResolved (error : LookupError)
  | operandNotResolved (name : String) (securityId : SecurityId) (error : LookupError)
  | unknownOperator (symbol : String)
  | noFiniteValue (symbol : String) (a b : Float)
  | nodeEvaluated (symbol : String) (a b : Float) (result : Option Float)
  deriving DecidableEq

/-- A value that comes with a message. -/
inductive FieldValue where
  | text (s : String)
  | number (x : Float)
  deriving DecidableEq

/-- A message of the log. -/
structure Message where
  level : Level
  text : String
  fields : List (String × FieldValue)
  deriving DecidableEq

def resultText : Option Float → String
  | none => "None"
  | some x => "Some(" ++ Decimal.logged.text x ++ ")"

def Event.message : Event → Message
  | .securityNotResolved error => ⟨.debug, "security not resolved", [("error", .text error.text)]⟩
  | .operandNotResolved name securityId error =>
    ⟨.debug, "operand not resolved",
      [("attribute", .text name), ("security_id", .text (wordText securityId)),
        ("error", .text error.text)]⟩
  | .unknownOperator symbol => ⟨.debug, "unknown operator", [("op", .text symbol)]⟩
  | .noFiniteValue symbol a b =>
    ⟨.debug, "operator produced no finite value",
      [("op", .text symbol), ("a", .number a), ("b", .number b)]⟩
  | .nodeEvaluated symbol a b result =>
    ⟨.trace, "node evaluated",
      [("op", .text symbol), ("a", .number a), ("b", .number b),
        ("result", .text (resultText result))]⟩

end FactFormula
