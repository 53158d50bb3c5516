import FactFormula.Expression.Wire

/-! Reading documents and formulas from text: the text is read as a value, which has to be an object. -/
namespace FactFormula
open Json

/-- A value that is no container, named by its kind. -/
inductive ScalarKind where
  | null
  | boolean
  | number
  | string
  deriving DecidableEq

def ScalarKind.text : ScalarKind → String
  | .null => "null"
  | .boolean => "a boolean"
  | .number => "a number"
  | .string => "a string"

/-- The text is no JSON object at all. -/
inductive TextFault where
  | unreadable (e : Json.Error)
  | scalar (kind : ScalarKind)
  deriving DecidableEq

/-- The text is JSON and has not the shape of a document. -/
inductive ShapeFault where
  | list
  | missing (key : String)
  | mismatch (m : Mismatch)
  deriving DecidableEq

inductive DocumentError where
  | invalidJson (f : TextFault)
  | invalidDsl (f : ShapeFault)
  deriving DecidableEq

def TextFault.text : TextFault → String
  | .unreadable e => e.text
  | .scalar kind => "expected an object, found " ++ kind.text

def ShapeFault.text : ShapeFault → String
  | .list => "expected an object, found an array"
  | .missing key => "missing `" ++ key ++ "`"
  | .mismatch m => m.text

def DocumentError.text : DocumentError → String
  | .invalidJson f => "invalid JSON: " ++ f.text
  | .invalidDsl f => "invalid DSL: " ++ f.text

/-- The members of the object a text holds. -/
def membersOfText (text : String) : Except DocumentError (List (String × Value)) :=
  match Value.ofText text with
  | .ok (.object members) => .ok members
  | .ok (.array _) => .error (.invalidDsl .list)
  | .ok .null => .error (.invalidJson (.scalar .null))
  | .ok (.bool _) => .error (.invalidJson (.scalar .boolean))
  | .ok (.number _) => .error (.invalidJson (.scalar .number))
  | .ok (.string _) => .error (.invalidJson (.scalar .string))
  | .error e => .error (.invalidJson (.unreadable e))

def decode (f : Format α) (members : List (String × Value)) : Except DocumentError α :=
  match f.ofValue (.object members) with
  | .ok a => .ok a
  | .error m => .error (.invalidDsl (.mismatch m))

def Expression.ofText (text : String) : Except DocumentError Expression := do
  decode Expression.format (← membersOfText text)

/-- The keys a document must have, in the order in which they are missed. -/
def Document.keys : List String := ["expression", "security"]

def Document.ofText (text : String) : Except DocumentError Document := do
  let members ← membersOfText text
  match Document.keys.find? fun key => !members.any (·.1 == key) with
  | some key => .error (.invalidDsl (.missing key))
  | none => decode Document.format members

end FactFormula
