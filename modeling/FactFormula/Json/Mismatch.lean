import FactFormula.Decimal.Layout
import FactFormula.Json.Value
import FactFormula.Text.Quoted

/-! Why a well-formed JSON value is not what was asked for. -/
namespace FactFormula.Json

/-- What was asked for. -/
inductive Expected where
  | string
  | word
  | number
  | sequence
  | record (name : String)
  deriving DecidableEq

def Expected.text : Expected → String
  | .string => "a string"
  | .word => "u32"
  | .number => "f64"
  | .sequence => "a sequence"
  | .record name => "struct " ++ name

/-- What a value looks like from outside. -/
inductive Found where
  | null
  | boolean (b : Bool)
  | integer (n : Int)
  | float (x : Float)
  | string (s : String)
  | sequence
  | map
  deriving DecidableEq

def Value.found : Value → Found
  | .null => .null
  | .bool b => .boolean b
  | .number (.integer n) => .integer n
  | .number (.float x) => .float x
  | .string s => .string s
  | .array _ => .sequence
  | .object _ => .map

def Found.text : Found → String
  | .null => "null"
  | .boolean b => "boolean `" ++ (if b then "true" else "false") ++ "`"
  | .integer n => "integer `" ++ String.ofList (Decimal.integer n) ++ "`"
  | .float x => "floating point `" ++ Decimal.json.text x ++ "`"
  | .string s => "string " ++ Text.quoted s
  | .sequence => "sequence"
  | .map => "map"

inductive Mismatch where
  | missingField (key : String)
  | duplicateField (key : String)
  /-- A list of `length` items for a record of `wanted` fields. -/
  | tooShort (length : Nat) (record : String) (wanted : Nat)
  | tooLong (length : Nat)
  | wrongType (found : Found) (expected : Expected)
  | outOfRange (found : Found) (expected : Expected)
  /-- No form of an operand fits. -/
  | noOperand
  deriving DecidableEq

def natText (n : Nat) : String := String.ofList (Decimal.natural n)

def Mismatch.text : Mismatch → String
  | .missingField key => "missing field `" ++ key ++ "`"
  | .duplicateField key => "duplicate field `" ++ key ++ "`"
  | .tooShort length record wanted =>
    "invalid length " ++ natText length ++ ", expected struct " ++ record ++ " with " ++
      natText wanted ++ " elements"
  | .tooLong length => "invalid length " ++ natText length ++ ", expected fewer elements in array"
  | .wrongType found expected => "invalid type: " ++ found.text ++ ", expected " ++ expected.text
  | .outOfRange found expected => "invalid value: " ++ found.text ++ ", expected " ++ expected.text
  | .noOperand => "data did not match any variant of untagged enum Operand"

end FactFormula.Json
