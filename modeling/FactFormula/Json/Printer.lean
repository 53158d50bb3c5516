import FactFormula.Json.Quoted

/-! The compact text of a JSON value: no blanks, members in the order they have. -/
namespace FactFormula.Json

def Number.chars : Number → List Char
  | .integer n => Decimal.integer n
  | .float x => Decimal.json.chars x

mutual

def Value.chars : Value → List Char
  | .null => ['n', 'u', 'l', 'l']
  | .bool true => ['t', 'r', 'u', 'e']
  | .bool false => ['f', 'a', 'l', 's', 'e']
  | .number n => n.chars
  | .string s => quote s.toList
  | .array items => '[' :: itemChars items
  | .object members => '\x7b' :: memberChars members

/-- Items with commas between them, and the closing bracket. -/
def itemChars : List Value → List Char
  | [] => [']']
  | [v] => v.chars ++ [']']
  | v :: rest => v.chars ++ ',' :: itemChars rest

/-- Members with commas between them, and the closing brace. -/
def memberChars : List (String × Value) → List Char
  | [] => ['\x7d']
  | [(key, v)] => quote key.toList ++ ':' :: v.chars ++ ['\x7d']
  | (key, v) :: rest => quote key.toList ++ ':' :: v.chars ++ ',' :: memberChars rest

end

def Value.text (v : Value) : String := String.ofList v.chars

end FactFormula.Json
