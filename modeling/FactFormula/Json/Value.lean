/-! JSON values as they are read: an object keeps the order and the repetitions of its members. -/
namespace FactFormula.Json

/-- A number is exact when it was written without a point or exponent and fits a machine word. -/
inductive Number where
  | integer (n : Int)
  | float (x : Float)
  deriving DecidableEq

def Number.toFloat : Number → Float
  | .integer n => Float.ofInt n
  | .float x => x

inductive Value where
  | null
  | bool (b : Bool)
  | number (n : Number)
  | string (s : String)
  | array (items : List Value)
  | object (members : List (String × Value))

/-- Puts a member before the first greater key. A key that is there already keeps its value. -/
def insertMember (key : String) (v : Value) : List (String × Value) → List (String × Value)
  | [] => [(key, v)]
  | (k, w) :: rest =>
    if key < k then (key, v) :: (k, w) :: rest
    else if key = k then (k, w) :: rest
    else (k, w) :: insertMember key v rest

mutual

/-- Members in increasing order of their keys, and of the members of one key the last. -/
def Value.normalize : Value → Value
  | .null => .null
  | .bool b => .bool b
  | .number n => .number n
  | .string s => .string s
  | .array items => .array (normalizeItems items)
  | .object members => .object (normalizeMembers members)

def normalizeItems : List Value → List Value
  | [] => []
  | v :: rest => v.normalize :: normalizeItems rest

def normalizeMembers : List (String × Value) → List (String × Value)
  | [] => []
  | (key, v) :: rest => insertMember key v.normalize (normalizeMembers rest)

end

/-- The value of a key, if exactly one member has it. -/
def sole? (key : String) (members : List (String × α)) : Option α :=
  match members.filter (·.1 == key) with
  | [(_, v)] => some v
  | _ => none

end FactFormula.Json
