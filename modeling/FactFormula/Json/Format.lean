import FactFormula.Json.Skip

/-!
How typed data stands in JSON. A `Format` reads one type in two ways: out of a value, and straight
off the text. Straight off the text every mismatch has a position, and a repeated key is one.
-/
namespace FactFormula.Json

structure Format (α : Type) where
  ofValue : Value → Except Mismatch α
  /-- Reads with `room` for so many nested containers. -/
  read : (room : Nat) → List Char → Except Fault (α × List Char)

/-- The outcome of a reader that has come to `rest`. -/
def settle (outcome : Except Mismatch α) (rest : List Char) : Except Fault (α × List Char) :=
  match outcome with
  | .ok a => .ok (a, rest)
  | .error m => .error (after (.mismatch m) rest)

/-- Reads a value that is no container. A container that stands there is not entered. -/
def readSimple (ofValue : Value → Except Mismatch α) (s : List Char) :
    Except Fault (α × List Char) :=
  match skipBlank s with
  | '[' :: rest => settle (ofValue (.array [])) ('[' :: rest)
  | '\x7b' :: rest => settle (ofValue (.object [])) ('\x7b' :: rest)
  | s => do
    let (v, rest) ← readScalar s
    settle (ofValue v) rest

def Format.simple (ofValue : Value → Except Mismatch α) : Format α where
  ofValue := ofValue
  read _ s := readSimple ofValue s

def Format.string : Format String := .simple fun
  | .string s => .ok s
  | v => .error (.wrongType v.found .string)

/-- Whole numbers below `2 ^ 32`. -/
def Format.word : Format UInt32 := .simple fun
  | .number (.integer n) =>
    if 0 ≤ n ∧ n < 0x100000000 then .ok (UInt32.ofNat n.toNat)
    else .error (.outOfRange (.integer n) .word)
  | v => .error (.wrongType v.found .word)

def Format.number : Format Float := .simple fun
  | .number n => .ok n.toFloat
  | v => .error (.wrongType v.found .number)

/-- A fault that floats out of a list is placed where the list ends, or behind the comma that
follows. -/
def closeList : Except Fault α → Except Fault α
  | .error (.floating m rest) =>
    match skipBlank rest with
    | ']' :: rest => .error (after (.mismatch m) rest)
    | ',' :: rest => .error (after (.mismatch m) (skipBlank rest))
    | rest => .error (after (.mismatch m) rest)
  | outcome => outcome

/-- A fault that floats out of an object is placed where the object ends, if it ends there. -/
def closeObject : Except Fault α → Except Fault α
  | .error (.floating m rest) =>
    match skipBlank rest with
    | '\x7d' :: rest => .error (after (.mismatch m) rest)
    | rest => .error (after (.mismatch m) rest)
  | outcome => outcome

/-- Opens a container if there is room for it. -/
def enter (room : Nat) (s : List Char) (inside : Nat → Except Fault α) : Except Fault α :=
  match room with
  | 0 => .error (peeked .tooDeep s)
  | room + 1 => inside room

/-- Refuses every value. -/
def unlike (expected : Expected) (v : Value) : Except Mismatch α :=
  .error (.wrongType v.found expected)

def Format.list (item : Format α) : Format (List α) where
  ofValue
    | .array items => items.mapM item.ofValue
    | v => unlike .sequence v
  read room s :=
    match skipBlank s with
    | '[' :: rest => enter room ('[' :: rest) fun room =>
      closeList (readItems (item.read room) (rest.length + 1) true rest)
    | s => readSimple (unlike .sequence) s

/-- A format that says nothing about positions of its own: it is read as a value and then matched. -/
def Format.matched (ofValue : Value → Except Mismatch α) : Format α where
  ofValue := ofValue
  read room s := do
    let (v, rest) ← readValue room s
    match ofValue v with
    | .ok a => return (a, rest)
    | .error m => .error (.floating m rest)

def Format.ofText (f : Format α) (text : String) : Except Error α :=
  readWhole (f.read maxDepth) text

end FactFormula.Json
