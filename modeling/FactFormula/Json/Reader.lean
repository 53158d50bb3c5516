import FactFormula.Json.Numeral
import FactFormula.Json.Quoted

/-!
Reading JSON values. Every reader takes the text from where it stands and gives back what follows
the part it has read. A container counts against `room`, the number of containers that may still be
opened inside one another.
-/
namespace FactFormula.Json

def isBlank (c : Char) : Bool := c == ' ' || c == '\t' || c == '\n' || c == '\r'

def skipBlank (s : List Char) : List Char := s.dropWhile isBlank

/-- The rest of a literal name. -/
def readName : List Char → List Char → Except Fault (List Char)
  | [], s => .ok s
  | _ :: _, [] => .error (after .valueEnded [])
  | c :: name, d :: s => if c = d then readName name s else .error (peeked .expectedIdent (d :: s))

/-- Reads a string, from its opening quote on. -/
def readText (s : List Char) : Except Fault (String × List Char) := do
  let (cs, rest) ← readQuoted s
  return (String.ofList cs, rest)

/-- Reads the value at the head of the text if it is no container. -/
def readScalar (s : List Char) : Except Fault (Value × List Char) :=
  match s with
  | 'n' :: rest => do return (.null, ← readName ['u', 'l', 'l'] rest)
  | 't' :: rest => do return (.bool true, ← readName ['r', 'u', 'e'] rest)
  | 'f' :: rest => do return (.bool false, ← readName ['a', 'l', 's', 'e'] rest)
  | '"' :: rest => do
    let (t, rest) ← readText rest
    return (.string t, rest)
  | c :: _ =>
    if c = '-' ∨ c.isDigit then do
      let (n, rest) ← readNumber s
      return (.number n, rest)
    else .error (peeked .expectedValue s)
  | [] => .error (peeked .valueEnded [])

/-- What stands before the next part of a container. -/
inductive Next (α : Type) where
  /-- The container is closed. -/
  | closed (rest : List Char)
  | part (a : α) (rest : List Char)

/-- Goes to the next item of a list. -/
def nextItem (first : Bool) (s : List Char) : Except Fault (Next Unit) :=
  match skipBlank s with
  | [] => .error (peeked .listEnded [])
  | ']' :: rest => .ok (.closed rest)
  | c :: rest =>
    if first then .ok (.part () (c :: rest))
    else if c = ',' then
      match skipBlank rest with
      | [] => .error (peeked .valueEnded [])
      | ']' :: rest => .error (peeked .trailingComma (']' :: rest))
      | rest => .ok (.part () rest)
    else .error (peeked .expectedListEnd (c :: rest))

def readKey (s : List Char) : Except Fault (Next String) := do
  let (key, rest) ← readText s
  return .part key rest

/-- Goes to the next member of an object and reads its key. -/
def nextKey (first : Bool) (s : List Char) : Except Fault (Next String) :=
  match skipBlank s with
  | [] => .error (peeked .objectEnded [])
  | '\x7d' :: rest => .ok (.closed rest)
  | c :: rest =>
    if first then
      if c = '"' then readKey rest else .error (peeked .keyNotString (c :: rest))
    else if c = ',' then
      match skipBlank rest with
      | [] => .error (peeked .valueEnded [])
      | '"' :: rest => readKey rest
      | '\x7d' :: rest => .error (peeked .trailingComma ('\x7d' :: rest))
      | rest => .error (peeked .keyNotString rest)
    else .error (peeked .expectedObjectEnd (c :: rest))

def readColon (s : List Char) : Except Fault (List Char) :=
  match skipBlank s with
  | [] => .error (peeked .objectEnded [])
  | ':' :: rest => .ok rest
  | rest => .error (peeked .expectedColon rest)

/-- Reads the items of a list behind its bracket. Every item takes a character, so `fuel` is the
length of the text. -/
def readItems (item : List Char → Except Fault (α × List Char)) (fuel : Nat) (first : Bool)
    (s : List Char) : Except Fault (List α × List Char) :=
  match fuel with
  | 0 => .error (peeked .listEnded s)
  | fuel + 1 => do
    match ← nextItem first s with
    | .closed rest => return ([], rest)
    | .part _ rest =>
      let (a, rest) ← item rest
      let (items, rest) ← readItems item fuel false rest
      return (a :: items, rest)

/-- Reads the members of an object behind its brace, `fuel` as for lists. -/
def readMembers (value : List Char → Except Fault (α × List Char)) (fuel : Nat) (first : Bool)
    (s : List Char) : Except Fault (List (String × α) × List Char) :=
  match fuel with
  | 0 => .error (peeked .objectEnded s)
  | fuel + 1 => do
    match ← nextKey first s with
    | .closed rest => return ([], rest)
    | .part key rest =>
      let rest ← readColon rest
      let (a, rest) ← value rest
      let (members, rest) ← readMembers value fuel false rest
      return ((key, a) :: members, rest)

/-- Reads a value, blanks before it included. -/
def readValue (room : Nat) (s : List Char) : Except Fault (Value × List Char) :=
  let s := skipBlank s
  match room, s with
  | 0, '[' :: _ | 0, '\x7b' :: _ => .error (peeked .tooDeep s)
  | room + 1, '[' :: rest => do
    let (items, rest) ← readItems (readValue room) (rest.length + 1) true rest
    return (.array items, rest)
  | room + 1, '\x7b' :: rest => do
    let (members, rest) ← readMembers (readValue room) (rest.length + 1) true rest
    return (.object members, rest)
  | _, _ => readScalar s

/-- Containers may be nested this deep. -/
def maxDepth : Nat := 127

/-- Reads a whole text: nothing but blanks may follow. -/
def readWhole (read : List Char → Except Fault (α × List Char)) (text : String) :
    Except Error α :=
  let s := text.toList
  match read s with
  | .error f => .error (f.toError s)
  | .ok (a, rest) =>
    match skipBlank rest with
    | [] => .ok a
    | rest => .error ((peeked .trailingCharacters rest).toError s)

/-- Reads a text into a value. -/
def Value.ofText (text : String) : Except Error Value := do
  let v ← readWhole (readValue maxDepth) text
  return v.normalize

end FactFormula.Json
