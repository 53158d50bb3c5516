import FactFormula.Json.Format

/-!
Records in JSON: an object with a member for each field, or a list of the fields in their order.
Members that are no fields are ignored.
-/
namespace FactFormula.Json

/-- One field of a record. `σ` holds the fields that have been read. -/
structure Field (σ : Type) where
  key : String
  isFilled : σ → Bool
  ofValue : Value → σ → Except Mismatch σ
  read : (room : Nat) → List Char → σ → Except Fault (σ × List Char)

def Format.field (f : Format β) (key : String) (get : σ → Option β) (put : β → σ → σ) :
    Field σ where
  key := key
  isFilled slots := (get slots).isSome
  ofValue v slots := do return put (← f.ofValue v) slots
  read room s slots := do
    let (b, rest) ← f.read room s
    return (put b slots, rest)

def required (key : String) (slot : Option β) : Except Mismatch β :=
  match slot with
  | some b => .ok b
  | none => .error (.missingField key)

structure Record (σ : Type) (α : Type) where
  name : String
  fields : List (Field σ)
  vacant : σ
  build : σ → Except Mismatch α

variable {σ : Type} {α : Type}

def Record.field? (r : Record σ α) (key : String) : Option (Field σ) :=
  r.fields.find? (·.key == key)

def Record.fillMembers (r : Record σ α) (slots : σ) : List (String × Value) → Except Mismatch σ
  | [] => .ok slots
  | (key, v) :: rest =>
    match r.field? key with
    | none => r.fillMembers slots rest
    | some f =>
      if f.isFilled slots then .error (.duplicateField key)
      else do r.fillMembers (← f.ofValue v slots) rest

/-- Fills `fields` from `items`; `count` items have gone before. -/
def Record.fillItems (r : Record σ α) (slots : σ) (count : Nat) :
    List (Field σ) → List Value → Except Mismatch σ
  | [], [] => .ok slots
  | [], items => .error (.tooLong (count + items.length))
  | _ :: _, [] => .error (.tooShort count r.name r.fields.length)
  | f :: fields, v :: items => do
    r.fillItems (← f.ofValue v slots) (count + 1) fields items

def Record.ofValue (r : Record σ α) : Value → Except Mismatch α
  | .array items => do r.build (← r.fillItems r.vacant 0 r.fields items)
  | .object members => do r.build (← r.fillMembers r.vacant members)
  | v => unlike (.record r.name) v

def Record.readMembers (r : Record σ α) (room fuel : Nat) (first : Bool) (slots : σ)
    (s : List Char) : Except Fault (σ × List Char) :=
  match fuel with
  | 0 => .error (peeked .objectEnded s)
  | fuel + 1 => do
    match ← nextKey first s with
    | .closed rest => return (slots, rest)
    | .part key rest =>
      match r.field? key with
      | none => r.readMembers room fuel false slots (← skipValue (← readColon rest))
      | some f =>
        if f.isFilled slots then .error (.floating (.duplicateField key) rest)
        else
          let (slots, rest) ← f.read room (← readColon rest) slots
          r.readMembers room fuel false slots rest

/-- The end of a list of which nothing more is wanted. -/
def endList (s : List Char) : Except Fault (List Char) :=
  match skipBlank s with
  | [] => .error (peeked .listEnded [])
  | ']' :: rest => .ok rest
  | ',' :: rest =>
    match skipBlank rest with
    | ']' :: rest => .error (peeked .trailingComma (']' :: rest))
    | rest => .error (peeked .trailingCharacters rest)
  | rest => .error (peeked .trailingCharacters rest)

/-- Reads `fields` from the items of a list, of which `count` have been read. -/
def Record.readItems (r : Record σ α) (room count : Nat) (slots : σ) (s : List Char) :
    List (Field σ) → Except Fault (σ × List Char)
  | [] => do return (slots, ← endList s)
  | f :: fields => do
    match ← nextItem (count == 0) s with
    | .closed rest => .error (after (.mismatch (.tooShort count r.name r.fields.length)) rest)
    | .part _ rest =>
      let (slots, rest) ← f.read room rest slots
      r.readItems room (count + 1) slots rest fields

def Record.read (r : Record σ α) (room : Nat) (s : List Char) : Except Fault (α × List Char) :=
  match skipBlank s with
  | '[' :: rest => enter room ('[' :: rest) fun room => closeList do
    let (slots, rest) ← r.readItems room 0 r.vacant rest r.fields
    settle (r.build slots) rest
  | '\x7b' :: rest => enter room ('\x7b' :: rest) fun room => closeObject do
    let (slots, rest) ← r.readMembers room (rest.length + 1) true r.vacant rest
    settle (r.build slots) rest
  | s => readSimple (unlike (.record r.name)) s

def Record.format (r : Record σ α) : Format α where
  ofValue := r.ofValue
  read := r.read

end FactFormula.Json
