import FactFormula.Json.Reader

/-!
Passing over values nobody asked for. Their form is checked; sizes of numbers, pairs of escapes and
the depth of nesting are not.
-/
namespace FactFormula.Json

/-- What follows the letter of an exponent. -/
def skipExponent (s : List Char) : Except Fault (List Char) :=
  let (_, s) := exponentSign s
  match s with
  | [] => .error (after .invalidNumber [])
  | c :: rest =>
    if c.isDigit then .ok (afterDigits rest) else .error (peeked .invalidNumber (c :: rest))

def skipExponentPart (s : List Char) : Except Fault (List Char) :=
  match s with
  | [] => .ok []
  | c :: rest => if isExponentMark c then skipExponent rest else .ok s

/-- What follows the digits before the point. -/
def skipFraction (s : List Char) : Except Fault (List Char) :=
  match s with
  | '.' :: s =>
    if (digits s).isEmpty then .error (peeked .invalidNumber s)
    else skipExponentPart (afterDigits s)
  | s => skipExponentPart s

def skipUnsigned (s : List Char) : Except Fault (List Char) :=
  match s with
  | [] => .error (after .invalidNumber [])
  | '0' :: c :: rest =>
    if c.isDigit then .error (peeked .invalidNumber (c :: rest)) else skipFraction (c :: rest)
  | c :: rest =>
    if c.isDigit then skipFraction (afterDigits rest)
    else .error (peeked .invalidNumber (c :: rest))

def skipNumber : List Char → Except Fault (List Char)
  | '-' :: s => skipUnsigned s
  | s => skipUnsigned s

def skipScalar (s : List Char) : Except Fault (List Char) :=
  match s with
  | 'n' :: rest => readName ['u', 'l', 'l'] rest
  | 't' :: rest => readName ['r', 'u', 'e'] rest
  | 'f' :: rest => readName ['a', 'l', 's', 'e'] rest
  | '"' :: rest => skipQuoted rest
  | c :: _ => if c = '-' ∨ c.isDigit then skipNumber s else .error (peeked .expectedValue s)
  | [] => .error (peeked .valueEnded [])

/-- Goes to the next item of a list that is passed over. -/
def skipToItem (first : Bool) (s : List Char) : Except Fault (Next Unit) :=
  match skipBlank s with
  | [] => .error (peeked .listEnded [])
  | ']' :: rest => .ok (.closed rest)
  | c :: rest =>
    if first then .ok (.part () (c :: rest))
    else if c = ',' then .ok (.part () rest)
    else .error (peeked .expectedListEnd (c :: rest))

def skipKey (s : List Char) : Except Fault (List Char) :=
  match skipBlank s with
  | [] => .error (peeked .objectEnded [])
  | '"' :: rest => do readColon (← skipQuoted rest)
  | rest => .error (peeked .keyNotString rest)

/-- Goes to the next member of an object that is passed over, behind its key and colon. -/
def skipToMember (first : Bool) (s : List Char) : Except Fault (Next Unit) :=
  match skipBlank s with
  | [] => .error (peeked .objectEnded [])
  | '\x7d' :: rest => .ok (.closed rest)
  | c :: rest =>
    if first then do return .part () (← skipKey (c :: rest))
    else if c = ',' then do return .part () (← skipKey rest)
    else .error (peeked .expectedObjectEnd (c :: rest))

/-- Passes over the parts of a container. -/
def skipParts (next : Bool → List Char → Except Fault (Next Unit))
    (part : List Char → Except Fault (List Char)) (fuel : Nat) (first : Bool) (s : List Char) :
    Except Fault (List Char) :=
  match fuel with
  | 0 => .error (after .valueEnded s)
  | fuel + 1 => do
    match ← next first s with
    | .closed rest => return rest
    | .part _ rest => skipParts next part fuel false (← part rest)

/-- Passes over a value. Every container in another takes a character, so `fuel` is the length of
the text. -/
def skipNested (fuel : Nat) (s : List Char) : Except Fault (List Char) :=
  let s := skipBlank s
  match fuel, s with
  | fuel + 1, '[' :: rest => skipParts skipToItem (skipNested fuel) (rest.length + 1) true rest
  | fuel + 1, '\x7b' :: rest => skipParts skipToMember (skipNested fuel) (rest.length + 1) true rest
  | _, _ => skipScalar s

def skipValue (s : List Char) : Except Fault (List Char) := skipNested s.length s

end FactFormula.Json
