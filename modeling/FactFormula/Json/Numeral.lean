import FactFormula.Json.Fault

/-!
Reading numbers. A number without point and exponent that fits a machine word is exact. Any other
is a significand below `2 ^ 64`, made of the leading digits, times a power of ten; both steps of
that product round.
-/
namespace FactFormula.Json

def digitValue (c : Char) : Nat := c.toNat - '0'.toNat

def digits (s : List Char) : List Char := s.takeWhile Char.isDigit

def afterDigits (s : List Char) : List Char := s.dropWhile Char.isDigit

/-- `2 ^ 64` -/
def significandLimit : Nat := 0x10000000000000000

/-- Appends digits to a significand for as long as it stays below the limit, and counts them. -/
def appendDigits (m : Nat) : List Char → Nat × Nat
  | [] => (m, 0)
  | c :: rest =>
    if 10 * m + digitValue c < significandLimit then
      let (n, count) := appendDigits (10 * m + digitValue c) rest
      (n, count + 1)
    else (m, 0)

def powerOfTen (n : Nat) : Float := Float.ofScientific 1 false n

/-- `x` divided by `10 ^ 308` as often as told, or until nothing is left of it. -/
def divideOften (x : Float) : Nat → Float
  | 0 => x
  | n + 1 => if x == 0 then x else divideOften (x / powerOfTen 308) n

/-- `x / 10 ^ n`, in steps of `10 ^ 308`. -/
def divideByPower (x : Float) (n : Nat) : Float :=
  divideOften x (n / 308) / powerOfTen (n % 308)

/-- `m * 10 ^ e`; none if that is beyond the greatest finite number. -/
def scale? (m : Nat) (e : Int) : Option Float :=
  let x := Float.ofNat m
  if e < 0 then some (divideByPower x e.natAbs)
  else if e ≤ 308 then
    let y := x * powerOfTen e.natAbs
    if y.isInf then none else some y
  else if m = 0 then some x
  else none

def signed (negative : Bool) (x : Float) : Float := if negative then -x else x

/-- The significand of a numeral that has a point, an exponent or too many digits. -/
structure Significand where
  negative : Bool
  value : Nat
  /-- The power of ten it is to be multiplied with. -/
  exponent : Int

def Significand.finish (m : Significand) (e : Int) (rest : List Char) :
    Except Fault (Number × List Char) :=
  match scale? m.value (m.exponent + e) with
  | some x => .ok (.float (signed m.negative x), rest)
  | none => .error (after .numberOutOfRange rest)

/-- The digits of an exponent: their value, or nothing once it exceeds `2 ^ 31 - 1`, and what
follows the last digit looked at. -/
def exponentValue (e : Nat) : List Char → Option Nat × List Char
  | [] => (some e, [])
  | c :: rest =>
    if c.isDigit then
      if 10 * e + digitValue c < 0x80000000 then exponentValue (10 * e + digitValue c) rest
      else (none, rest)
    else (some e, c :: rest)

def exponentSign : List Char → Bool × List Char
  | '+' :: rest => (false, rest)
  | '-' :: rest => (true, rest)
  | rest => (false, rest)

/-- What follows the letter of an exponent. An exponent that is too large to hold makes zero of
every number when it is negative, and of zero always. -/
def Significand.exponentPart (m : Significand) (s : List Char) : Except Fault (Number × List Char) :=
  let (below, s) := exponentSign s
  match s with
  | [] => .error (after .valueEnded [])
  | c :: _ =>
    if c.isDigit then
      match exponentValue 0 s with
      | (some e, rest) => m.finish (if below then -(e : Int) else e) rest
      | (none, rest) =>
        if m.value ≠ 0 ∧ ¬ below then .error (after .numberOutOfRange rest)
        else .ok (.float (signed m.negative 0), afterDigits rest)
    else .error (peeked .invalidNumber s)

def isExponentMark (c : Char) : Bool := c == 'e' || c == 'E'

def Significand.tail (m : Significand) (s : List Char) : Except Fault (Number × List Char) :=
  match s with
  | [] => m.finish 0 []
  | c :: rest => if isExponentMark c then m.exponentPart rest else m.finish 0 s

/-- What follows the point. -/
def Significand.fractionPart (m : Significand) (s : List Char) :
    Except Fault (Number × List Char) :=
  let rest := afterDigits s
  if (digits s).isEmpty then
    .error (peeked (if rest.isEmpty then .valueEnded else .invalidNumber) rest)
  else
    let (n, count) := appendDigits m.value (digits s)
    { m with value := n, exponent := m.exponent - count : Significand }.tail rest

/-- A number without point and exponent. There is no exact negative zero. -/
def whole (negative : Bool) (n : Nat) : Number :=
  if negative then
    if n = 0 ∨ 0x8000000000000000 < n then .float (-Float.ofNat n) else .integer (-(n : Int))
  else .integer n

/-- The digits before the point and all that belongs to the number behind them. -/
def magnitude (negative : Bool) (s : List Char) : Except Fault (Number × List Char) :=
  let (n, count) := appendDigits 0 (digits s)
  let m : Significand := ⟨negative, n, (digits s).length - count⟩
  let rest := afterDigits s
  match rest with
  | '.' :: fraction => m.fractionPart fraction
  | c :: _ =>
    if count = (digits s).length ∧ ¬ isExponentMark c then .ok (whole negative n, rest)
    else m.tail rest
  | [] => if count = (digits s).length then .ok (whole negative n, []) else m.tail []

/-- A number without its sign. A zero is not followed by another digit. -/
def unsignedNumber (negative : Bool) (s : List Char) : Except Fault (Number × List Char) :=
  match s with
  | [] => .error (after .valueEnded [])
  | '0' :: c :: rest =>
    if c.isDigit then .error (peeked .invalidNumber (c :: rest)) else magnitude negative s
  | c :: _ => if c.isDigit then magnitude negative s else .error (peeked .invalidNumber s)

/-- Reads the number at the head of the text. -/
def readNumber : List Char → Except Fault (Number × List Char)
  | '-' :: s => unsignedNumber true s
  | s => unsignedNumber false s

end FactFormula.Json
