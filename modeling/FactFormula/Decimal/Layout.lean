import FactFormula.Decimal.Shortest

/-! How numbers are written: the digits come from `Decimal.shortest`, their arrangement from a `Layout`. -/
namespace FactFormula.Decimal

/-- The decisions of a number format. A number `d.ddd * 10 ^ e` is written without an exponent
when `least ≤ e ≤ most`; a missing bound is no bound. -/
structure Layout where
  least : Option Int
  most : Option Int
  /-- What follows the digits of a whole number that is written without an exponent. -/
  wholeMark : List Char
  /-- What precedes the digits of an exponent that is not negative. -/
  exponentMark : List Char
  tie : Tie

def natural (n : Nat) : List Char := Nat.toDigits 10 n

def integer (n : Int) : List Char :=
  if n < 0 then '-' :: natural n.natAbs else natural n.natAbs

def dropTrailingZeros (digits : List Char) : List Char :=
  (digits.reverse.dropWhile (· == '0')).reverse

def zeros (n : Nat) : List Char := List.replicate n '0'

def Layout.isPositional (l : Layout) (e : Int) : Bool :=
  l.least.all (· ≤ e) && l.most.all (e ≤ ·)

/-- `digits` with the point after the digit of weight `10 ^ 0`, the first having weight `10 ^ e`. -/
def Layout.positional (l : Layout) (digits : List Char) (e : Int) : List Char :=
  if e < 0 then '0' :: '.' :: zeros (-e - 1).toNat ++ digits
  else
    let whole := e.toNat + 1
    if digits.length ≤ whole then digits ++ zeros (whole - digits.length) ++ l.wholeMark
    else digits.take whole ++ '.' :: digits.drop whole

def Layout.scientific (l : Layout) (digits : List Char) (e : Int) : List Char :=
  let tail := digits.drop 1
  digits.take 1 ++ (if tail.isEmpty then [] else '.' :: tail) ++
    'e' :: (if e < 0 then integer e else l.exponentMark ++ integer e)

def Layout.magnitude (l : Layout) (x : Float) : List Char :=
  let d := shortest l.tie x
  if d.coefficient = 0 then '0' :: l.wholeMark
  else
    let all := natural d.coefficient
    let e := d.exponent + all.length - 1
    let digits := dropTrailingZeros all
    if l.isPositional e then l.positional digits e else l.scientific digits e

def isNegative (x : Float) : Bool := x.toBits.toNat / signPlace % 2 == 1

/-- The text of a finite number; a negative zero keeps its sign. -/
def Layout.chars (l : Layout) (x : Float) : List Char :=
  if isNegative x then '-' :: l.magnitude x else l.magnitude x

def Layout.text (l : Layout) (x : Float) : String := String.ofList (l.chars x)

/-- Numbers in JSON: at least one place after the point, an exponent with its sign beyond
`10 ^ 15` and below `10 ^ -5`, a half to the even digit. -/
def json : Layout := ⟨some (-5), some 15, ['.', '0'], ['+'], .toEven⟩

/-- Results: never an exponent, a whole number without a point, a half upward. -/
def result : Layout := ⟨none, none, [], [], .upward⟩

/-- Numbers in the log: at least one place after the point, an exponent beyond `10 ^ 15` and below
`10 ^ -4`, a half upward. -/
def logged : Layout := ⟨some (-4), some 15, ['.', '0'], [], .upward⟩

example : json.chars 2 = ['2', '.', '0'] := by decide +kernel
example : json.chars 1e16 = ['1', 'e', '+', '1', '6'] := by decide +kernel
example : json.chars 5e-324 = ['5', 'e', '-', '3', '2', '4'] := by decide +kernel
example : result.chars (-0.0) = ['-', '0'] := by decide +kernel
example : result.chars 0.1 = ['0', '.', '1'] := by decide +kernel
example : logged.chars 3.3e-6 = ['3', '.', '3', 'e', '-', '6'] := by decide +kernel

end FactFormula.Decimal
