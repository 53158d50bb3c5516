/-!
The shortest decimal of a binary64 number: of all decimals that round to the number it has the
fewest digits, and of those it is the nearest.
-/
namespace FactFormula.Decimal

/-- `coefficient * 10 ^ exponent`. -/
structure Scaled where
  coefficient : Nat
  exponent : Int
  deriving DecidableEq, Repr

/-- Which neighbour is taken when two are equally near. -/
inductive Tie where
  | toEven
  | upward
  deriving DecidableEq, Repr

/-- The positive reals that round to one number. All bounds are numerators over `den`; the two
ends belong to the interval when `closed`. -/
structure Interval where
  low : Nat
  value : Nat
  high : Nat
  den : Nat
  closed : Bool
  deriving DecidableEq, Repr

/-- `2 ^ 52`, the significand of the least normal number. -/
def normalSignificand : Nat := 0x10000000000000

/-- `2 ^ 63`, the place of the sign. -/
def signPlace : Nat := 0x8000000000000000

/-- The interval of the number whose sign-free bits are `bits`. Everything is counted in quarters
of the last binary place; below a power of two the gap to the next number is half as wide. -/
def Interval.ofBits (bits : Nat) : Interval :=
  let fraction := bits % normalSignificand
  let scale := bits / normalSignificand
  let significand := if scale = 0 then fraction else normalSignificand + fraction
  let place : Int := (max scale 1 : Nat) - 1077
  let below := if fraction = 0 ∧ 1 < scale then 1 else 2
  let up := Nat.pow 2 place.toNat
  { low := (4 * significand - below) * up
    value := 4 * significand * up
    high := (4 * significand + 2) * up
    den := Nat.pow 2 (-place).toNat
    closed := significand % 2 = 0 }

def digitCount (n : Nat) : Nat := (Nat.toDigits 10 n).length

/-- The `e` with `10 ^ e ≤ value / den < 10 ^ (e + 1)`. -/
def Interval.leadingExponent (v : Interval) : Int :=
  if v.den ≤ v.value then (digitCount (v.value / v.den) : Int) - 1
  else -(digitCount ((v.den - 1) / v.value) : Int)

/-- The multiple of `10 ^ e` that lies in the interval, if one does; of two, the nearer. Only the
two neighbours of the value can be nearest. -/
def Interval.onGrid (v : Interval) (tie : Tie) (e : Int) : Option Nat :=
  let up := Nat.pow 10 (-e).toNat
  let unit := v.den * Nat.pow 10 e.toNat
  let k := v.value * up / unit
  let inside (a b : Nat) : Bool := a < b || (v.closed && a = b)
  match inside (v.low * up) (k * unit), inside ((k + 1) * unit) (v.high * up) with
  | true, false => some k
  | false, true => some (k + 1)
  | false, false => none
  | true, true =>
    match compare (2 * v.value * up) ((2 * k + 1) * unit) with
    | .lt => some k
    | .gt => some (k + 1)
    | .eq =>
      match tie with
      | .toEven => some (if k % 2 = 0 then k else k + 1)
      | .upward => some (k + 1)

/-- Seventeen digits tell all numbers apart, so one of the grids has a hit. -/
def Interval.shortest (v : Interval) (tie : Tie) : Scaled :=
  let grid (n : Nat) : Int := v.leadingExponent - n
  ((List.range 17).findSome? fun n => (v.onGrid tie (grid n)).map (⟨·, grid n⟩)).getD ⟨0, 0⟩

/-- The shortest decimal of the magnitude of a finite number. -/
def shortest (tie : Tie) (x : Float) : Scaled :=
  let bits := x.toBits.toNat % signPlace
  if bits = 0 then ⟨0, 0⟩ else (Interval.ofBits bits).shortest tie

end FactFormula.Decimal
