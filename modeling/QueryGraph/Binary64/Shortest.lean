import QueryGraph.Binary64.Basic

/-!
# Shortest decimal text

A finite number is written with the fewest digits that read back as the same
number. The candidates of each length are the two neighbours of the exact value
on the grid of that length; the first length with a neighbour inside the
rounding interval wins, and of two such neighbours the nearer one.
-/

namespace QueryGraph
namespace Binary64

/-- A decimal number `digits * 10 ^ exponent` without sign. -/
structure Decimal where
  digits : Nat
  exponent : Int
  deriving DecidableEq, Repr

/-- The reals that round to a finite number, as three numerators over one
denominator. The ends belong to the interval when the significand is even. -/
structure Interval where
  low : Nat
  centre : Nat
  high : Nat
  denominator : Nat
  closed : Bool

/-- The rounding interval of `significand * 2 ^ exponent`. Below a power of two
the step to the next smaller number is half as wide. -/
def Interval.ofFinite
    (significand : Nat)
    (exponent : Int) : Interval :=
  let narrow := significand == leadingBit && leastExponent < exponent
  let grow (quarters : Nat) : Nat :=
    if exponent < 0 then quarters else quarters * Nat.pow 2 exponent.natAbs
  { low := grow (4 * significand - (if narrow then 1 else 2))
    centre := grow (4 * significand)
    high := grow (4 * significand + 2)
    denominator := if exponent < 0 then 4 * Nat.pow 2 exponent.natAbs else 4
    closed := significand % 2 == 0 }

/-- The same interval with every bound divided by `10 ^ power`. -/
def Interval.scale
    (interval : Interval)
    (power : Int) : Interval :=
  if power < 0 then
    let factor := Nat.pow 10 power.natAbs
    { interval with
      low := interval.low * factor
      centre := interval.centre * factor
      high := interval.high * factor }
  else
    { interval with denominator := interval.denominator * Nat.pow 10 power.natAbs }

/-- Whether a grid point lies in the interval. -/
def Interval.contains
    (interval : Interval)
    (point : Nat) : Bool :=
  let scaled := point * interval.denominator
  if interval.closed then interval.low ≤ scaled && scaled ≤ interval.high
  else interval.low < scaled && scaled < interval.high

/-- The grid point that stands for the interval, if a neighbour of its centre
lies inside. An exact tie goes up. -/
def Interval.candidate (interval : Interval) : Option Nat :=
  let below := interval.centre / interval.denominator
  let remainder := interval.centre % interval.denominator
  match interval.contains below, interval.contains (below + 1) with
  | true, true =>
      some (if 2 * remainder < interval.denominator then below else below + 1)
  | true, false => some below
  | false, true => some (below + 1)
  | false, false => none

/-- Tries ever finer grids, starting at the given power of ten. -/
def Interval.search
    (interval : Interval) : (attempts : Nat) -> (power : Int) -> Option Decimal
  | 0, _ => none
  | attempts + 1, power =>
      match (interval.scale power).candidate with
      | some digits => if digits == 0 then interval.search attempts (power - 1)
          else some ⟨digits, power⟩
      | none => interval.search attempts (power - 1)

/-- Removes the trailing zeros of a decimal number. -/
def Decimal.trim : (attempts : Nat) -> Decimal -> Decimal
  | 0, decimal => decimal
  | attempts + 1, decimal =>
      if decimal.digits % 10 == 0 && decimal.digits != 0 then
        Decimal.trim attempts ⟨decimal.digits / 10, decimal.exponent + 1⟩
      else decimal

/-- The shortest decimal number that reads back as `significand * 2 ^ exponent`.
The search starts above the leading digit and always succeeds within the
seventeen digits that tell any two numbers apart. -/
def shortest
    (significand : Nat)
    (exponent : Int) : Decimal :=
  let interval := Interval.ofFinite significand exponent
  let bits : Int := (Nat.log2 significand : Int) + exponent
  let start : Int := (bits * 30103) / 100000 + 2
  let found := (interval.search 24 start).getD ⟨significand, 0⟩
  found.trim 24

/-- Digits written without an exponent. -/
def Decimal.positional (decimal : Decimal) : String :=
  let digits := toString decimal.digits
  if 0 ≤ decimal.exponent then
    digits ++ String.ofList (List.replicate decimal.exponent.natAbs '0')
  else
    let places := decimal.exponent.natAbs
    let padded :=
      String.ofList (List.replicate (places + 1 - digits.length) '0') ++ digits
    let characters := padded.toList
    let whole := characters.take (characters.length - places)
    let fraction := characters.drop (characters.length - places)
    String.ofList whole ++ "." ++ String.ofList fraction

/-- The text of a number: positional, shortest, without a point when whole. -/
def toText (number : Binary64) : String :=
  let sign := if number.isNegative then "-" else ""
  match number.magnitude with
  | .notANumber => "NaN"
  | .infinite => sign ++ "inf"
  | .finite 0 _ => sign ++ "0"
  | .finite significand exponent =>
      sign ++ (shortest significand exponent).positional

end Binary64
end QueryGraph
