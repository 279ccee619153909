/-!
# Binary floating-point numbers

A `Binary64` is the bit pattern of a double-precision number. Working on the
pattern keeps equality decidable and every operation exact: a finite value is a
natural significand times a power of two, and rounding is division of natural
numbers.
-/

namespace QueryGraph

/-- A double-precision floating-point number, given by its bit pattern. -/
structure Binary64 where
  bits : UInt64
  deriving DecidableEq, Repr, Inhabited

namespace Binary64

/-- Number of fraction bits of a significand. -/
def fractionWidth : Nat := 52

/-- The least significand with a bit before its fraction bits. -/
def leadingBit : Nat := Nat.pow 2 fractionWidth

/-- The exponent of the smallest step between two numbers. -/
def leastExponent : Int := -1074

/-- The largest exponent that a finite number carries. -/
def greatestExponent : Int := 971

/-- What a bit pattern stands for, its sign left aside. -/
inductive Magnitude
  | notANumber
  | infinite
  /-- The number `significand * 2 ^ exponent`. -/
  | finite
      (significand : Nat)
      (exponent : Int)
  deriving DecidableEq, Repr

/-- The sign bit. -/
def isNegative (number : Binary64) : Bool :=
  number.bits.toNat / Nat.pow 2 63 == 1

/-- The magnitude that a bit pattern encodes. -/
def magnitude (number : Binary64) : Magnitude :=
  let fraction := number.bits.toNat % leadingBit
  let exponentField := number.bits.toNat / leadingBit % 2048
  if exponentField == 2047 then
    if fraction == 0 then .infinite else .notANumber
  else if exponentField == 0 then
    .finite fraction leastExponent
  else
    .finite (leadingBit + fraction) (leastExponent + (exponentField - 1 : Nat))

/-- Neither infinite nor undefined. -/
def isFinite (number : Binary64) : Bool :=
  match number.magnitude with
  | .finite _ _ => true
  | _ => false

/-- The pattern with the given sign and lower 63 bits. -/
def ofParts (negative : Bool) (lower : Nat) : Binary64 :=
  ⟨UInt64.ofNat ((if negative then Nat.pow 2 63 else 0) + lower)⟩

/-- Positive or negative infinity. -/
def infinity (negative : Bool) : Binary64 :=
  ofParts negative (2047 * leadingBit)

/-- The positive quiet undefined number. -/
def notANumber : Binary64 :=
  ofParts false (2047 * leadingBit + leadingBit / 2)

/-- Positive or negative zero. -/
def zero (negative : Bool) : Binary64 :=
  ofParts negative 0

/-- The nearest natural number to a quotient; halves go to the even neighbour. -/
def nearestQuotient (numerator denominator : Nat) : Nat :=
  let quotient := numerator / denominator
  let remainder := numerator % denominator
  if 2 * remainder < denominator then quotient
  else if denominator < 2 * remainder then quotient + 1
  else quotient + quotient % 2

/-- The quotient scaled by `2 ^ (-exponent)`, as a numerator and a denominator. -/
def scaleDown
    (numerator denominator : Nat)
    (exponent : Int) : Nat × Nat :=
  if exponent < 0 then
    (numerator * Nat.pow 2 exponent.natAbs, denominator)
  else
    (numerator, denominator * Nat.pow 2 exponent.natAbs)

/-- The number nearest to a positive quotient. Halves go to the even significand;
what exceeds the largest finite number is infinite. -/
def ofQuotient
    (negative : Bool)
    (numerator denominator : Nat) : Binary64 :=
  if numerator == 0 then zero negative
  else
    let estimate : Int :=
      (Nat.log2 numerator : Int) - Nat.log2 denominator - fractionWidth
    let fits (exponent : Int) : Bool :=
      let scaled := scaleDown numerator denominator exponent
      leadingBit * scaled.2 ≤ scaled.1
    let exponent := max leastExponent (if fits estimate then estimate else estimate - 1)
    let scaled := scaleDown numerator denominator exponent
    let rounded := nearestQuotient scaled.1 scaled.2
    if rounded < leadingBit then ofParts negative rounded
    else
      let carried := rounded == 2 * leadingBit
      let significand := if carried then leadingBit else rounded
      let exponent := if carried then exponent + 1 else exponent
      if greatestExponent < exponent then infinity negative
      else
        ofParts negative
          ((exponent - leastExponent).toNat * leadingBit + significand)

/-- The number nearest to `digits * 10 ^ exponent`. The two early answers only
spare the computation of enormous powers: such a value lies beyond every finite
number, or below half of the smallest one. -/
def ofDecimal
    (negative : Bool)
    (digits : Nat)
    (exponent : Int) : Binary64 :=
  if digits == 0 then zero negative
  else
    let size : Int := (Nat.log2 digits / 3 : Nat) + exponent
    if 400 < exponent then infinity negative
    else if size < -400 then zero negative
    else if exponent < 0 then ofQuotient negative digits (Nat.pow 10 exponent.natAbs)
    else ofQuotient negative (digits * Nat.pow 10 exponent.natAbs) 1

/-- The number nearest to an integer. -/
def ofInt (value : Int) : Binary64 :=
  ofQuotient (value < 0) value.natAbs 1

end Binary64
end QueryGraph
