import QueryGraph.Binary64.Basic

/-!
# Reading decimal text

The accepted texts are an optional sign followed by digits with at most one
point and an optional exponent, where at least one digit stands before the
exponent, or one of the words `inf`, `infinity` and `nan` in any letter case.
-/

namespace QueryGraph
namespace Binary64

/-- The value of a decimal digit. -/
def digitValue (character : Char) : Nat :=
  character.toNat - '0'.toNat

/-- Reads a run of digits as a natural number, after the digits already read. -/
def digitsValue (start : Nat) (digits : List Char) : Nat :=
  digits.foldl (fun value digit => 10 * value + digitValue digit) start

/-- Splits off a leading run of digits. -/
def spanDigits (text : List Char) : List Char × List Char :=
  (text.takeWhile Char.isDigit, text.dropWhile Char.isDigit)

/-- Removes one leading sign and tells whether it was a minus. -/
def spanSign : List Char -> Bool × List Char
  | '-' :: rest => (true, rest)
  | '+' :: rest => (false, rest)
  | text => (false, text)

/-- Reads what follows the significant digits: nothing, or an exponent. -/
def readExponent : List Char -> Option Int
  | [] => some 0
  | marker :: rest =>
      if marker == 'e' || marker == 'E' then
        let (negative, digits) := spanSign rest
        if digits.isEmpty || digits.any (fun digit => !digit.isDigit) then none
        else
          let value : Int := digitsValue 0 digits
          some (if negative then -value else value)
      else none

/-- Reads an unsigned decimal number as digits and a power of ten. -/
def readDigits (text : List Char) : Option (Nat × Int) :=
  let (whole, rest) := spanDigits text
  let (fraction, rest) :=
    match rest with
    | '.' :: rest => spanDigits rest
    | rest => ([], rest)
  if whole.isEmpty && fraction.isEmpty then none
  else
    (readExponent rest).map fun exponent =>
      (digitsValue (digitsValue 0 whole) fraction, exponent - fraction.length)

/-- Reads a number, rounding to the nearest one. -/
def ofText? (text : String) : Option Binary64 :=
  let (negative, body) := spanSign text.toList
  match readDigits body with
  | some (digits, exponent) => some (ofDecimal negative digits exponent)
  | none =>
      let word := String.ofList (body.map Char.toLower)
      if word == "inf" || word == "infinity" then some (infinity negative)
      else if word == "nan" then some notANumber
      else none

end Binary64
end QueryGraph
