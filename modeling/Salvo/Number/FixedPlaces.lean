import Salvo.Number.Dyadic

/-! # Numbers with a fixed number of decimal places

`roundDiv` rounds a quotient to the nearest whole number and a half to the even neighbour;
`fixedPlaces` writes a double rounded in this way, with the sign of a negative number, of negative
zero too. -/

namespace Salvo

/-- The whole number nearest to `a / b`, of two the even one. -/
def roundDiv (a b : Nat) : Nat :=
  let quotient := a / b
  let rest := a % b
  if 2 * rest < b ∨ (2 * rest = b ∧ quotient % 2 = 0) then quotient else quotient + 1

/-- `units` of the last of some decimal places, written with a point. -/
def pointed (places units : Nat) : String :=
  let digits := toString units
  let digits := "".pushn '0' (places + 1 - digits.length) ++ digits
  let whole := digits.length - places
  if places = 0 then digits
  else (digits.take whole).toString ++ "." ++ (digits.drop whole).toString

def signText (negative : Bool) : String := if negative then "-" else ""

def fixedPlaces (places : Nat) (x : Float) : String :=
  match DoubleClass.of x with
  | .nan => "NaN"
  | .infinite negative => signText negative ++ "inf"
  | .finite value =>
    signText value.negative ++
      pointed places (roundDiv (value.numerator * 10 ^ places) value.denominator)

/-- A text brought to a width by blanks in front. -/
def padLeft (width : Nat) (text : String) : String :=
  "".pushn ' ' (width - text.length) ++ text

end Salvo
