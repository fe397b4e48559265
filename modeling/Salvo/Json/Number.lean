import Salvo.Json.Scanner
import Salvo.Number.Arithmetic

/-! # Values of JSON numbers

A numeral without point and exponent is a whole number if it fits 64 bits, and all others are
doubles. A double is formed from the leading digits that fit 64 bits: these are taken as a double
first and then multiplied or divided by a power of ten, so that the result may differ from the
nearest double in the last place. A numeral beyond the doubles has no value. -/

namespace Salvo.Json

inductive Number where
  | natural (value : Nat)
  /-- A whole number below zero. -/
  | negative (value : Int)
  | real (value : Float)
  deriving Repr

namespace Numeral

def wordSize : Nat := 2 ^ 64

/-- Appends digits to a number while the result fits 64 bits. Gives the digits left over too. -/
def appendDigits : Nat → List Nat → Nat × List Nat
  | number, [] => (number, [])
  | number, digit :: digits =>
    if number * 10 + digit < wordSize then appendDigits (number * 10 + digit) digits
    else (number, digit :: digits)

def digitsToNat (digits : List Nat) : Nat := digits.foldl (fun number digit => number * 10 + digit) 0

/-- The power of ten as a double, up to the greatest one. -/
def powerOfTen (exponent : Nat) : Float := Float.ofScientific 1 false exponent

/-- `x * 10 ^ exponent`. Large negative powers are divided out in steps. -/
def scale (x : Float) (exponent : Int) : Option Float :=
  if exponent < -308 then
    if x == 0.0 then some x else scale (x / powerOfTen 308) (exponent + 308)
  else if exponent < 0 then some (x / powerOfTen exponent.natAbs)
  else if exponent ≤ 308 then
    let scaled := x * powerOfTen exponent.natAbs
    if scaled.isInf then none else some scaled
  else if x == 0.0 then some x
  else none
termination_by exponent.natAbs

def maxExponent : Nat := 2147483647

/-- The magnitude of the numeral as a double. -/
def magnitude? (numeral : Numeral) : Option Float :=
  let (number, dropped) := appendDigits 0 numeral.whole
  let fraction := numeral.fraction.getD []
  let (number, unread) := appendDigits number fraction
  let places : Int := dropped.length - (fraction.length - unread.length : Nat)
  match numeral.exponent with
  | none => scale (Float.ofNat number) places
  | some (negative, digits) =>
    let exponent := digitsToNat digits
    if maxExponent < exponent then
      if number ≠ 0 ∧ !negative then none else some 0.0
    else scale (Float.ofNat number) (if negative then places - exponent else places + exponent)

/-- The value of a numeral as a double. -/
def real? (numeral : Numeral) : Option Number :=
  numeral.magnitude?.map fun x => .real (if numeral.negative then -x else x)

/-- The value of a numeral. Negative zero is a double. -/
def value? (numeral : Numeral) : Option Number :=
  if numeral.fraction.isNone ∧ numeral.exponent.isNone then
    let whole := digitsToNat numeral.whole
    if numeral.negative then
      if 0 < whole ∧ whole ≤ 2 ^ 63 then some (.negative (-(whole : Int))) else numeral.real?
    else if whole < wordSize then some (.natural whole)
    else numeral.real?
  else numeral.real?

end Numeral

/-- Scans a number and takes its value. -/
def scanNumber (cs : List Char) : Except Problem (Number × List Char) := do
  let (numeral, cs) ← scanNumeral cs
  match numeral.value? with
  | some number => return (number, cs)
  | none => throw .malformed

end Salvo.Json
