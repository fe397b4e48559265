import Salvo.Number.Arithmetic

/-! # Floating-point numbers as exact fractions

A finite double is a sign and an exact magnitude `mantissa * 2 ^ exponent`. Texts are made from
this form, so that every digit of them is decided in whole numbers. -/

namespace Salvo

structure Dyadic where
  negative : Bool
  mantissa : Nat
  exponent : Int
  deriving DecidableEq, Repr

/-- What the bits of a double stand for. -/
inductive DoubleClass where
  | nan
  | infinite (negative : Bool)
  | finite (value : Dyadic)
  deriving DecidableEq, Repr

namespace DoubleClass

/-- Reads sign, exponent and fraction fields. Subnormal numbers share the least exponent. -/
def ofBits (bits : UInt64) : DoubleClass :=
  let bits : Nat := bits.toNat
  let negative := 2 ^ 63 ≤ bits
  let exponent : Nat := bits / 2 ^ 52 % 2 ^ 11
  let fraction := bits % 2 ^ 52
  if exponent = 2047 then
    if fraction = 0 then .infinite negative else .nan
  else if exponent = 0 then .finite { negative, mantissa := fraction, exponent := -1074 }
  else .finite { negative, mantissa := 2 ^ 52 + fraction, exponent := (exponent : Int) - 1075 }

def of (x : Float) : DoubleClass := ofBits x.toBits

end DoubleClass

namespace Dyadic

/-- The magnitude is `numerator / denominator`. -/
def numerator (value : Dyadic) : Nat := value.mantissa * 2 ^ value.exponent.toNat

def denominator (value : Dyadic) : Nat := 2 ^ (-value.exponent).toNat

end Dyadic

end Salvo
