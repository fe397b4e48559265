import Salvo.Number.FixedPlaces

/-! # The shortest decimal of a double

Every real number between the halfway points to a double's two neighbours reads back as the
double. `shortestDecimal` takes the decimal of fewest digits in this interval, and of two with as
many digits the nearer. `decimalText` writes it, positionally in the middle range of magnitudes
and with an exponent elsewhere. -/

namespace Salvo

/-- The number `digits * 10 ^ exponent`. -/
structure Decimal where
  digits : Nat
  exponent : Int
  deriving DecidableEq, Repr

/-- The interval of numbers that read as a double, in quarters of the unit of its last place:
`value` lies between `low` and `high`, which belong to it if `closed`. All three are to be divided
by `scale`. -/
structure ReadBack where
  low : Nat
  value : Nat
  high : Nat
  scale : Nat
  closed : Bool
  deriving DecidableEq, Repr

/-- The neighbour below a power of two is only half as far away, subnormal numbers apart. -/
def ReadBack.of (x : Dyadic) : ReadBack :=
  let power := 2 ^ x.exponent.toNat
  let below := if x.mantissa = 2 ^ 52 ∧ -1074 < x.exponent then 1 else 2
  { low := (4 * x.mantissa - below) * power
    value := 4 * x.mantissa * power
    high := (4 * x.mantissa + 2) * power
    scale := 4 * x.denominator
    closed := x.mantissa % 2 = 0 }

namespace ReadBack

/-- Whether `digits * step` reads back, with the step given as a fraction. -/
def admits (interval : ReadBack) (num den digits : Nat) : Bool :=
  let point := digits * num * interval.scale
  let low := interval.low * den
  let high := interval.high * den
  if interval.closed then low ≤ point && point ≤ high else low < point && point < high

/-- The multiple of a step next to the value that reads back, if one of the two neighbours does. -/
def nearest? (interval : ReadBack) (num den : Nat) : Option Nat :=
  let below := interval.value * den / (interval.scale * num)
  let rest := interval.value * den % (interval.scale * num)
  match interval.admits num den below, interval.admits num den (below + 1) with
  | true, true =>
    if 2 * rest < interval.scale * num ∨ (2 * rest = interval.scale * num ∧ below % 2 = 0) then
      some below
    else some (below + 1)
  | true, false => some below
  | false, true => some (below + 1)
  | false, false => none

/-- The least `k` up to a limit with `value < 10 ^ k`, for a value of one or more. -/
def magnitude (interval : ReadBack) : Int :=
  let whole := interval.value / interval.scale
  if 0 < whole then ((toString whole).length : Int)
  else
    -- The value is at least `10 ^ -324`.
    let shift := (List.range 326).find? fun j => interval.scale ≤ interval.value * 10 ^ j
    1 - ((shift.getD 326 : Nat) : Int)

/-- The decimal of at most so many digits at the value, if one reads back. -/
def decimalOf? (interval : ReadBack) (magnitude : Int) (count : Nat) : Option Decimal :=
  let exponent := magnitude - (count : Int)
  (interval.nearest? (10 ^ exponent.toNat) (10 ^ (-exponent).toNat)).map fun digits =>
    { digits, exponent }

end ReadBack

/-- Moves zeros from the digits into the exponent. -/
def Decimal.trimWithin : Nat → Decimal → Decimal
  | 0, d => d
  | limit + 1, d =>
    if d.digits % 10 = 0 ∧ d.digits ≠ 0 then
      trimWithin limit { digits := d.digits / 10, exponent := d.exponent + 1 }
    else d

def Decimal.trim (d : Decimal) : Decimal := d.trimWithin 20

/-- The shortest decimal of a magnitude above zero. Seventeen digits always read back. -/
def shortestDecimal (x : Dyadic) : Decimal :=
  let interval := ReadBack.of x
  let magnitude := interval.magnitude
  (((List.range' 1 17).findSome? (interval.decimalOf? magnitude)).getD
    { digits := 0, exponent := 0 }).trim

/-- Positional from `10 ^ -5` up to `10 ^ 16`, with one digit at least on each side of the point;
elsewhere with one digit in front of the point and an exponent. -/
def decimalText (d : Decimal) : String :=
  let digits := toString d.digits
  let length : Int := digits.length
  let point := length + d.exponent
  if 0 ≤ d.exponent ∧ point ≤ 16 then digits.pushn '0' d.exponent.toNat ++ ".0"
  else if 0 < point ∧ point ≤ 16 then
    (digits.take point.toNat).toString ++ "." ++ (digits.drop point.toNat).toString
  else if -5 < point ∧ point ≤ 0 then "0.".pushn '0' (-point).toNat ++ digits
  else
    let mantissa := if digits.length = 1 then digits
      else (digits.take 1).toString ++ "." ++ (digits.drop 1).toString
    mantissa ++ "e" ++ toString (point - 1)

/-- The shortest text that reads back as a double; a value that is no number has none. -/
def shortestText? (x : Float) : Option String :=
  match DoubleClass.of x with
  | .nan | .infinite _ => none
  | .finite value =>
    some <| signText value.negative ++
      if value.mantissa = 0 then "0.0" else decimalText (shortestDecimal value)

end Salvo
