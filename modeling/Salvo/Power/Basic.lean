import Salvo.Amount
import Salvo.Roster.ByUnit
import Salvo.StableSort

/-! # Power

The power of a unit is what its rolls are worth on average, in units of one side of a die: its
strength times its rolls. A unit that keeps the best of several dice is valued as one die of
raised strength, one sixth of the sides for each die beyond the first.

A `Calculator` tells the strength and rolls of units in one kind of fire. `PowerTable.build` turns
it into the power of a firing group, with the strongest units in front. -/

namespace Salvo

/-- What each die beyond the first adds to the strength of a unit that keeps its best die. -/
def extraRollBonus (sides : Int) : Int := max 1 (sides / 6)

/-- The strength of the single die that stands for the best of several. -/
def bestRollStrength (strength rolls sides : Int) : Int :=
  if rolls ≤ 1 then strength
  else
    let bonus := Amount.saturate (extraRollBonus sides * (rolls - 1))
    min (Amount.saturate (strength + bonus)) sides

def unitPower (strength rolls : Int) (keepsBest : Bool) (sides : Int) : Int :=
  if strength ≤ 0 ∨ rolls ≤ 0 then 0
  else if keepsBest ∧ 1 < rolls then bestRollStrength strength rolls sides
  else Amount.saturate (strength * rolls)

/-- What a unit brings to one kind of fire, before strength and rolls are brought into range. -/
structure CombatValues where
  /-- The strength without support; it decides the order of the units. -/
  base : Int := 0
  strength : Int := 0
  rolls : Int := 0
  keepsBest : Bool := false
  deriving DecidableEq, Repr, Inhabited

structure Calculator where
  diceSides : Int
  values : Combatant → CombatValues

/-- The calculator of values kept by unit id. Units without values bring nothing. -/
def Calculator.ofTable (diceSides : Int) (table : ByUnit CombatValues) : Calculator where
  diceSides := diceSides
  values unit := (table.get? unit.id).getD {}

/-- The units with the strongest in front; units of equal strength keep their order. -/
def sortStrongestFirst (strength : Combatant → Int) (units : List Combatant) : List Combatant :=
  sortOn (fun unit => -strength unit) units

structure PowerRecord where
  unit : Combatant
  strength : Int
  rolls : Int
  power : Int
  keepsBest : Bool
  deriving DecidableEq, Repr

/-- The record of a unit, with its strength brought into `0..sides` and its rolls to at least
none. -/
def PowerRecord.of (sides : Int) (unit : Combatant) (values : CombatValues) : PowerRecord :=
  let strength := max 0 (min sides values.strength)
  let rolls := max 0 values.rolls
  { unit, strength, rolls
    power := unitPower strength rolls values.keepsBest sides
    keepsBest := values.keepsBest }

/-- The power of a firing group, in the order in which its units roll. -/
structure PowerTable where
  records : List PowerRecord
  diceSides : Int
  deriving DecidableEq, Repr

namespace PowerTable

def build (units : List Combatant) (calculator : Calculator) : PowerTable where
  records := (sortStrongestFirst (fun unit => (calculator.values unit).base) units).map fun unit =>
    PowerRecord.of calculator.diceSides unit (calculator.values unit)
  diceSides := calculator.diceSides

def empty (diceSides : Int) : PowerTable := { records := [], diceSides }

/-- The first record of a unit. -/
def get? (table : PowerTable) (id : Nat) : Option PowerRecord :=
  table.records.find? (·.unit.id == id)

def totalPower (table : PowerTable) : Int := Amount.total (table.records.map (·.power))

def totalRolls (table : PowerTable) : Int := Amount.total (table.records.map (·.rolls))

/-- Whether the group can hit at all. -/
def canHit (table : PowerTable) : Bool := 0 < table.totalPower && 0 < table.totalRolls

/-- The hits to be expected on average. -/
def expectedHits (table : PowerTable) : Float :=
  Float.ofInt table.totalPower / Float.ofInt table.diceSides

end PowerTable

end Salvo
