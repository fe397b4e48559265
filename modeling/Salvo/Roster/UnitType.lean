import Salvo.Amount
import Salvo.Side
import Salvo.Roster.Player

/-! # Unit types

What every unit of a type has in common, and how the owner's technology changes it. -/

namespace Salvo

structure AntiAircraft where
  attack : Int := 0
  defense : Int := 0
  /-- Rolls of one unit; without it, one roll for each target. -/
  maxRolls : Option Int := none
  /-- Sides of the dice; without it, those of the rule set. -/
  diceSides : Option Int := none
  /-- The rolls of other guns do not reduce the rolls of this one. -/
  mayOverStack : Bool := false
  /-- Names of the types it fires at; an empty list stands for every air unit. -/
  targets : List String := []
  deriving DecidableEq, Repr, Inhabited

def AntiAircraft.strength (gun : AntiAircraft) : Side → Int := Side.pick gun.attack gun.defense

structure UnitType where
  name : String
  attack : Int := 0
  defense : Int := 0
  attackRolls : Int := 1
  defenseRolls : Int := 1
  airAttack : Int := 0
  airDefense : Int := 0
  /-- Added to the attack in an amphibious assault. -/
  marineBonus : Int := 0
  antiAircraft : Option AntiAircraft := none
  isFirstStrike : Bool := false
  isDestroyer : Bool := false
  isAir : Bool := false
  isStrategicBomber : Bool := false
  isSuicide : Bool := false
  /-- Of several dice only the best one counts. -/
  keepsBest : Bool := false
  deriving DecidableEq, Repr, Inhabited

namespace UnitType

def attackFor (type : UnitType) (owner : Player) : Int :=
  Amount.wrap (type.attack + owner.technology.attack.get type.name)

def defenseFor (type : UnitType) (owner : Player) : Int :=
  Amount.wrap (type.defense + owner.technology.defense.get type.name)

def attackRollsFor (type : UnitType) (owner : Player) : Int :=
  let rolls := Amount.wrap (type.attackRolls + owner.technology.attackRolls.get type.name)
  if type.isStrategicBomber && owner.technology.heavyBombers then Amount.wrap (rolls + 1) else rolls

def defenseRollsFor (type : UnitType) (owner : Player) : Int :=
  Amount.wrap (type.defenseRolls + owner.technology.defenseRolls.get type.name)

def strengthFor (type : UnitType) (owner : Player) : Side → Int :=
  Side.pick (type.attackFor owner) (type.defenseFor owner)

def rollsFor (type : UnitType) (owner : Player) : Side → Int :=
  Side.pick (type.attackRollsFor owner) (type.defenseRollsFor owner)

theorem inRange_rollsFor (type : UnitType) (owner : Player) (side : Side) :
    Amount.InRange (type.rollsFor owner side) := by
  cases side with
  | offense =>
    simp only [rollsFor, Side.pick, attackRollsFor]
    split <;> exact Amount.inRange_wrap _
  | defense => exact Amount.inRange_wrap _

def airStrength (type : UnitType) : Side → Int := Side.pick type.airAttack type.airDefense

def antiAircraftStrength? (type : UnitType) (side : Side) : Option Int :=
  type.antiAircraft.map (·.strength side)

/-- Whether units of the type may fire at units of the type `target` as anti-aircraft guns. -/
def canTarget (type target : UnitType) : Bool :=
  match type.antiAircraft with
  | none => false
  | some gun => if gun.targets.isEmpty then target.isAir else gun.targets.contains target.name

end UnitType

end Salvo
