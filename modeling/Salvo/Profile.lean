import Salvo.BattleContext
import Salvo.Roster.Combatant
import Salvo.RuleSet

/-! # Combat profiles

The profile of a unit is its strength, its rolls and its traits before any support, read from
its type, its owner's technology, the rules and the place of the battle. -/

namespace Salvo

structure Traits where
  firstStrike : Bool
  destroyer : Bool
  air : Bool
  /-- The unit is lost once it has fired. -/
  suicide : Bool
  keepsBest : Bool
  antiAircraft : Bool
  deriving DecidableEq, Repr

structure Profile where
  strength : Int
  rolls : Int
  traits : Traits
  deriving DecidableEq, Repr

namespace Combatant

def isHeavyBomber (unit : Combatant) (rules : RuleSet) : Bool :=
  rules.heavyBombersKeepBest && unit.type.isStrategicBomber && unit.owner.technology.heavyBombers

def traits (unit : Combatant) (rules : RuleSet) : Traits where
  firstStrike := unit.type.isFirstStrike
  destroyer := unit.type.isDestroyer
  air := unit.type.isAir
  suicide := unit.type.isSuicide
  keepsBest := unit.type.keepsBest || unit.isHeavyBomber rules
  antiAircraft := unit.type.antiAircraft.isSome

/-- The strength without what the territory adds. Units that attack from the sea have a bonus. -/
def landingStrength (unit : Combatant) (side : Side) (context : BattleContext) : Int :=
  let strength := unit.type.strengthFor unit.owner side
  if side = .offense ∧ context.amphibious then Amount.wrap (strength + unit.type.marineBonus)
  else strength

/-- The profile in the main exchange and in first strikes. -/
def profile (unit : Combatant) (side : Side) (rules : RuleSet) (context : BattleContext) :
    Profile where
  strength :=
    Amount.wrap (unit.landingStrength side context + context.modifier unit.type.name side)
  rolls := unit.type.rollsFor unit.owner side
  traits := unit.traits rules

/-- The rolls in an air battle: the usual ones, of air units that have an air strength. -/
def airRolls (unit : Combatant) (side : Side) : Int :=
  if unit.type.isAir && 0 < unit.type.airStrength side then
    max 0 (unit.type.rollsFor unit.owner side)
  else 0

/-- The profile in an air battle. -/
def airProfile (unit : Combatant) (side : Side) (rules : RuleSet) : Profile where
  strength := unit.type.airStrength side
  rolls := unit.airRolls side
  traits := unit.traits rules

end Combatant

end Salvo
