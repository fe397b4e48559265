import Salvo.Power.Basic
import Salvo.Profile

/-! # Values in air battles

Escorts and interceptors fight with their air strength. Where all dice are rolled, a unit that
would keep the best of several rolls a single die at the strength that stands for them. -/

namespace Salvo.AirBattle

/-- One die in place of several of which only the best would count. -/
def foldRolls (sides : Int) (values : CombatValues) : CombatValues :=
  if values.keepsBest ∧ 1 < values.rolls then
    { values with
      strength := bestRollStrength values.strength values.rolls sides
      rolls := 1
      keepsBest := false }
  else values

def valuesOf (side : Side) (rules : RuleSet) (unit : Combatant) : CombatValues :=
  let profile := unit.airProfile side rules
  let values : CombatValues :=
    { base := profile.strength
      strength := profile.strength
      rolls := profile.rolls
      keepsBest := profile.traits.keepsBest }
  if rules.lowLuck then values else foldRolls rules.diceSides values

def calculator (units : List Combatant) (side : Side) (rules : RuleSet) : Calculator :=
  .ofTable rules.diceSides (ByUnit.ofUnits units (valuesOf side rules))

end Salvo.AirBattle
