import Salvo.Power.Basic
import Salvo.Profile
import Salvo.Support.Passes

/-! # Values in first strikes and the main exchange

The values of a firing group are its profiles with all support added. Units of the firing side
give support whether they fire or not, and so do the enemies. -/

namespace Salvo

structure MainCombat where
  side : Side
  support : SupportOutcome
  calculator : Calculator

namespace MainCombat

/-- The profile's values with the strength and rolls that support has left. -/
def valuesOf (profile : Profile) (might : Might) : CombatValues where
  base := profile.strength
  strength := might.strength
  rolls := might.rolls
  keepsBest := profile.traits.keepsBest

def of (firing allies enemies : List Combatant) (side : Side) (rules : RuleSet)
    (supportRules : List SupportRule) (context : BattleContext) : MainCombat :=
  let profiles := ByUnit.ofUnits firing (·.profile side rules context)
  let base := profiles.mapValues fun profile =>
    { strength := profile.strength, rolls := profile.rolls }
  let strength (unit : Combatant) : Int := ((base.get? unit.id).map (·.strength)).getD 0
  let support := runSupportPasses (sortStrongestFirst strength firing) allies enemies supportRules
    side base
  let values (unit : Combatant) : CombatValues :=
    match profiles.get? unit.id, support.records.get? unit.id with
    | some profile, some might => valuesOf profile might
    | _, _ => {}
  { side, support, calculator := { diceSides := rules.diceSides, values } }

end MainCombat

end Salvo
