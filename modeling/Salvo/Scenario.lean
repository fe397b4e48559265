import Salvo.Round.Resolve

/-! # Scenarios

A scenario describes a battle: rules, unit types, support rules, players, place and rosters.
`Scenario.prepare` checks it and creates the units of both sides; the first stage with a fault
decides the error. -/

namespace Salvo

/-- A number of units of one type. -/
structure RosterEntry where
  unitType : String
  count : Nat
  deriving DecidableEq, Repr, Inhabited

structure Scenario where
  rules : RuleSet := {}
  /-- Unit types; an empty list stands for the classic catalog. -/
  unitTypes : List UnitType := []
  /-- Support rules; without them the classic ones hold. -/
  supportRules : Option (List SupportRule) := none
  kind : BattleKind := .combat
  attacker : Player
  defender : Player
  context : BattleContext
  offense : List RosterEntry := []
  defense : List RosterEntry := []
  seed : Option Nat := none
  deriving Repr

inductive PreparationError where
  | rules (error : RuleSetError)
  | catalog (error : CatalogError)
  | support (error : SupportRuleError)
  deriving DecidableEq, Repr

def PreparationError.message : PreparationError → String
  | rules error => error.message
  | catalog error => error.message
  | support error => error.message

/-- A checked battle that can be resolved any number of times. -/
structure BattleSetup where
  battle : Battle
  rules : RuleSet
  supportRules : List SupportRule
  deriving Repr

namespace BattleSetup

def resolve {σ : Type} [DiceSource σ] (setup : BattleSetup) (source : σ) (history : History) :
    Resolution σ :=
  setup.battle.resolveRound setup.rules setup.supportRules source history

end BattleSetup

namespace Catalog

/-- The units of a roster with the next ids, and the ids that are left. -/
def spawnAll (catalog : Catalog) (owner : Player) :
    List RosterEntry → UnitIds → Except CatalogError (List Combatant × UnitIds)
  | [], ids => .ok ([], ids)
  | entry :: entries, ids =>
    match catalog.spawn entry.unitType entry.count owner ids with
    | (.error error, _) => .error error
    | (.ok units, ids) => do
      let (more, ids) ← catalog.spawnAll owner entries ids
      return (units ++ more, ids)

end Catalog

namespace Scenario

def catalog (scenario : Scenario) : Except CatalogError Catalog :=
  if scenario.unitTypes.isEmpty then .ok Catalog.classic else Catalog.ofTypes scenario.unitTypes

def prepare (scenario : Scenario) : Except PreparationError BattleSetup := do
  scenario.rules.validate.mapError .rules
  let catalog ← scenario.catalog.mapError .catalog
  let supportRules := scenario.supportRules.getD SupportRule.classic
  (SupportRule.checkAll catalog supportRules).mapError .support
  let (offense, ids) ←
    (catalog.spawnAll scenario.attacker scenario.offense {}).mapError .catalog
  let (defense, _) ←
    (catalog.spawnAll scenario.defender scenario.defense ids).mapError .catalog
  return {
    battle := {
      kind := scenario.kind
      attacker := scenario.attacker
      defender := scenario.defender
      offense
      defense
      context := scenario.context }
    rules := scenario.rules
    supportRules }

end Scenario

end Salvo
