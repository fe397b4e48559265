import Salvo.Dice.Throw
import Salvo.Power.AirBattle
import Salvo.Power.AntiAircraftFire
import Salvo.Power.MainCombat
import Salvo.Round.FirePlan

/-! # Volleys

A volley is one group of one side about to fire: its units, their power, and the way in which
their dice are thrown. What the volleys of a round are depends on the battle alone and not on any
dice, so the whole round is laid out as a list of volleys first. -/

namespace Salvo

inductive BattleKind where
  /-- Anti-aircraft fire, first strikes and the main exchange. -/
  | combat
  /-- Escorts against interceptors; only air units fire. -/
  | airBattle
  deriving DecidableEq, Repr, Inhabited

structure Battle where
  kind : BattleKind := .combat
  attacker : Player
  defender : Player
  offense : List Combatant
  defense : List Combatant
  context : BattleContext
  deriving Repr

namespace Battle

def units (battle : Battle) : Side → List Combatant := Side.pick battle.offense battle.defense

/-- The name of the player on a side. -/
def player (battle : Battle) : Side → String :=
  Side.pick battle.attacker.name battle.defender.name

end Battle

inductive FireKind where
  | antiAircraft
  | firstStrike
  | general
  | airBattle
  deriving DecidableEq, Repr

namespace FireKind

def name : FireKind → String
  | antiAircraft => "anti-aircraft fire"
  | firstStrike => "first strike"
  | general => "fire"
  | airBattle => "air battle"

def purpose : FireKind → DicePurpose
  | antiAircraft => .antiAircraft
  | firstStrike | general => .combat
  | airBattle => .airBattle

end FireKind

namespace AntiAircraftFire

/-- The units that at least one of the guns may fire at. -/
def validTargets (guns targets : List Combatant) : List Combatant :=
  targets.filter fun target => guns.any fun gun => gun.type.canTarget target.type

/-- The guns that may fire at some target. -/
def effectiveGuns (guns targets : List Combatant) : List Combatant :=
  guns.filter fun gun => targets.any fun target => gun.type.canTarget target.type

/-- The fire of guns at the targets that they share. -/
def atTargets (guns targets : List Combatant) (side : Side) (rules : RuleSet) : AntiAircraftFire :=
  let firing := effectiveGuns guns targets
  of firing (validTargets firing targets).length side rules

/-- The power of guns that share one number of targets. -/
def gunPower (guns targets : List Combatant) (side : Side) (rules : RuleSet) :
    Except CombatError PowerTable :=
  PowerTable.build? (effectiveGuns guns targets) (atTargets guns targets side rules).calculator

/-- The power with which the guns are fired. Without rolls they are silent. -/
def powerTable (guns targets : List Combatant) (side : Side) (rules : RuleSet) :
    Except CombatError PowerTable :=
  let fire := atTargets guns targets side rules
  if fire.totalRolls ≤ 0 then .ok (.empty fire.diceSides) else gunPower guns targets side rules

theorem powerTable_of_rolls {guns targets : List Combatant} {side : Side} {rules : RuleSet}
    (h : 0 < (atTargets guns targets side rules).totalRolls) :
    powerTable guns targets side rules = gunPower guns targets side rules :=
  if_neg (Int.not_le.mpr h)

theorem powerTable_of_no_rolls {guns targets : List Combatant} {side : Side} {rules : RuleSet}
    (h : (atTargets guns targets side rules).totalRolls ≤ 0) :
    powerTable guns targets side rules =
      .ok (.empty (atTargets guns targets side rules).diceSides) :=
  if_pos h

end AntiAircraftFire

/-- The power of one side in an air battle. -/
def AirBattle.powerTable (units : List Combatant) (side : Side) (rules : RuleSet) :
    Except CombatError PowerTable :=
  PowerTable.build? units (calculator units side rules)

structure Volley where
  kind : FireKind
  side : Side
  units : List Combatant
  casualties : CasualtyTiming
  table : Except CombatError PowerTable
  lowLuck : Bool

namespace Battle

variable (battle : Battle) (rules : RuleSet) (supportRules : List SupportRule)

/-- The fire of guns of one type, if they have a target. -/
def antiAircraftVolley? (side : Side) (guns : List Combatant) : Option Volley :=
  let targets := battle.units side.opposite
  if (AntiAircraftFire.validTargets guns targets).isEmpty then none
  else some
    { kind := .antiAircraft
      side
      units := guns
      casualties := .immediate
      table := AntiAircraftFire.powerTable guns targets side rules
      lowLuck := rules.lowLuckForAntiAircraft }

/-- Anti-aircraft fire of both sides. Types may differ in what they fire at, so that the guns of
each type fire on their own. -/
def antiAircraftVolleys : List Volley :=
  Side.both.flatMap fun side =>
    let guns := (battle.units side).filter fun unit => (unit.traits rules).antiAircraft
    (Combatant.groups guns).filterMap (battle.antiAircraftVolley? rules side)

/-- The values of the units that fire in a step. -/
def stepCombat (step : FireStep) : MainCombat :=
  .of (step.select (battle.units step.firing) rules) (battle.units step.firing)
    (battle.units step.firing.opposite) step.firing rules supportRules battle.context

/-- The fire of a step, if it has units. -/
def stepVolley? (step : FireStep) : Option Volley :=
  let firing := step.select (battle.units step.firing) rules
  if firing.isEmpty then none
  else some
    { kind := if step.isFirstStrike then .firstStrike else .general
      side := step.firing
      units := firing
      casualties := step.casualties
      table := PowerTable.build? firing (battle.stepCombat rules supportRules step).calculator
      lowLuck := rules.lowLuck }

def plan : FirePlan := planRound battle.offense battle.defense rules

/-- Anti-aircraft guns fire in the first round only, before all other units. -/
def combatVolleys : List Volley :=
  (if battle.context.round = 1 then battle.antiAircraftVolleys rules else []) ++
    (battle.plan rules).steps.filterMap (battle.stepVolley? rules supportRules)

/-- The fire of the air units of a side, if it has any. -/
def airVolley? (side : Side) : Option Volley :=
  let firing := (battle.units side).filter fun unit => (unit.traits rules).air
  if firing.isEmpty then none
  else some
    { kind := .airBattle
      side
      units := firing
      casualties := .endOfRound
      table := AirBattle.powerTable firing side rules
      lowLuck := rules.lowLuck }

/-- The volleys of a round in the order in which they are fired. -/
def volleys : List Volley :=
  match battle.kind with
  | .combat => battle.combatVolleys rules supportRules
  | .airBattle => Side.both.filterMap (battle.airVolley? rules)

/-- The plan that a report shows. An air battle has none. -/
def plan? : Option FirePlan :=
  match battle.kind with
  | .combat => some (battle.plan rules)
  | .airBattle => none

end Battle

end Salvo
