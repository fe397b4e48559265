import Salvo.Document.Reading
import Salvo.Json.Value
import Salvo.Simulation

/-! # Writing documents

How players, unit types, rules, reports and summaries are shown as JSON, with every field. -/

namespace Salvo

open Json

/-! ## Words of the round -/

def SupportSource.word : SupportSource → String
  | allied => "allied"
  | enemy => "enemy"

def BonusKind.word : BonusKind → String
  | strength => "strength"
  | rolls => "rolls"

def FirstStrikeState.word : FirstStrikeState → String
  | notApplicable => "not_applicable"
  | firstStrike => "first_strike"
  | regular => "regular"

def ReturnFire.word : ReturnFire → String
  | none => "none"
  | firstStrikeOnly => "first_strike_only"
  | all => "all"

def CasualtyTiming.word : CasualtyTiming → String
  | immediate => "immediate"
  | afterFirstStrike => "after_first_strike"
  | endOfRound => "end_of_round"

def FireKind.word : FireKind → String
  | antiAircraft => "anti_aircraft"
  | firstStrike => "first_strike"
  | general => "general"
  | airBattle => "air_battle"

/-! ## What scenarios are made of -/

def BonusTable.toJson (table : BonusTable) : Value :=
  .object (table.entries.map fun (name, bonus) => (name, .whole bonus))

def Technology.toJson (technology : Technology) : Value :=
  .object
    [ ("improved_artillery_support", .flag technology.improvedArtillery),
      ("heavy_bombers", .flag technology.heavyBombers),
      ("attack_bonus", technology.attack.toJson),
      ("defense_bonus", technology.defense.toJson),
      ("attack_rolls_bonus", technology.attackRolls.toJson),
      ("defense_rolls_bonus", technology.defenseRolls.toJson) ]

def Player.toJson (player : Player) : Value :=
  .object [("id", .text player.name), ("tech", player.technology.toJson)]

def AntiAircraft.toJson (gun : AntiAircraft) : Value :=
  .object
    [ ("attack", .whole gun.attack),
      ("defense", .whole gun.defense),
      ("max_rolls", .ofOption .whole gun.maxRolls),
      ("dice_sides", .ofOption .whole gun.diceSides),
      ("may_over_stack", .flag gun.mayOverStack),
      ("targets", .texts gun.targets) ]

def UnitType.toJson (type : UnitType) : Value :=
  .object
    [ ("name", .text type.name),
      ("attack", .whole type.attack),
      ("defense", .whole type.defense),
      ("attack_rolls", .whole type.attackRolls),
      ("defense_rolls", .whole type.defenseRolls),
      ("air_attack", .whole type.airAttack),
      ("air_defense", .whole type.airDefense),
      ("marine_bonus", .whole type.marineBonus),
      ("aa", .ofOption AntiAircraft.toJson type.antiAircraft),
      ("is_first_strike", .flag type.isFirstStrike),
      ("is_destroyer", .flag type.isDestroyer),
      ("is_air", .flag type.isAir),
      ("is_strategic_bomber", .flag type.isStrategicBomber),
      ("is_suicide", .flag type.isSuicide),
      ("choose_best_roll", .flag type.keepsBest) ]

def RuleSet.toJson (rules : RuleSet) : Value :=
  .object
    [ ("dice_sides", .whole rules.diceSides),
      ("low_luck", .flag rules.lowLuck),
      ("low_luck_aa_only", .flag rules.lowLuckAntiAircraftOnly),
      ("ww2_v2", .flag rules.secondEdition),
      ("defending_subs_sneak_attack", .flag rules.defendersSneakAttack),
      ("subs_always_sneak_attack", .flag rules.alwaysSneakAttack),
      ("lhtr_heavy_bombers", .flag rules.heavyBombersKeepBest) ]

def SupportRule.toJson (rule : SupportRule) : Value :=
  .object
    [ ("name", .text rule.name),
      ("supporting_unit_type", .text rule.supporter),
      ("supported_unit_types", .texts rule.supported),
      ("bonus", .whole rule.bonus),
      ("capacity", .whole rule.capacity),
      ("kind", .text rule.kind.word),
      ("allied", .flag rule.allied),
      ("enemy", .flag rule.enemy),
      ("offense", .flag rule.offense),
      ("defense", .flag rule.defense),
      ("bonus_type", .text rule.bonusType),
      ("players", .texts rule.players),
      ("improved_artillery", .flag rule.improvedArtillery) ]

def TerritoryEffect.toJson (effect : TerritoryEffect) : Value :=
  .object
    [ ("name", .text effect.name),
      ("offense", effect.offense.toJson),
      ("defense", effect.defense.toJson) ]

def BattleContext.toJson (context : BattleContext) : Value :=
  .object
    [ ("territory", .text context.territory),
      ("round", .whole context.round),
      ("amphibious", .flag context.amphibious),
      ("territory_effects", .list (context.effects.map TerritoryEffect.toJson)) ]

/-! ## Support and power -/

def Grant.toJson (grant : Grant) : Value :=
  .object
    [ ("rule", .whole grant.rule),
      ("supporter", .whole grant.supporter),
      ("recipient", .whole grant.recipient),
      ("kind", .text grant.kind.word),
      ("source", .text grant.source.word),
      ("amount", .whole grant.amount) ]

def PowerRecord.toJson (record : PowerRecord) : Value :=
  .object
    [ ("id", .whole record.unit.id),
      ("type", .text record.unit.typeName),
      ("strength", .whole record.strength),
      ("rolls", .whole record.rolls),
      ("power", .whole record.power),
      ("choose_best_roll", .flag record.keepsBest) ]

def PowerTable.toJson (table : PowerTable) : Value :=
  .object
    [ ("units", .list (table.records.map PowerRecord.toJson)),
      ("dice_sides", .whole table.diceSides),
      ("total_power", .whole table.totalPower),
      ("total_rolls", .whole table.totalRolls),
      ("has_strength_or_rolls", .flag table.canHit),
      ("expected_hits", .real table.expectedHits) ]

/-! ## Rolls and reports -/

def Die.toJson (die : Die) : Value :=
  .object
    [ ("value", .whole die.value),
      ("threshold", .whole die.threshold),
      ("outcome", .text die.outcome.word) ]

def Roll.toJson (roll : Roll) : Value :=
  .object
    [ ("dice", .list (roll.dice.map Die.toJson)),
      ("hits", .whole roll.hits),
      ("expected_hits", .real roll.expectedHits),
      ("player", .text roll.player) ]

def FireGroup.toJson : FireGroup → Value
  | firstStrike => .text "first_strike"
  | general includesFirstStrike =>
    .object [("general", .object [("includes_first_strike", .flag includesFirstStrike)])]

def FireStep.toJson (step : FireStep) : Value :=
  .object
    [ ("firing", .text step.firing.name),
      ("group", step.group.toJson),
      ("return_fire", .text step.returnFire.word),
      ("casualties", .text step.casualties.word) ]

def FirePlan.toJson (plan : FirePlan) : Value :=
  .object
    [ ("offense", .text plan.offense.word),
      ("defense", .text plan.defense.word),
      ("steps", .list (plan.steps.map FireStep.toJson)) ]

/-- Spent units are shown only if there are any. -/
def Fire.toJson (fire : Fire) : Value :=
  .object <|
    [ ("kind", .text fire.kind.word),
      ("side", .text fire.side.name),
      ("player", .text fire.player),
      ("units", .text fire.units),
      ("casualties", .text fire.casualties.word),
      ("roll", fire.roll.toJson) ] ++
    if fire.spent.isEmpty then []
    else [("spent", .list (fire.spent.map fun (id : Nat) => .whole id))]

def RoundReport.toJson (report : RoundReport) : Value :=
  .object
    [ ("round", .whole report.round),
      ("plan", .ofOption FirePlan.toJson report.plan),
      ("fires", .list (report.fires.map Fire.toJson)) ]

def HistoryEntry.toJson (entry : HistoryEntry) : Value :=
  .object
    [ ("text", .text entry.text),
      ("child", .flag entry.isDetail),
      ("roll", .ofOption Roll.toJson entry.roll) ]

/-! ## Summaries -/

def SideSummary.toJson (summary : SideSummary) : Value :=
  .object
    [ ("mean_hits", .real summary.meanHits),
      ("expected_hits", .real summary.expectedHits),
      ("min_hits", .whole summary.minHits),
      ("max_hits", .whole summary.maxHits),
      ("distribution", .object (summary.distribution.map fun (hits, rounds) =>
        (toString hits, .whole rounds))) ]

def SimulationSummary.toJson (summary : SimulationSummary) : Value :=
  .object
    [ ("rounds", .whole summary.rounds),
      ("offense", summary.offense.toJson),
      ("defense", summary.defense.toJson) ]

end Salvo
