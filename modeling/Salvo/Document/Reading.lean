import Salvo.Json.Reader
import Salvo.Scenario

/-! # Reading documents

How players, unit types, rules, rolls and scenarios are written in JSON. Fields are listed in the
order in which a record may also be written as a list. -/

namespace Salvo

open Json Json.Reader

/-! ## Names of alternatives -/

namespace Side

def reader : Reader Side := choice (both.map fun side => (side.name, side))

end Side

namespace BattleKind

def word : BattleKind → String
  | combat => "combat"
  | airBattle => "air_battle"

def reader : Reader BattleKind :=
  choice ([combat, airBattle].map fun kind => (kind.word, kind))

end BattleKind

namespace DicePurpose

def word : DicePurpose → String
  | combat => "combat"
  | antiAircraft => "anti_aircraft"
  | airBattle => "air_battle"

def reader : Reader DicePurpose :=
  choice ([combat, antiAircraft, airBattle].map fun purpose => (purpose.word, purpose))

end DicePurpose

namespace DieOutcome

def word : DieOutcome → String
  | hit => "hit"
  | miss => "miss"
  | ignored => "ignored"

def reader : Reader DieOutcome :=
  choice ([hit, miss, ignored].map fun outcome => (outcome.word, outcome))

end DieOutcome

/-! ## Players and unit types -/

/-- A whole number of 32 bits. -/
def Amount.reader : Reader Int := wholeIn Amount.least Amount.most

/-- Bonuses by name. Of a repeated name the last bonus counts. -/
def BonusTable.reader : Reader BonusTable := table Amount.reader ByName.set {}

def Technology.reader : Reader Technology :=
  record
    [ .optional "improved_artillery_support" flag fun t v => { t with improvedArtillery := v },
      .optional "heavy_bombers" flag fun t v => { t with heavyBombers := v },
      .optional "attack_bonus" BonusTable.reader fun t v => { t with attack := v },
      .optional "defense_bonus" BonusTable.reader fun t v => { t with defense := v },
      .optional "attack_rolls_bonus" BonusTable.reader fun t v => { t with attackRolls := v },
      .optional "defense_rolls_bonus" BonusTable.reader fun t v => { t with defenseRolls := v } ]
    {}

def Player.reader : Reader Player :=
  record
    [ .required "id" text fun p v => { p with name := v },
      .optional "tech" Technology.reader fun p v => { p with technology := v } ]
    { name := "" }

def AntiAircraft.reader : Reader AntiAircraft :=
  record
    [ .optional "attack" Amount.reader fun a v => { a with attack := v },
      .optional "defense" Amount.reader fun a v => { a with defense := v },
      .optional "max_rolls" (nullable Amount.reader) fun a v => { a with maxRolls := v },
      .optional "dice_sides" (nullable Amount.reader) fun a v => { a with diceSides := v },
      .optional "may_over_stack" flag fun a v => { a with mayOverStack := v },
      .optional "targets" (list text) fun a v => { a with targets := v } ]
    {}

def UnitType.reader : Reader UnitType :=
  record
    [ .required "name" text fun t v => { t with name := v },
      .optional "attack" Amount.reader fun t v => { t with attack := v },
      .optional "defense" Amount.reader fun t v => { t with defense := v },
      .optional "attack_rolls" Amount.reader fun t v => { t with attackRolls := v },
      .optional "defense_rolls" Amount.reader fun t v => { t with defenseRolls := v },
      .optional "air_attack" Amount.reader fun t v => { t with airAttack := v },
      .optional "air_defense" Amount.reader fun t v => { t with airDefense := v },
      .optional "marine_bonus" Amount.reader fun t v => { t with marineBonus := v },
      .optional "aa" (nullable AntiAircraft.reader) fun t v => { t with antiAircraft := v },
      .optional "is_first_strike" flag fun t v => { t with isFirstStrike := v },
      .optional "is_destroyer" flag fun t v => { t with isDestroyer := v },
      .optional "is_air" flag fun t v => { t with isAir := v },
      .optional "is_strategic_bomber" flag fun t v => { t with isStrategicBomber := v },
      .optional "is_suicide" flag fun t v => { t with isSuicide := v },
      .optional "choose_best_roll" flag fun t v => { t with keepsBest := v } ]
    { name := "" }

/-! ## Rules and the place of a battle -/

def RuleSet.reader : Reader RuleSet :=
  record
    [ .optional "dice_sides" Amount.reader fun r v => { r with diceSides := v },
      .optional "low_luck" flag fun r v => { r with lowLuck := v },
      .optional "low_luck_aa_only" flag fun r v => { r with lowLuckAntiAircraftOnly := v },
      .optional "ww2_v2" flag fun r v => { r with secondEdition := v },
      .optional "defending_subs_sneak_attack" flag fun r v => { r with defendersSneakAttack := v },
      .optional "subs_always_sneak_attack" flag fun r v => { r with alwaysSneakAttack := v },
      .optional "lhtr_heavy_bombers" flag fun r v => { r with heavyBombersKeepBest := v } ]
    {}

def SupportRule.Draft.reader : Reader SupportRule.Draft :=
  record
    [ .required "name" text fun d v => { d with name := v },
      .required "supporting_unit_type" text fun d v => { d with supporter := v },
      .required "supported_unit_types" (list text) fun d v => { d with supported := v },
      .required "bonus" Amount.reader fun d v => { d with bonus := v },
      .required "capacity" Amount.reader fun d v => { d with capacity := v },
      .optional "strength" flag fun d v => { d with strength := v },
      .optional "rolls" flag fun d v => { d with rolls := v },
      .optional "allied" flag fun d v => { d with allied := v },
      .optional "enemy" flag fun d v => { d with enemy := v },
      .optional "offense" flag fun d v => { d with offense := v },
      .optional "defense" flag fun d v => { d with defense := v },
      .optional "bonus_type" (nullable text) fun d v => { d with bonusType := v },
      .optional "players" (list text) fun d v => { d with players := v },
      .optional "improved_artillery" flag fun d v => { d with improvedArtillery := v } ]
    {}

def SupportRule.reader : Reader SupportRule :=
  accept Draft.reader fun draft => draft.toRule.mapError (·.message)

def TerritoryEffect.reader : Reader TerritoryEffect :=
  record
    [ .required "name" text fun e v => { e with name := v },
      .optional "offense" BonusTable.reader fun e v => { e with offense := v },
      .optional "defense" BonusTable.reader fun e v => { e with defense := v } ]
    { name := "" }

def BattleContext.reader : Reader BattleContext :=
  record
    [ .required "territory" text fun c v => { c with territory := v },
      .optional "round" (natural 32) fun c v => { c with round := v },
      .optional "amphibious" flag fun c v => { c with amphibious := v },
      .optional "territory_effects" (list TerritoryEffect.reader) fun c v =>
        { c with effects := v } ]
    { territory := "" }

/-! ## Rolls -/

def Die.reader : Reader Die :=
  record
    [ .required "value" Amount.reader fun d v => { d with value := v },
      .required "threshold" Amount.reader fun d v => { d with threshold := v },
      .required "outcome" DieOutcome.reader fun d v => { d with outcome := v } ]
    (Die.scored 0 0)

def Roll.reader : Reader Roll :=
  record
    [ .required "dice" (list Die.reader) fun r v => { r with dice := v },
      .required "hits" Amount.reader fun r v => { r with hits := v },
      .required "expected_hits" real fun r v => { r with expectedHits := v },
      .required "player" text fun r v => { r with player := v } ]
    (Roll.empty "")

/-! ## Scenarios -/

def RosterEntry.reader : Reader RosterEntry :=
  record
    [ .required "unit_type" text fun e v => { e with unitType := v },
      .required "count" (natural 64) fun e v => { e with count := v } ]
    { unitType := "", count := 0 }

def Scenario.reader : Reader Scenario :=
  record
    [ .optional "rules" RuleSet.reader fun s v => { s with rules := v },
      .optional "unit_types" (list UnitType.reader) fun s v => { s with unitTypes := v },
      .optional "support_rules" (nullable (list SupportRule.reader)) fun s v =>
        { s with supportRules := v },
      .optional "kind" BattleKind.reader fun s v => { s with kind := v },
      .required "attacker" Player.reader fun s v => { s with attacker := v },
      .required "defender" Player.reader fun s v => { s with defender := v },
      .required "context" BattleContext.reader fun s v => { s with context := v },
      .optional "offense" (list RosterEntry.reader) fun s v => { s with offense := v },
      .optional "defense" (list RosterEntry.reader) fun s v => { s with defense := v },
      .optional "seed" (nullable (natural 64)) fun s v => { s with seed := v } ]
    { attacker := { name := "" }, defender := { name := "" }, context := { territory := "" } }

/-! ## Files -/

/-- Why a file cannot be read. -/
inductive FileError where
  | notFound
  | permissionDenied
  | notDirectory
  | isDirectory
  | nameTooLong
  | notText
  | failed (reason : String)
  deriving DecidableEq, Repr

def FileError.message : FileError → String
  | notFound => "No such file or directory (os error 2)"
  | permissionDenied => "Permission denied (os error 13)"
  | notDirectory => "Not a directory (os error 20)"
  | isDirectory => "Is a directory (os error 21)"
  | nameTooLong => "File name too long (os error 36)"
  | notText => "stream did not contain valid UTF-8"
  | failed reason => reason

/-- Why a document cannot be had. -/
inductive DocumentError (ε : Type) where
  | unreadable (path : String) (error : FileError)
  | json (problem : Problem)
  | invalid (error : ε)

def unreadableMessage (path : String) (error : FileError) : String :=
  "failed to read " ++ path ++ ": " ++ error.message

namespace DocumentError

variable {ε : Type}

/-- The message of an error, where `kind` tells what kind of document was wanted and `invalid`
speaks for the errors of that kind. -/
def message (kind : String) (invalid : ε → String) : DocumentError ε → String
  | unreadable path error => unreadableMessage path error
  | json problem => kind ++ ": " ++ problem.message
  | .invalid error => invalid error

end DocumentError

/-- A rule set from its text, checked. -/
def RuleSet.parse (text : String) : Except (DocumentError RuleSetError) RuleSet := do
  let rules ← (Reader.parse RuleSet.reader text).mapError .json
  rules.validate.mapError .invalid
  return rules

def RuleSet.errorMessage (error : DocumentError RuleSetError) : String :=
  error.message "failed to parse rule set JSON" RuleSetError.message

def Scenario.parse (text : String) : Except (DocumentError PreparationError) Scenario :=
  (Reader.parse Scenario.reader text).mapError .json

def Scenario.errorMessage (error : DocumentError PreparationError) : String :=
  error.message "invalid scenario JSON" PreparationError.message

/-- A document from a file of which the contents or an error are known. -/
def loadDocument {ε α : Type} (parse : String → Except (DocumentError ε) α) (path : String)
    (contents : Except FileError String) : Except (DocumentError ε) α :=
  match contents with
  | .error error => .error (.unreadable path error)
  | .ok text => parse text

end Salvo
