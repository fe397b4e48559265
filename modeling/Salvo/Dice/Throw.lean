import Salvo.Dice.Roll
import Salvo.Dice.Source
import Salvo.Power.Basic

/-! # Throwing the dice of a group

`PowerTable.rollAll` rolls one die for each roll and scores it against the strength of its unit;
`PowerTable.rollLowLuck` divides the power by the sides of a die and rolls for the remainder only.
`PowerTable.throwDice` chooses between them, and asks for no dice where nothing can hit.

Each of them has two parts: how many dice of how many sides it asks for, and how the answered
values are scored. -/

namespace Salvo

inductive CombatError where
  | dice (error : DiceError)
  | invalidDiceSides (sides : Int)
  | shortRoll (wanted got : Nat)
  /-- Strengths cannot be brought into `0..sides`. -/
  | noStrengthRange (sides : Int)
  deriving DecidableEq, Repr

def CombatError.message : CombatError → String
  | dice error => "random source failed: " ++ error.message
  | invalidDiceSides sides => "dice must have at least one side, got " ++ toString sides
  | shortRoll wanted got =>
    "random source returned " ++ toString got ++ " values, wanted " ++ toString wanted
  | noStrengthRange sides => "strengths cannot be limited to 0.." ++ toString sides

/-- Asks a source for dice; an answer with too few values is an error. -/
def requestDice {σ : Type} [DiceSource σ] (request : DiceRequest) (source : σ) :
    Except CombatError (List Int) × σ :=
  match DiceSource.request request source with
  | (.error error, source) => (.error (.dice error), source)
  | (.ok values, source) =>
    if values.length < request.count then
      (.error (.shortRoll request.count values.length), source)
    else (.ok values, source)

/-- The first place at which a list has its least value. -/
def leastIndex (values : List Int) : Nat := values.idxOf (values.min?.getD 0)

/-- Scores the dice of a unit: all of them, or only the first of the best. -/
def PowerRecord.score (record : PowerRecord) (values : List Int) : List Die :=
  if record.keepsBest ∧ 1 < values.length then
    let best := leastIndex values
    values.mapIdx fun index value =>
      if index = best then .scored value record.strength else .ignored value record.strength
  else values.map (Die.scored · record.strength)

/-- Scores values in the order of the records, each of which takes as many as it has rolls. -/
def PowerRecord.scoreAll : List PowerRecord → List Int → List Die
  | [], _ => []
  | record :: records, values =>
    record.score (values.take record.rolls.toNat) ++
      scoreAll records (values.drop record.rolls.toNat)

def countHits (dice : List Die) : Int := (dice.filter (·.isHit)).length

namespace PowerTable

variable {σ : Type} [DiceSource σ]

/-- The power of a firing group, where strengths can be brought into range. -/
def build? (units : List Combatant) (calculator : Calculator) : Except CombatError PowerTable :=
  if calculator.diceSides < 0 ∧ !units.isEmpty then
    .error (.noStrengthRange calculator.diceSides)
  else .ok (build units calculator)

theorem build?_of_nonneg (units : List Combatant) (calculator : Calculator)
    (h : 0 ≤ calculator.diceSides) : build? units calculator = .ok (build units calculator) := by
  rw [build?, if_neg]
  omega

/-- The roll of all dice once their values are known. -/
def scoreRoll (table : PowerTable) (player : String) (values : List Int) : Roll :=
  let dice := PowerRecord.scoreAll table.records values
  { dice, hits := countHits dice, expectedHits := table.expectedHits, player }

/-- Rolls one die for each roll. -/
def rollAll (table : PowerTable) (label : DiceLabel) (source : σ) :
    Except CombatError Roll × σ :=
  if table.diceSides < 1 then (.error (.invalidDiceSides table.diceSides), source)
  else if table.totalRolls ≤ 0 then (.ok (.empty label.player), source)
  else
    match requestDice ⟨table.diceSides, table.totalRolls.toNat, label⟩ source with
    | (.error error, source) => (.error error, source)
    | (.ok values, source) => (.ok (table.scoreRoll label.player values), source)

/-- The hits that are certain in low luck. -/
def sureHits (table : PowerTable) : Int := table.totalPower / table.diceSides

/-- The power that is left to be rolled for in low luck. -/
def remainder (table : PowerTable) : Int := table.totalPower % table.diceSides

/-- The low-luck roll with the dice that were rolled for the remainder, one or none. -/
def lowLuckRoll (table : PowerTable) (player : String) (values : List Int) : Roll :=
  let dice := (values.take 1).map (Die.scored · table.remainder)
  { dice
    hits := table.sureHits + countHits dice
    expectedHits := table.expectedHits
    player }

/-- Divides the power by the sides of a die and rolls one die for a remainder. -/
def rollLowLuck (table : PowerTable) (label : DiceLabel) (source : σ) :
    Except CombatError Roll × σ :=
  if table.diceSides < 1 then (.error (.invalidDiceSides table.diceSides), source)
  else if table.remainder ≤ 0 then (.ok (table.lowLuckRoll label.player []), source)
  else
    match requestDice ⟨table.diceSides, 1, label⟩ source with
    | (.error error, source) => (.error error, source)
    | (.ok values, source) => (.ok (table.lowLuckRoll label.player values), source)

/-- Fires the group. A group that cannot hit rolls nothing. -/
def throwDice (table : PowerTable) (lowLuck : Bool) (label : DiceLabel) (source : σ) :
    Except CombatError Roll × σ :=
  if !table.canHit then (.ok (.empty label.player), source)
  else if lowLuck then table.rollLowLuck label source
  else table.rollAll label source

/-- Fires a group whose power could be built. -/
def throwBuilt (table : Except CombatError PowerTable) (lowLuck : Bool) (label : DiceLabel)
    (source : σ) : Except CombatError Roll × σ :=
  match table with
  | .error error => (.error error, source)
  | .ok table => table.throwDice lowLuck label source

end PowerTable

end Salvo
