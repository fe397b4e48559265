import Salvo.Power.Basic
import Salvo.Profile

/-! # Values in anti-aircraft fire

Guns fire at a number of targets, the strongest gun first. A gun has at most the rolls of its
type, or one for each target; and unless it may over-stack it rolls only for targets that no
stronger gun has covered. -/

namespace Salvo

/-- The rolls that a gun may make at a number of targets. -/
def AntiAircraft.rollLimit (gun : AntiAircraft) (targets : Int) : Int :=
  match gun.maxRolls with
  | some rolls => max 0 rolls
  | none => targets

structure AntiAircraftFire where
  diceSides : Int
  table : ByUnit CombatValues

namespace AntiAircraftFire

/-- The values of guns in order, while `remaining` targets are uncovered. -/
def assign (side : Side) (rules : RuleSet) (targets : Int) :
    Int → List Combatant → List (Nat × CombatValues)
  | _, [] => []
  | remaining, unit :: units =>
    match unit.type.antiAircraft with
    | none => assign side rules targets remaining units
    | some gun =>
      let limit := gun.rollLimit targets
      let rolls := if gun.mayOverStack then limit else min limit remaining
      let strength := gun.strength side
      let values : CombatValues :=
        { base := strength, strength, rolls, keepsBest := (unit.traits rules).keepsBest }
      (unit.id, values) ::
        assign side rules targets (if gun.mayOverStack then remaining else remaining - rolls) units

/-- The guns of a list, the strongest first. -/
def inOrder (units : List Combatant) (side : Side) : List Combatant :=
  sortStrongestFirst (fun unit => (unit.type.antiAircraftStrength? side).getD 0)
    (units.filter (·.type.antiAircraft.isSome))

/-- The dice of the first gun, with at least one side; without guns, those of the rules. -/
def sidesOf (guns : List Combatant) (rules : RuleSet) : Int :=
  match guns with
  | [] => rules.diceSides
  | first :: _ => max 1 ((first.type.antiAircraft.bind (·.diceSides)).getD rules.diceSides)

def of (units : List Combatant) (targetCount : Nat) (side : Side) (rules : RuleSet) :
    AntiAircraftFire :=
  let guns := inOrder units side
  let targets := min (targetCount : Int) Amount.most
  { diceSides := sidesOf guns rules
    table := ByUnit.ofList (assign side rules targets targets guns) }

def totalRolls (fire : AntiAircraftFire) : Int := Amount.sum (fire.table.values.map (·.rolls))

def calculator (fire : AntiAircraftFire) : Calculator := .ofTable fire.diceSides fire.table

end AntiAircraftFire

end Salvo
