import Salvo.Profile

/-! # The order of fire

Before a round it is settled whether the first-strike units of each side make a sneak attack, and
in which order the groups of both sides fire. A plan lists the steps in that order, each with the
moment at which its casualties leave the battle.

First-strike steps come before the main exchange, offense before defense. A side whose sneak
attack is denied fires its first-strike units in the main exchange; in the second edition they
fire in the first-strike phase after all, if they are the victims of a sneak attack. -/

namespace Salvo

/-- What the first-strike units of a side do in a round. -/
inductive FirstStrikeState where
  /-- The side has none. -/
  | notApplicable
  /-- They make a sneak attack. -/
  | firstStrike
  /-- They fire without surprise. -/
  | regular
  deriving DecidableEq, Repr

def FirstStrikeState.name : FirstStrikeState → String
  | notApplicable => "not applicable"
  | firstStrike => "first strike"
  | regular => "regular"

/-- Who answers a step before its casualties leave. -/
inductive ReturnFire where
  | none
  | firstStrikeOnly
  | all
  deriving DecidableEq, Repr

/-- When the casualties of a step leave the battle. -/
inductive CasualtyTiming where
  | immediate
  | afterFirstStrike
  | endOfRound
  deriving DecidableEq, Repr

/-- Casualties stay until everyone who answers the step has fired. -/
def ReturnFire.timing : ReturnFire → CasualtyTiming
  | none => .immediate
  | firstStrikeOnly => .afterFirstStrike
  | all => .endOfRound

/-- The units of a side that fire in a step. -/
inductive FireGroup where
  | firstStrike
  | general (includesFirstStrike : Bool)
  deriving DecidableEq, Repr

def FireGroup.isFirstStrike : FireGroup → Bool
  | firstStrike => true
  | general _ => false

def FireGroup.admits (group : FireGroup) (traits : Traits) : Bool :=
  match group with
  | firstStrike => traits.firstStrike
  | general includesFirstStrike => includesFirstStrike || !traits.firstStrike

/-- One side firing once. -/
structure FireStep where
  firing : Side
  group : FireGroup
  returnFire : ReturnFire
  casualties : CasualtyTiming
  deriving DecidableEq, Repr

namespace FireStep

/-- The units that fire in the step, out of those of the firing side. -/
def select (step : FireStep) (units : List Combatant) (rules : RuleSet) : List Combatant :=
  units.filter fun unit => step.group.admits (unit.traits rules)

def isFirstStrike (step : FireStep) : Bool := step.group.isFirstStrike

def answeredBy (firing : Side) (group : FireGroup) (returnFire : ReturnFire) : FireStep :=
  { firing, group, returnFire, casualties := returnFire.timing }

end FireStep

structure FirePlan where
  offense : FirstStrikeState
  defense : FirstStrikeState
  steps : List FireStep
  deriving DecidableEq, Repr

namespace FirePlan

def state (plan : FirePlan) : Side → FirstStrikeState := Side.pick plan.offense plan.defense

def firstStrikeSteps (plan : FirePlan) : List FireStep := plan.steps.filter (·.isFirstStrike)

def generalSteps (plan : FirePlan) : List FireStep := plan.steps.filter (!·.isFirstStrike)

end FirePlan

/-- The state of a side against the opposing units. Destroyers prevent sneak attacks unless the
rules ignore them, and defenders need a rule that allows them. -/
def firstStrikeState (side : Side) (own opposing : List Combatant) (rules : RuleSet) :
    FirstStrikeState :=
  if !own.any (fun unit => (unit.traits rules).firstStrike) then .notApplicable
  else if rules.alwaysSneakAttack then .firstStrike
  else
    let prevented := opposing.any fun unit => (unit.traits rules).destroyer
    let allowed := !side.isDefending || rules.defendersSneakAttack || rules.secondEdition
    if !prevented && allowed then .firstStrike else .regular

/-- The return fire that a sneak attack on a side in the given state meets. -/
def returnFireOf (victim : FirstStrikeState) (rules : RuleSet) : ReturnFire :=
  match victim with
  | .firstStrike => .firstStrikeOnly
  | .regular => if rules.secondEdition then .firstStrikeOnly else .none
  | .notApplicable => .none

/-- The step of a side in the first-strike phase, if it has one. -/
def firstStrikeStep? (side : Side) (own other : FirstStrikeState) (rules : RuleSet) :
    Option FireStep :=
  match own with
  | .firstStrike => some (.answeredBy side .firstStrike (returnFireOf other rules))
  | .regular =>
    if rules.secondEdition ∧ other = .firstStrike then
      some (.answeredBy side .firstStrike .all)
    else none
  | .notApplicable => none

/-- The step of a side in the main exchange. First-strike units take part if they have not fired
before. -/
def generalStep (side : Side) (own other : FirstStrikeState) (rules : RuleSet) : FireStep :=
  let firedEarly := (firstStrikeStep? side own other rules).isSome
  .answeredBy side (.general (own = .regular && !firedEarly)) .all

def planRound (offense defense : List Combatant) (rules : RuleSet) : FirePlan :=
  let offenseState := firstStrikeState .offense offense defense rules
  let defenseState := firstStrikeState .defense defense offense rules
  let state := Side.pick offenseState defenseState
  { offense := offenseState
    defense := defenseState
    steps :=
      Side.both.filterMap (fun side =>
        firstStrikeStep? side (state side) (state side.opposite) rules) ++
      Side.both.map fun side => generalStep side (state side) (state side.opposite) rules }

end Salvo
