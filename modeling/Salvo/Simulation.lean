import Salvo.Scenario

/-! # Simulation

A simulation resolves one battle many times, each time with dice of its own, and counts how often
each side scored how many hits. Round `i` of a seeded simulation rolls the dice of the seed
`seed + i`. -/

namespace Salvo

structure SideSummary where
  meanHits : Float := 0.0
  /-- The same in every round; to be compared with the mean. -/
  expectedHits : Float := 0.0
  minHits : Int := 0
  maxHits : Int := 0
  /-- The number of rounds for each number of hits, fewest hits first. -/
  distribution : List (Int × Nat) := []
  deriving Repr, Inhabited

/-- How often each number occurs in a list, from the least number to the greatest. -/
def histogram (numbers : List Int) : List (Int × Nat) :=
  (sortOn id numbers.eraseDups).map fun number => (number, numbers.count number)

namespace SideSummary

def ofReports (reports : List RoundReport) (side : Side) : SideSummary :=
  match reports with
  | [] => {}
  | first :: _ =>
    let hits := reports.map (·.hitsBy side)
    let distribution := histogram hits
    { meanHits := Float.ofInt hits.sum / Float.ofNat reports.length
      expectedHits := first.expectedHitsBy side
      minHits := (distribution.head?.map (·.1)).getD 0
      maxHits := (distribution.getLast?.map (·.1)).getD 0
      distribution }

end SideSummary

structure SimulationSummary where
  rounds : Nat
  offense : SideSummary
  defense : SideSummary
  deriving Repr

namespace SimulationSummary

def side (summary : SimulationSummary) : Side → SideSummary :=
  Side.pick summary.offense summary.defense

def ofReports (reports : List RoundReport) : SimulationSummary where
  rounds := reports.length
  offense := .ofReports reports .offense
  defense := .ofReports reports .defense

end SimulationSummary

/-- The dice of one round of a simulation; seeds start again from zero after the last one. -/
def roundDice (seed : Nat) (round : Nat) : Generator := .ofSeed (.ofNat (seed + round))

namespace BattleSetup

/-- The reports of the rounds with the given dice, up to the first failure. The volleys of a round
do not depend on dice and are laid out once. -/
def resolveEach (setup : BattleSetup) (dice : List Generator) :
    Except CombatError (List RoundReport) :=
  let volleys := setup.battle.volleys setup.rules setup.supportRules
  dice.mapM fun generator => (setup.battle.resolveVolleys setup.rules volleys generator []).outcome

theorem resolveEach_eq (setup : BattleSetup) (dice : List Generator) :
    setup.resolveEach dice = dice.mapM fun generator => (setup.resolve generator []).outcome := rfl

def simulate (setup : BattleSetup) (rounds seed : Nat) : Except CombatError SimulationSummary := do
  let reports ← setup.resolveEach ((List.range rounds).map (roundDice seed))
  return .ofReports reports

end BattleSetup

end Salvo
