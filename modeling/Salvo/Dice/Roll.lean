import Salvo.Amount
import Salvo.Number.FixedPlaces

/-! # Dice and rolls -/

namespace Salvo

inductive DieOutcome where
  | hit
  | miss
  /-- Rolled, but a better die of the same unit counts. -/
  | ignored
  deriving DecidableEq, Repr

/-- One die. Its value is counted from zero. -/
structure Die where
  value : Int
  threshold : Int
  outcome : DieOutcome
  deriving DecidableEq, Repr

namespace Die

/-- A die hits when its value is below the threshold. -/
def scored (value threshold : Int) : Die where
  value := value
  threshold := threshold
  outcome := if value < threshold then .hit else .miss

def ignored (value threshold : Int) : Die := { value, threshold, outcome := .ignored }

def isHit (die : Die) : Bool := die.outcome = .hit

/-- The face as it is shown, counted from one. -/
def face (die : Die) : String := toString (Amount.wrap (die.value + 1))

@[simp] theorem isHit_scored (value threshold : Int) :
    (scored value threshold).isHit = decide (value < threshold) := by
  unfold scored isHit
  split <;> simp_all

@[simp] theorem isHit_ignored (value threshold : Int) : (ignored value threshold).isHit = false :=
  rfl

end Die

/-- What one group rolled. In low luck the hits are not those of the dice. -/
structure Roll where
  dice : List Die
  hits : Int
  expectedHits : Float
  player : String
  deriving Repr

namespace Roll

def empty (player : String) : Roll := { dice := [], hits := 0, expectedHits := 0, player }

def isEmpty (roll : Roll) : Bool := roll.dice.isEmpty && roll.hits = 0

def count (roll : Roll) (outcome : DieOutcome) : Nat :=
  (roll.dice.filter (·.outcome = outcome)).length

/-- The faces of the dice, or `none`. -/
def diceText (roll : Roll) : String :=
  if roll.dice.isEmpty then "none" else ",".intercalate (roll.dice.map (·.face))

def describe (roll : Roll) : String :=
  toString roll.hits ++ " hits [" ++ roll.diceText ++ "] expected " ++
    fixedPlaces 2 roll.expectedHits

end Roll

end Salvo
