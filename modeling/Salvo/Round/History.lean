import Salvo.Dice.Roll
import Salvo.Roster.Combatant

/-! # Battle history

A history is a list of events with the details that belong to them. Every roll is written as an
event that says who rolled for which units where, and a detail with the dice. -/

namespace Salvo

structure HistoryEntry where
  text : String
  /-- Whether the entry is a detail of the event before it. -/
  isDetail : Bool
  roll : Option Roll := none
  deriving Repr

abbrev History := List HistoryEntry

namespace History

def startEvent (history : History) (text : String) : History :=
  history ++ [{ text, isDetail := false }]

def addDetail (history : History) (text : String) (roll : Option Roll := none) : History :=
  history ++ [{ text, isDetail := true, roll }]

/-- The history as it is shown, with details indented. -/
def lines (history : History) : List String :=
  history.map fun entry => if entry.isDetail then "  " ++ entry.text else entry.text

end History

def rollEventText (player : String) (units : List Combatant) (territory : String) (round : Nat) :
    String :=
  player ++ " roll dice for " ++ Combatant.describe units ++ " in " ++ territory ++ ", round " ++
    toString round

def rollDetailText (caption : String) (roll : Roll) : String :=
  caption ++ " : " ++ roll.diceText

end Salvo
