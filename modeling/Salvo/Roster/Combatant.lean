import Salvo.Roster.UnitType

/-! # Combatants

A combatant is one unit on a roster. Its id is its identity for the length of a battle.

Rosters are shown and fired type by type. `Combatant.groups` splits a roster into the units of
each type, and `Combatant.counts` counts them; both keep the types in order of first appearance. -/

namespace Salvo

structure Combatant where
  id : Nat
  type : UnitType
  owner : Player
  deriving DecidableEq, Repr, Inhabited

namespace Combatant

def typeName (unit : Combatant) : String := unit.type.name

/-- The id as it is shown. -/
def label (unit : Combatant) : String := "#" ++ toString unit.id

/-- Two records with one id describe the same unit. -/
def isSame (unit other : Combatant) : Bool := unit.id == other.id

/-- Adds a unit in front of the units of its type, and this group in front of the others. -/
def addToGroups (unit : Combatant) (groups : List (List Combatant)) : List (List Combatant) :=
  let isOwn (group : List Combatant) : Bool := group.head?.any (·.typeName == unit.typeName)
  (unit :: (groups.find? isOwn).getD []) :: groups.filter (!isOwn ·)

def groups (units : List Combatant) : List (List Combatant) := units.foldr addToGroups []

/-- Counts one more unit of the type called `name`. -/
def addToCounts (name : String) : List (String × Nat) → List (String × Nat)
  | [] => [(name, 1)]
  | (other, count) :: counts =>
    if other == name then (other, count + 1) :: counts
    else (other, count) :: addToCounts name counts

def counts (units : List Combatant) : List (String × Nat) :=
  units.foldl (fun counts unit => addToCounts unit.typeName counts) []

/-- The units as they are shown: `2 infantry, 1 artillery`. -/
def describe (units : List Combatant) : String :=
  ", ".intercalate ((counts units).map fun (name, count) => toString count ++ " " ++ name)

theorem groups_cons (unit : Combatant) (units : List Combatant) :
    groups (unit :: units) = addToGroups unit (groups units) := rfl

theorem counts_append_singleton (units : List Combatant) (unit : Combatant) :
    counts (units ++ [unit]) = addToCounts unit.typeName (counts units) := by
  simp [counts]

end Combatant

end Salvo
