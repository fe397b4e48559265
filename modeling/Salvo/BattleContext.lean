import Salvo.Roster.UnitType

/-! # Where and when a round is fought -/

namespace Salvo

/-- Terrain or weather that changes the strength of unit types. -/
structure TerritoryEffect where
  name : String
  offense : BonusTable := {}
  defense : BonusTable := {}
  deriving DecidableEq, Repr, Inhabited

def TerritoryEffect.modifier (effect : TerritoryEffect) (typeName : String) (side : Side) : Int :=
  (side.pick effect.offense effect.defense).get typeName

structure BattleContext where
  territory : String
  round : Nat := 1
  /-- The attackers are landing from transports. -/
  amphibious : Bool := false
  effects : List TerritoryEffect := []
  deriving DecidableEq, Repr, Inhabited

namespace BattleContext

def inTerritory (territory : String) : BattleContext := { territory }

def withRound (context : BattleContext) (round : Nat) : BattleContext := { context with round }

def asAmphibious (context : BattleContext) : BattleContext := { context with amphibious := true }

def withEffect (context : BattleContext) (effect : TerritoryEffect) : BattleContext :=
  { context with effects := context.effects ++ [effect] }

/-- What the territory adds to the strength of a unit type. -/
def modifier (context : BattleContext) (typeName : String) (side : Side) : Int :=
  Amount.sum (context.effects.map (·.modifier typeName side))

end BattleContext

end Salvo
