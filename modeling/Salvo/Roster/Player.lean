import Salvo.ByName

/-! # Players and their technology -/

namespace Salvo

/-- Bonuses by unit type name. A name that is not listed has no bonus. -/
abbrev BonusTable := ByName Int

def BonusTable.get (table : BonusTable) (name : String) : Int := (table.get? name).getD 0

structure Technology where
  /-- Units whose support improves with artillery technology support twice as often. -/
  improvedArtillery : Bool := false
  /-- Strategic bombers roll one more die when attacking. -/
  heavyBombers : Bool := false
  attack : BonusTable := {}
  defense : BonusTable := {}
  attackRolls : BonusTable := {}
  defenseRolls : BonusTable := {}
  deriving DecidableEq, Repr, Inhabited

structure Player where
  name : String
  technology : Technology := {}
  deriving DecidableEq, Repr, Inhabited

end Salvo
