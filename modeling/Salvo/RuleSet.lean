/-! # Rule sets

The options of a game that change how fire is resolved. -/

namespace Salvo

structure RuleSet where
  diceSides : Int := 6
  /-- Hits are power divided by the sides of a die; only the remainder is rolled. -/
  lowLuck : Bool := false
  lowLuckAntiAircraftOnly : Bool := false
  /-- Second edition: the victims of a sneak attack keep their first-strike units until those
  have fired. -/
  secondEdition : Bool := false
  defendersSneakAttack : Bool := false
  /-- First-strike units sneak attack even when facing destroyers. -/
  alwaysSneakAttack : Bool := false
  /-- Heavy bombers keep the best of their dice. -/
  heavyBombersKeepBest : Bool := false
  deriving DecidableEq, Repr, Inhabited

inductive RuleSetError where
  | invalidDiceSides (sides : Int)
  deriving DecidableEq, Repr

def RuleSetError.message : RuleSetError → String
  | invalidDiceSides sides => "dice must have at least one side, got " ++ toString sides

namespace RuleSet

def validate (rules : RuleSet) : Except RuleSetError Unit :=
  if rules.diceSides < 1 then .error (.invalidDiceSides rules.diceSides) else .ok ()

def lowLuckForAntiAircraft (rules : RuleSet) : Bool :=
  rules.lowLuck || rules.lowLuckAntiAircraftOnly

theorem validate_eq_ok_iff (rules : RuleSet) : rules.validate = .ok () ↔ 1 ≤ rules.diceSides := by
  unfold validate
  split <;> simp <;> omega

end RuleSet

end Salvo
