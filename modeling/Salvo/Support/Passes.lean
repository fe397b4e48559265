import Salvo.Amount
import Salvo.Roster.ByUnit
import Salvo.Support.Allocation

/-! # Support passes

Support is handed out in four passes: strength from allies, strength from enemies, rolls from
allies, rolls from enemies. Each pass adds its grants to the records that the one before it
left. -/

namespace Salvo

/-- Strength and rolls of one unit while support is handed out. Penalties may make either
negative. -/
structure Might where
  strength : Int := 0
  rolls : Int := 0
  deriving DecidableEq, Repr, Inhabited

def Might.add (might : Might) (kind : BonusKind) (amount : Int) : Might :=
  match kind with
  | .strength => { might with strength := Amount.wrap (might.strength + amount) }
  | .rolls => { might with rolls := Amount.wrap (might.rolls + amount) }

/-- Adds a grant to the record of its recipient, if there is one. -/
def Grant.applyTo (grant : Grant) (records : ByUnit Might) : ByUnit Might :=
  records.modify grant.recipient (·.add grant.kind grant.amount)

def Grant.applyAll (grants : List Grant) (records : ByUnit Might) : ByUnit Might :=
  grants.foldl (fun records grant => grant.applyTo records) records

structure SupportOutcome where
  records : ByUnit Might := {}
  grants : List Grant := []
  deriving DecidableEq

namespace SupportOutcome

/-- The bonuses that a unit received, in the order in which they were given. -/
def bonusesFor (outcome : SupportOutcome) (id : Nat) : List Grant :=
  outcome.grants.filter (·.recipient == id)

/-- The units that a supporter served. -/
def supportedBy (outcome : SupportOutcome) (id : Nat) : List Nat :=
  (outcome.grants.filter (·.supporter == id)).map (·.recipient)

end SupportOutcome

namespace SupportPass

/-- The passes in the order in which they run. -/
def all : List SupportPass :=
  [⟨.strength, .allied⟩, ⟨.strength, .enemy⟩, ⟨.rolls, .allied⟩, ⟨.rolls, .enemy⟩]

def supporters (pass : SupportPass) (allies enemies : List Combatant) : List Combatant :=
  match pass.source with
  | .allied => allies
  | .enemy => enemies

/-- Runs passes in the given order from the outcome of earlier ones. -/
def run (recipients allies enemies : List Combatant) (rules : List SupportRule) (side : Side) :
    List SupportPass → SupportOutcome → SupportOutcome
  | [], outcome => outcome
  | pass :: passes, outcome =>
    let grants := pass.allocate recipients (pass.supporters allies enemies) rules side
    run recipients allies enemies rules side passes
      { records := Grant.applyAll grants outcome.records
        grants := outcome.grants ++ grants }

end SupportPass

/-- All support for the recipients, added to their base records. -/
def runSupportPasses (recipients allies enemies : List Combatant) (rules : List SupportRule)
    (side : Side) (base : ByUnit Might) : SupportOutcome :=
  SupportPass.run recipients allies enemies rules side SupportPass.all { records := base }

@[simp] theorem Grant.applyAll_nil (records : ByUnit Might) :
    Grant.applyAll [] records = records := rfl

theorem Grant.applyAll_append (grants more : List Grant) (records : ByUnit Might) :
    Grant.applyAll (grants ++ more) records =
      Grant.applyAll more (Grant.applyAll grants records) := by
  simp [Grant.applyAll]

end Salvo
