import Salvo.ByName
import Salvo.Roster.Combatant
import Salvo.StableSort
import Salvo.Support.Rule

/-! # Handing out support

One pass hands out the support of one kind from one source. Every supporter offers as many slots
as its rule has capacity; the rules are taken in the order of what their bonuses are worth to the
firing side's luck, and each slot in turn serves the first recipient that has not yet received a
bonus of its bonus type.

Recipients wait in lines, one for each bonus type and unit type, that hold them in their given
order. A line loses its head when a slot serves it. -/

namespace Salvo

structure SupportPass where
  kind : BonusKind
  source : SupportSource
  deriving DecidableEq, Repr

/-- A single bonus given by one unit to another. -/
structure Grant where
  /-- The position of the rule in the list of rules. -/
  rule : Nat
  supporter : Nat
  recipient : Nat
  kind : BonusKind
  source : SupportSource
  amount : Int
  deriving DecidableEq, Repr

/-- One use of a support rule by one supporter. -/
structure SupportSlot where
  index : Nat
  rule : SupportRule
  supporter : Nat
  deriving DecidableEq, Repr

namespace SupportSlot

/-- The slots of one rule, in the order of the supporters. -/
def ofRule (recipients supporters : List Combatant) (side : Side) (pass : SupportPass)
    (rule : SupportRule) (index : Nat) : List SupportSlot :=
  if rule.appliesTo pass.kind pass.source side &&
      recipients.any (fun unit => rule.supports unit.typeName) then
    (supporters.filter fun unit =>
        unit.typeName == rule.supporter && rule.canBeGivenBy unit.owner).flatMap fun unit =>
      List.replicate (rule.capacityFor unit.owner) { index, rule, supporter := unit.id }
  else []

/-- The place of a rule in the order of use: allies give large bonuses first, enemies small
ones. -/
def rank (source : SupportSource) (rule : SupportRule) : Int :=
  match source with
  | .allied => -rule.bonus
  | .enemy => rule.bonus

/-- All slots in the order of use. Rules of equal worth keep their order. -/
def ofRules (recipients supporters : List Combatant) (rules : List SupportRule) (side : Side)
    (pass : SupportPass) : List SupportSlot :=
  (sortOn (fun (rule, _) => rank pass.source rule) rules.zipIdx).flatMap fun (rule, index) =>
    ofRule recipients supporters side pass rule index

theorem rule_of_mem_ofRule {recipients supporters : List Combatant} {side : Side}
    {pass : SupportPass} {rule : SupportRule} {index : Nat} {slot : SupportSlot}
    (h : slot ∈ ofRule recipients supporters side pass rule index) : slot.rule = rule := by
  rw [ofRule] at h
  split at h
  · obtain ⟨_, _, h⟩ := List.mem_flatMap.mp h
    rw [List.eq_of_mem_replicate h]
  · simp at h

/-- The order of use is that of the slots sorted by rank. -/
theorem ofRules_eq_sortOn (recipients supporters : List Combatant) (rules : List SupportRule)
    (side : Side) (pass : SupportPass) :
    ofRules recipients supporters rules side pass =
      sortOn (fun slot => rank pass.source slot.rule) (rules.zipIdx.flatMap fun (rule, index) =>
        ofRule recipients supporters side pass rule index) := by
  refine (sortOn_flatMap (fun _ _ h => ?_) rules.zipIdx).symm
  rw [rule_of_mem_ofRule h]

end SupportSlot

/-- The recipients that wait, by bonus type and unit type. A line forms when a slot first looks for
a unit of its type. -/
structure WaitingRoom where
  lines : ByName (ByName (List Nat)) := {}
  deriving DecidableEq, Repr

namespace WaitingRoom

def line? (room : WaitingRoom) (bonusType typeName : String) : Option (List Nat) :=
  ((room.lines.get? bonusType).getD {}).get? typeName

def setLine (room : WaitingRoom) (bonusType typeName : String) (line : List Nat) : WaitingRoom :=
  ⟨room.lines.set bonusType (((room.lines.get? bonusType).getD {}).set typeName line)⟩

/-- The line of a type as a slot finds it. All recipients of the type form a new line. -/
def line (room : WaitingRoom) (recipients : List Combatant) (bonusType typeName : String) :
    List Nat :=
  match room.line? bonusType typeName with
  | some line => line
  | none => (recipients.filter (·.typeName == typeName)).map (·.id)

/-- Takes the first recipient out of the first line that has one, trying the types in order. -/
def serve (room : WaitingRoom) (recipients : List Combatant) (bonusType : String) :
    List String → Option Nat × WaitingRoom
  | [] => (none, room)
  | typeName :: typeNames =>
    match room.line recipients bonusType typeName with
    | [] => (room.setLine bonusType typeName []).serve recipients bonusType typeNames
    | recipient :: line => (some recipient, room.setLine bonusType typeName line)

/-- Lets each slot serve a recipient; a slot without one is lost. -/
def handOut (room : WaitingRoom) (pass : SupportPass) (recipients : List Combatant) :
    List SupportSlot → List Grant
  | [] => []
  | slot :: slots =>
    match room.serve recipients slot.rule.bonusType slot.rule.supported with
    | (none, room) => room.handOut pass recipients slots
    | (some recipient, room) =>
      { rule := slot.index
        supporter := slot.supporter
        recipient
        kind := pass.kind
        source := pass.source
        amount := slot.rule.bonus } :: room.handOut pass recipients slots

theorem line?_setLine (room : WaitingRoom) (bonusType typeName : String) (line : List Nat)
    (otherBonus otherType : String) :
    (room.setLine bonusType typeName line).line? otherBonus otherType =
      if otherBonus = bonusType ∧ otherType = typeName then some line
      else room.line? otherBonus otherType := by
  by_cases hbonus : otherBonus = bonusType <;> by_cases htype : otherType = typeName <;>
    simp [setLine, line?, ByName.get?_set, hbonus, htype]

theorem line_setLine (room : WaitingRoom) (recipients : List Combatant)
    (bonusType typeName : String) (line : List Nat) (otherBonus otherType : String) :
    (room.setLine bonusType typeName line).line recipients otherBonus otherType =
      if otherBonus = bonusType ∧ otherType = typeName then line
      else room.line recipients otherBonus otherType := by
  rw [WaitingRoom.line, line?_setLine]
  by_cases h : otherBonus = bonusType ∧ otherType = typeName
  · simp only [if_pos h]
  · simp only [if_neg h]
    rfl

end WaitingRoom

/-- The grants of one pass. Recipients stand strongest first; the supporters are the allies of
the recipients or their enemies, as the pass says. -/
def SupportPass.allocate (pass : SupportPass) (recipients supporters : List Combatant)
    (rules : List SupportRule) (side : Side) : List Grant :=
  WaitingRoom.handOut {} pass recipients <|
    SupportSlot.ofRules recipients supporters rules side pass

end Salvo
