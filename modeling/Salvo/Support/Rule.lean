import Salvo.Roster.Catalog

/-! # Support rules

A support rule says which unit type gives a bonus to which others, how large it is, and how many
units one supporter can serve. `SupportRule.Draft` is a rule as it is written down, with a flag
for each kind of bonus; `Draft.toRule` accepts exactly the drafts that name one kind of bonus and
can ever take effect. -/

namespace Salvo

/-- What a support bonus changes. -/
inductive BonusKind where
  | strength
  | rolls
  deriving DecidableEq, Repr

/-- Whose units give a support bonus, seen from the unit that receives it. -/
inductive SupportSource where
  | allied
  | enemy
  deriving DecidableEq, Repr

inductive SupportRuleError where
  | ambiguousBonusKind (rule : String)
  | missingBonusKind (rule : String)
  | negativeCapacity (rule : String) (capacity : Int)
  | noSupportedTypes (rule : String)
  | noBeneficiary (rule : String)
  | neverActive (rule : String)
  | unknownUnitType (rule unitType : String)
  deriving DecidableEq, Repr

namespace SupportRuleError

def rule : SupportRuleError → String
  | ambiguousBonusKind rule | missingBonusKind rule | negativeCapacity rule _
  | noSupportedTypes rule | noBeneficiary rule | neverActive rule | unknownUnitType rule _ => rule

def complaint : SupportRuleError → String
  | ambiguousBonusKind _ => "modifies both strength and rolls"
  | missingBonusKind _ => "modifies neither strength nor rolls"
  | negativeCapacity _ capacity => "has negative capacity " ++ toString capacity
  | noSupportedTypes _ => "supports no unit types"
  | noBeneficiary _ => "is neither allied nor enemy support"
  | neverActive _ => "is active on neither offense nor defense"
  | unknownUnitType _ unitType => "names unknown unit type '" ++ unitType ++ "'"

def message (error : SupportRuleError) : String :=
  "support rule '" ++ error.rule ++ "' " ++ error.complaint

end SupportRuleError

structure SupportRule where
  name : String
  supporter : String
  /-- The types that receive the bonus, in the order in which recipients are sought. -/
  supported : List String
  bonus : Int
  /-- How many units one supporter serves. -/
  capacity : Nat
  kind : BonusKind
  allied : Bool := true
  enemy : Bool := false
  offense : Bool := true
  defense : Bool := true
  /-- In one pass a unit takes one bonus of each bonus type. -/
  bonusType : String := "default"
  /-- Owners whose units may give the support; an empty list stands for all. -/
  players : List String := []
  /-- Owners with improved artillery have twice the capacity. -/
  improvedArtillery : Bool := false
  deriving DecidableEq, Repr

namespace SupportRule

def strength (name supporter : String) (supported : List String) (bonus : Int) (capacity : Nat) :
    SupportRule :=
  { name, supporter, supported, bonus, capacity, kind := .strength }

def rolls (name supporter : String) (supported : List String) (bonus : Int) (capacity : Nat) :
    SupportRule :=
  { name, supporter, supported, bonus, capacity, kind := .rolls }

def againstEnemies (rule : SupportRule) : SupportRule := { rule with allied := false, enemy := true }

def offenseOnly (rule : SupportRule) : SupportRule :=
  { rule with offense := true, defense := false }

def defenseOnly (rule : SupportRule) : SupportRule :=
  { rule with offense := false, defense := true }

def withBonusType (rule : SupportRule) (bonusType : String) : SupportRule :=
  { rule with bonusType }

def forPlayers (rule : SupportRule) (players : List String) : SupportRule := { rule with players }

def withImprovedArtillery (rule : SupportRule) : SupportRule :=
  { rule with improvedArtillery := true }

/-- Checks what can be checked without a catalog. -/
def validate (rule : SupportRule) : Except SupportRuleError Unit :=
  if rule.supported.isEmpty then .error (.noSupportedTypes rule.name)
  else if !rule.allied && !rule.enemy then .error (.noBeneficiary rule.name)
  else if !rule.offense && !rule.defense then .error (.neverActive rule.name)
  else .ok ()

/-- The side on which the supporters of a unit on `side` fight. -/
def supporterSide (source : SupportSource) (side : Side) : Side :=
  match source with
  | .allied => side
  | .enemy => side.opposite

/-- Whether the rule takes part in a pass for recipients on `side`. Rules name the sides of the
supporter. -/
def appliesTo (rule : SupportRule) (kind : BonusKind) (source : SupportSource) (side : Side) :
    Bool :=
  rule.kind = kind &&
    (match source with
      | .allied => rule.allied
      | .enemy => rule.enemy) &&
    (supporterSide source side).pick rule.offense rule.defense

def supports (rule : SupportRule) (typeName : String) : Bool := rule.supported.contains typeName

def canBeGivenBy (rule : SupportRule) (owner : Player) : Bool :=
  rule.players.isEmpty || rule.players.contains owner.name

def capacityFor (rule : SupportRule) (owner : Player) : Nat :=
  if rule.improvedArtillery && owner.technology.improvedArtillery then rule.capacity * 2 % 2 ^ 32
  else rule.capacity

theorem capacityFor_of_capacity_eq_zero {rule : SupportRule} {owner : Player}
    (h : rule.capacity = 0) : rule.capacityFor owner = 0 := by
  simp [capacityFor, h]

/-- The unit types that the rule names, the supporting one first. -/
def typeNames (rule : SupportRule) : List String := rule.supporter :: rule.supported

/-- Checks that a catalog has all types that the rule names. -/
def check (catalog : Catalog) (rule : SupportRule) : Except SupportRuleError Unit :=
  match rule.typeNames.find? (!catalog.contains ·) with
  | some name => .error (.unknownUnitType rule.name name)
  | none => .ok ()

def checkAll (catalog : Catalog) : List SupportRule → Except SupportRuleError Unit
  | [] => .ok ()
  | rule :: rules => do
    rule.check catalog
    checkAll catalog rules

/-- Each attacking artillery strengthens one infantry or marine. -/
def classic : List SupportRule :=
  [(strength "artillery" "artillery" ["infantry", "marine"] 1 1).offenseOnly.withImprovedArtillery]

/-- A support rule as it is written down. -/
structure Draft where
  name : String := ""
  supporter : String := ""
  supported : List String := []
  bonus : Int := 0
  capacity : Int := 0
  strength : Bool := false
  rolls : Bool := false
  allied : Bool := false
  enemy : Bool := false
  offense : Bool := false
  defense : Bool := false
  bonusType : Option String := none
  players : List String := []
  improvedArtillery : Bool := false
  deriving DecidableEq, Repr

namespace Draft

def kind (draft : Draft) : Except SupportRuleError BonusKind :=
  match draft.strength, draft.rolls with
  | true, true => .error (.ambiguousBonusKind draft.name)
  | false, false => .error (.missingBonusKind draft.name)
  | true, false => .ok .strength
  | false, true => .ok .rolls

def toRule (draft : Draft) : Except SupportRuleError SupportRule := do
  let kind ← draft.kind
  if draft.capacity < 0 then throw (.negativeCapacity draft.name draft.capacity)
  let rule : SupportRule :=
    { name := draft.name
      supporter := draft.supporter
      supported := draft.supported
      bonus := draft.bonus
      capacity := draft.capacity.toNat
      kind
      allied := draft.allied
      enemy := draft.enemy
      offense := draft.offense
      defense := draft.defense
      bonusType := draft.bonusType.getD "default"
      players := draft.players
      improvedArtillery := draft.improvedArtillery }
  rule.validate
  return rule

end Draft

end SupportRule

end Salvo
