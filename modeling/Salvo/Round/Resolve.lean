import Salvo.Round.History
import Salvo.Round.Volley

/-! # Resolving a round

The volleys of a round are fired one after the other from one source of dice. `fireAll` keeps what
was fired before a failure, the failure and the source that is left; the report and the history of
the round are read off this. Hits are reported, and casualties are left to the caller. -/

namespace Salvo

/-- The outcome of one side firing once. -/
structure Fire where
  kind : FireKind
  side : Side
  player : String
  units : String
  casualties : CasualtyTiming
  roll : Roll
  /-- Suicide units that fired. They are lost whatever the dice say. -/
  spent : List Nat
  deriving Repr

structure RoundReport where
  round : Nat
  plan : Option FirePlan
  fires : List Fire
  deriving Repr

namespace RoundReport

def firesBy (report : RoundReport) (side : Side) : List Fire :=
  report.fires.filter (·.side = side)

def hitsBy (report : RoundReport) (side : Side) : Int :=
  Amount.sum ((report.firesBy side).map (·.roll.hits))

/-- The expected hits of a side, added from left to right. Of no fires the sum is negative
zero. -/
def expectedHitsBy (report : RoundReport) (side : Side) : Float :=
  (report.firesBy side).foldl (fun sum fire => sum + fire.roll.expectedHits) (-0.0)

end RoundReport

namespace Volley

def caption (volley : Volley) (battle : Battle) : String :=
  battle.player volley.side ++ " " ++ volley.kind.name

def label (volley : Volley) (battle : Battle) : DiceLabel where
  player := battle.player volley.side
  purpose := volley.kind.purpose
  caption := volley.caption battle

/-- The suicide units of the volley. -/
def spent (volley : Volley) (rules : RuleSet) : List Nat :=
  (volley.units.filter fun unit => (unit.traits rules).suicide).map (·.id)

/-- What the volley did, once its dice are known. -/
def outcome (volley : Volley) (battle : Battle) (rules : RuleSet) (roll : Roll) : Fire where
  kind := volley.kind
  side := volley.side
  player := battle.player volley.side
  units := Combatant.describe volley.units
  casualties := volley.casualties
  roll := roll
  spent := volley.spent rules

/-- The lines about a volley in the history. -/
def chronicle (volley : Volley) (battle : Battle) (roll : Roll) (history : History) : History :=
  (history.startEvent (rollEventText (battle.player volley.side) volley.units
    battle.context.territory battle.context.round)).addDetail
      (rollDetailText (volley.caption battle) roll) (some roll)

variable {σ : Type} [DiceSource σ]

/-- Throws the dice of the volley. -/
def throwDice (volley : Volley) (battle : Battle) (source : σ) : Except CombatError Roll × σ :=
  PowerTable.throwBuilt volley.table volley.lowLuck (volley.label battle) source

end Volley

/-- How far a list of volleys came. -/
structure Salvoes (σ : Type) where
  /-- The volleys that were fired, with their rolls. -/
  fired : List (Volley × Roll)
  failure : Option CombatError
  source : σ

/-- Fires volleys in order, up to the first failure. -/
def fireAll {σ : Type} [DiceSource σ] (battle : Battle) : List Volley → σ → Salvoes σ
  | [], source => { fired := [], failure := none, source }
  | volley :: volleys, source =>
    match volley.throwDice battle source with
    | (.error error, source) => { fired := [], failure := some error, source }
    | (.ok roll, source) =>
      let later := fireAll battle volleys source
      { later with fired := (volley, roll) :: later.fired }

structure Resolution (σ : Type) where
  outcome : Except CombatError RoundReport
  history : History
  source : σ

namespace Battle

variable {σ : Type} [DiceSource σ]

/-- The report of a round in which all volleys were fired. -/
def report (battle : Battle) (rules : RuleSet) (fired : List (Volley × Roll)) : RoundReport where
  round := battle.context.round
  plan := battle.plan? rules
  fires := fired.map fun (volley, roll) => volley.outcome battle rules roll

/-- Resolves a round whose volleys are known. -/
def resolveVolleys (battle : Battle) (rules : RuleSet) (volleys : List Volley) (source : σ)
    (history : History) : Resolution σ :=
  let salvoes := fireAll battle volleys source
  { outcome :=
      match salvoes.failure with
      | some error => .error error
      | none => .ok (battle.report rules salvoes.fired)
    history := salvoes.fired.foldl (fun history (volley, roll) =>
      volley.chronicle battle roll history) history
    source := salvoes.source }

/-- Resolves one round. Rolls before a failure stay in the history. -/
def resolveRound (battle : Battle) (rules : RuleSet) (supportRules : List SupportRule)
    (source : σ) (history : History) : Resolution σ :=
  battle.resolveVolleys rules (battle.volleys rules supportRules) source history

end Battle

end Salvo
