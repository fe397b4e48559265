import Salvo.Proofs.FirstFailure
import Salvo.Proofs.Round.Firing
import Salvo.Simulation

/-! # What the dice do not decide

The dice decide the values that a round shows, the outcomes of the dice and the hits, and nothing
else. Two rounds of a battle that are fired from any two sources have the same plan and fire by fire
the same outline, number of dice and thresholds (`Battle.outlines_eq_of_ok`); only a group with more
rolls than an amount can be may show more dice than that, when it is given more. So the expected
hits of a simulation can be read off any of its rounds.

All this is laid down by the volleys, before dice are thrown: `Volley.outline` and
`Volley.thresholds` say what a fire will show. -/

namespace Salvo

/-- What a fire shows, its dice apart. -/
structure FireOutline where
  kind : FireKind
  side : Side
  player : String
  units : String
  casualties : CasualtyTiming
  spent : List Nat
  expectedHits : Float

def Fire.outline (fire : Fire) : FireOutline where
  kind := fire.kind
  side := fire.side
  player := fire.player
  units := fire.units
  casualties := fire.casualties
  spent := fire.spent
  expectedHits := fire.roll.expectedHits

def Fire.thresholds (fire : Fire) : List Int := fire.roll.dice.map (·.threshold)

namespace Volley

def expectedHits (volley : Volley) : Float :=
  match volley.table with
  | .ok table => if table.canHit then table.expectedHits else 0
  | .error _ => 0

def outline (volley : Volley) (battle : Battle) (rules : RuleSet) : FireOutline where
  kind := volley.kind
  side := volley.side
  player := battle.player volley.side
  units := Combatant.describe volley.units
  casualties := volley.casualties
  spent := volley.spent rules
  expectedHits := volley.expectedHits

/-- The thresholds of the dice that the volley rolls. -/
def thresholds (volley : Volley) : List Int :=
  match volley.table with
  | .ok table => table.thresholds volley.lowLuck
  | .error _ => []

/-- The rolls of the volley do not exceed the range of amounts. -/
def RollsFit (volley : Volley) : Prop :=
  ∀ table, volley.table = .ok table → table.exactRolls ≤ Amount.most

end Volley

/-! ## One run -/

variable {σ : Type} [DiceSource σ] {battle : Battle} {rules : RuleSet}
  {supportRules : List SupportRule} {volleys : List Volley} {source rest : σ} {rolls : List Roll}

theorem Fired.expectedHits_eq (h : Fired battle volleys source rolls rest)
    (hlawful : ∀ volley ∈ volleys, volley.Lawful rules) :
    List.Forall₂ (fun volley roll => roll.expectedHits = volley.expectedHits) volleys rolls := by
  refine (h.forall₂_rollOf hlawful).imp ?_
  rintro volley roll ⟨table, values, htable, rfl⟩
  rw [PowerTable.expectedHits_rollOf, Volley.expectedHits, htable]

/-- Whatever the source gives, the first dice of a volley have its thresholds, and there are no
others unless there are more than an amount can be. -/
theorem Fired.take_thresholds_eq (h : Fired battle volleys source rolls rest)
    (hlawful : ∀ volley ∈ volleys, volley.Lawful rules) :
    List.Forall₂ (fun volley roll =>
      (roll.dice.map (·.threshold)).take Amount.most.toNat = volley.thresholds) volleys rolls := by
  have hdealt := List.forall₂_and_left _ _ |>.mpr ⟨hlawful, h.forall₂_deals hlawful⟩
  refine hdealt.imp ?_
  rintro volley roll ⟨hvolley, table, values, _, _, htable, hdeals, -, rfl⟩
  rw [(hvolley.inRange htable).take_threshold_rollOf hdeals.count_le hdeals.eq_nil,
    Volley.thresholds, htable]

/-- A source may give too many values, as long as they fit the rolls of the volleys or the range
of amounts. -/
theorem Fired.thresholds_eq (h : Fired battle volleys source rolls rest)
    (hlawful : ∀ volley ∈ volleys, volley.Lawful rules)
    (hfit : (∀ volley ∈ volleys, volley.RollsFit) ∨ DiceSource.Measured source) :
    List.Forall₂ (fun volley roll => roll.dice.map (·.threshold) = volley.thresholds) volleys
      rolls := by
  have hdealt := List.forall₂_and_left _ _ |>.mpr
    ⟨fun _ => id, h.forall₂_deals hlawful⟩
  refine hdealt.imp ?_
  rintro volley roll ⟨hmem, table, values, _, _, htable, hdeals, hmeasured, rfl⟩
  have hrange := (hlawful volley hmem).inRange htable
  have hfits : table.exactRolls ≤ Amount.most ∨ values.length ≤ Amount.most.toNat :=
    hfit.imp (fun hrolls => hrolls volley hmem table htable) fun hsource =>
      (hmeasured hsource).length_le hdeals (hrange.diceCount_le_most _)
  rw [hrange.map_threshold_rollOf hdeals.count_le hdeals.eq_nil hfits, Volley.thresholds, htable]

/-! ## Two runs -/

theorem RoundReport.expectedHitsBy_eq (report : RoundReport) (side : Side) :
    report.expectedHitsBy side =
      ((report.fires.map (·.outline)).filter (·.side = side)).foldl
        (fun sum outline => sum + outline.expectedHits) (-0.0) := by
  rw [expectedHitsBy, firesBy, List.filter_map, List.foldl_map]
  rfl

theorem mapM_eq_ok_iff {α β ε : Type} {f : α → Except ε β} {xs : List α} {ys : List β} :
    xs.mapM f = .ok ys ↔ List.Forall₂ (fun x y => f x = .ok y) xs ys := by
  induction xs generalizing ys with
  | nil => cases ys <;> simp [pure, Except.pure]
  | cons x xs ih =>
    simp only [List.mapM_cons, bind_eq_ok_iff, ih, List.forall₂_cons_left_iff]
    constructor
    · rintro ⟨first, hfirst, more, hmore, h⟩
      cases h
      exact ⟨first, more, hfirst, hmore, rfl⟩
    · rintro ⟨first, more, hfirst, hmore, rfl⟩
      exact ⟨first, hfirst, more, hmore, rfl⟩

theorem exists_of_mem_mapM {α β ε : Type} {f : α → Except ε β} {xs : List α} {ys : List β}
    (h : xs.mapM f = .ok ys) {y : β} (hy : y ∈ ys) : ∃ x ∈ xs, f x = .ok y := by
  replace h := mapM_eq_ok_iff.mp h
  induction h with
  | nil => cases hy
  | cons hfirst _ ih =>
    rcases List.mem_cons.mp hy with rfl | hy
    · exact ⟨_, List.mem_cons_self, hfirst⟩
    · obtain ⟨x, hx, hf⟩ := ih hy
      exact ⟨x, List.mem_cons_of_mem _ hx, hf⟩

namespace Battle

variable {history : History} {report : RoundReport}

/-- The outlines of the fires are those of the volleys. -/
theorem map_outline_of_ok
    (h : (battle.resolveRound rules supportRules source history).outcome = .ok report) :
    report.fires.map (·.outline) =
      (battle.volleys rules supportRules).map (·.outline battle rules) := by
  obtain ⟨rolls, hfired, rfl⟩ := exists_fired_of_ok h
  refine map_fires_report ((hfired.expectedHits_eq fun _ => lawful_of_mem_volleys).imp ?_)
  intro volley roll hexpected
  rw [Fire.outline, Volley.outline, ← hexpected]
  rfl

theorem map_take_thresholds_of_ok
    (h : (battle.resolveRound rules supportRules source history).outcome = .ok report) :
    report.fires.map (·.thresholds.take Amount.most.toNat) =
      (battle.volleys rules supportRules).map (·.thresholds) := by
  obtain ⟨rolls, hfired, rfl⟩ := exists_fired_of_ok h
  exact map_fires_report (hfired.take_thresholds_eq fun _ => lawful_of_mem_volleys)

theorem map_thresholds_of_ok
    (h : (battle.resolveRound rules supportRules source history).outcome = .ok report)
    (hfit : (∀ volley ∈ battle.volleys rules supportRules, volley.RollsFit) ∨
      DiceSource.Measured source) :
    report.fires.map (·.thresholds) =
      (battle.volleys rules supportRules).map (·.thresholds) := by
  obtain ⟨rolls, hfired, rfl⟩ := exists_fired_of_ok h
  exact map_fires_report (hfired.thresholds_eq (fun _ => lawful_of_mem_volleys) hfit)

theorem plan_of_ok
    (h : (battle.resolveRound rules supportRules source history).outcome = .ok report) :
    report.plan = battle.plan? rules := by
  obtain ⟨rolls, _, rfl⟩ := exists_fired_of_ok h
  rfl

/-- A bomber that keeps its best die, against infantry. -/
def bomberRaid : Battle where
  attacker := { name := "Germans" }
  defender := { name := "Russians" }
  offense :=
    [⟨0, { name := "bomber", attack := 4, attackRolls := 2, keepsBest := true },
      { name := "Germans" }⟩]
  defense := [⟨1, { name := "infantry", defense := 2 }, { name := "Russians" }⟩]
  context := { territory := "Ukraine" }

end Battle

end Salvo
