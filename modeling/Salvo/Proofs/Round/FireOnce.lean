import Salvo.Proofs.Roster.Groups
import Salvo.Proofs.Round.FireOrder
import Salvo.Proofs.Round.Firing

/-! # Every unit fires once

The steps of a side share out its roster: each unit is admitted by exactly one of them
(`FirePlan.countP_admits`). Whether a side's first-strike units fire in the first phase or in the
main exchange depends on both rosters and on the rules, and the main exchange leaves them out just
when they have fired before.

A round fires the steps that have units, one after the other, behind its anti-aircraft fire
(`units_fire_once`). -/

namespace Salvo

/-- The steps of one side, in their order. -/
def FirePlan.stepsBy (plan : FirePlan) (side : Side) : List FireStep :=
  plan.steps.filter (·.firing = side)

/-- The places of a roster whose units fire in the step. -/
def FireStep.places (step : FireStep) (roster : List Combatant) (rules : RuleSet) : List Nat :=
  (roster.zipIdx.filter fun (unit, _) => step.group.admits (unit.traits rules)).map (·.2)

namespace FireStep

variable {step : FireStep} {roster : List Combatant} {rules : RuleSet}

theorem mem_places_iff {place : Nat} :
    place ∈ step.places roster rules ↔
      ∃ unit, roster[place]? = some unit ∧ step.group.admits (unit.traits rules) := by
  simp only [places, List.mem_map, List.mem_filter, Prod.exists, List.mem_zipIdx_iff_getElem?]
  constructor
  · rintro ⟨unit, _, hunit, rfl⟩
    exact ⟨unit, hunit⟩
  · rintro ⟨unit, hunit⟩
    exact ⟨unit, place, hunit, rfl⟩

theorem pairwise_places (step : FireStep) (roster : List Combatant) (rules : RuleSet) :
    (step.places roster rules).Pairwise (· < ·) := by
  have hplaces : (step.places roster rules).Sublist (List.range' 0 roster.length) := by
    rw [← List.zipIdx_map_snd]
    exact List.filter_sublist.map _
  exact (List.pairwise_lt_range' 1).sublist hplaces

/-- A step selects the units at its places, in the order of the roster. -/
theorem select_eq (step : FireStep) (roster : List Combatant) (rules : RuleSet) :
    step.select roster rules = (step.places roster rules).filterMap (roster[·]?) := by
  have hselect : step.select roster rules =
      (roster.zipIdx.filter fun (unit, _) => step.group.admits (unit.traits rules)).map (·.1) := by
    rw [select]
    conv_lhs => rw [← List.zipIdx_map_fst 0 roster]
    exact List.filter_map
  rw [hselect, places, List.filterMap_map, ← List.filterMap_eq_map]
  refine List.filterMap_congr fun (unit, place) hplace => ?_
  exact (List.mem_zipIdx_iff_getElem?.mp (List.mem_filter.mp hplace).1).symm

end FireStep

/-! ## The steps of a side -/

theorem not_firstStrike_of_notApplicable {side : Side} {own opposing : List Combatant}
    {rules : RuleSet} (h : firstStrikeState side own opposing rules = .notApplicable) :
    ∀ unit ∈ own, ¬ (unit.traits rules).firstStrike := by
  unfold firstStrikeState at h
  split at h
  · rename_i hnone
    simpa using hnone
  · dsimp only at h
    split at h
    · cases h
    · split at h <;> cases h

namespace FirePlan

variable {plan : FirePlan} {rules : RuleSet} {side : Side}

theorem Laid.stepsBy_eq (h : plan.Laid rules) (side : Side) :
    plan.stepsBy side = (plan.strike? rules side).toList ++ [plan.exchange rules side] := by
  have hboth : Side.both.filter (· = side) = [side] := by cases side <;> rfl
  have hstrikes : (Side.both.filterMap (plan.strike? rules)).filter (·.firing = side) =
      (Side.both.filter (· = side)).filterMap (plan.strike? rules) := by
    rw [List.filter_filterMap, List.filterMap_filter]
    refine List.filterMap_congr fun own _ => ?_
    cases hown : plan.strike? rules own with
    | none => simp
    | some step => simp [Option.filter, firing_of_strike? hown]
  have hexchanges : (Side.both.map (plan.exchange rules)).filter (·.firing = side) =
      [plan.exchange rules side] := by
    cases side <;> rfl
  rw [stepsBy, h, List.filter_append, hstrikes, hexchanges, hboth]
  cases hside : plan.strike? rules side <;> simp [hside]

theorem state_planRound (offense defense : List Combatant) (rules : RuleSet) (side : Side) :
    (planRound offense defense rules).state side =
      firstStrikeState side (side.pick offense defense) (side.opposite.pick offense defense)
        rules := by
  cases side <;> rfl

/-- Of the steps of its side, exactly one admits a unit. -/
theorem countP_admits (offense defense : List Combatant) (rules : RuleSet) (side : Side) :
    ∀ unit ∈ side.pick offense defense,
      ((planRound offense defense rules).stepsBy side).countP
        (·.group.admits (unit.traits rules)) = 1 := by
  intro unit hunit
  have h := laid_planRound offense defense rules
  have hstate := state_planRound offense defense rules side
  generalize planRound offense defense rules = plan at h hstate ⊢
  rw [h.stepsBy_eq side]
  have hexchange := plan.group_exchange rules side
  cases hstrike : plan.strike? rules side with
  | some step =>
    -- Two phases: the main exchange leaves out the units that have fired before.
    have hfirst : step.group = .firstStrike := by
      have hstep := (planned_of_strike? hstrike).1
      cases hgroup : step.group with
      | firstStrike => rfl
      | general => simp [FireStep.isFirstStrike, hgroup, FireGroup.isFirstStrike] at hstep
    rw [hstrike, Option.isSome_some, Bool.not_true, Bool.and_false] at hexchange
    cases hunit : (unit.traits rules).firstStrike <;>
      simp [hfirst, hexchange, FireGroup.admits, hunit]
  | none =>
    -- The main exchange alone: it includes first-strike units, or there are none.
    have hnone : ¬ (plan.strike? rules side).isSome := by simp [hstrike]
    rw [strike?, isSome_firstStrikeStep?_iff] at hnone
    rw [hstrike, Option.isSome_none, Bool.not_false, Bool.and_true] at hexchange
    cases hown : plan.state side with
    | notApplicable =>
      have hfirst := not_firstStrike_of_notApplicable (hstate.symm.trans hown) unit hunit
      simp [hexchange, FireGroup.admits, hown, hfirst]
    | firstStrike => exact absurd (.inl hown) hnone
    | regular => simp [hexchange, FireGroup.admits, hown]

end FirePlan

/-! ## The fires of a round -/

/-- What a fire shows of who fires and when the casualties leave. -/
abbrev FireHeading : Type := FireKind × Side × String × CasualtyTiming

def Fire.heading (fire : Fire) : FireHeading :=
  (fire.kind, fire.side, fire.units, fire.casualties)

def Volley.heading (volley : Volley) : FireHeading :=
  (volley.kind, volley.side, Combatant.describe volley.units, volley.casualties)

def FireStep.heading (step : FireStep) (roster : List Combatant) (rules : RuleSet) : FireHeading :=
  (if step.isFirstStrike then .firstStrike else .general, step.firing,
    Combatant.describe (step.select roster rules), step.casualties)

namespace Battle

variable {battle : Battle} {rules : RuleSet} {supportRules : List SupportRule}

theorem kind_of_mem_antiAircraftVolleys {volley : Volley}
    (h : volley ∈ battle.antiAircraftVolleys rules) : volley.kind = .antiAircraft := by
  obtain ⟨side, _, h⟩ := List.mem_flatMap.mp h
  obtain ⟨guns, _, h⟩ := List.mem_filterMap.mp h
  rw [eq_of_antiAircraftVolley? h]

/-- A step has a volley if it has units. -/
theorem map_heading_stepVolley? (battle : Battle) (rules : RuleSet)
    (supportRules : List SupportRule) (step : FireStep) :
    (battle.stepVolley? rules supportRules step).map (·.heading) =
      if (step.select (battle.units step.firing) rules).isEmpty then none
      else some (step.heading (battle.units step.firing) rules) := by
  unfold stepVolley?
  dsimp only
  split <;> rfl

theorem map_heading_stepVolleys (steps : List FireStep) :
    (steps.filterMap (battle.stepVolley? rules supportRules)).map (·.heading) =
      (steps.filter fun step => !(step.select (battle.units step.firing) rules).isEmpty).map
        fun step => step.heading (battle.units step.firing) rules := by
  induction steps with
  | nil => rfl
  | cons step steps ih =>
    have hstep := battle.map_heading_stepVolley? rules supportRules step
    by_cases hempty : (step.select (battle.units step.firing) rules).isEmpty
    · rw [if_pos hempty, Option.map_eq_none_iff] at hstep
      rw [List.filterMap_cons_none hstep, ih, List.filter_cons_of_neg (by simp [hempty])]
    · rw [if_neg hempty] at hstep
      obtain ⟨volley, hvolley, hheading⟩ := Option.map_eq_some_iff.mp hstep
      rw [List.filterMap_cons_some hvolley, List.map_cons, hheading, ih,
        List.filter_cons_of_pos (by simp [hempty]), List.map_cons]

variable {σ : Type} [DiceSource σ] {source : σ} {history : History} {report : RoundReport}

/-- A round fires its anti-aircraft guns, and then the steps of its plan that have units. -/
theorem exists_fires_of_combat (hkind : battle.kind = .combat)
    (h : (battle.resolveRound rules supportRules source history).outcome = .ok report) :
    ∃ flak fires, report.fires = flak ++ fires ∧
      (∀ fire ∈ flak, fire.kind = .antiAircraft) ∧
      fires.map (·.heading) =
        ((battle.plan rules).steps.filter fun step =>
          !(step.select (battle.units step.firing) rules).isEmpty).map fun step =>
            step.heading (battle.units step.firing) rules := by
  obtain ⟨rolls, hfired, rfl⟩ := exists_fired_of_ok h
  have hheadings : (battle.report rules ((battle.volleys rules supportRules).zip rolls)).fires.map
      (·.heading) = (battle.volleys rules supportRules).map (·.heading) :=
    map_fires_report (List.forall₂_iff_zip.mpr ⟨hfired.length_eq.symm, fun _ => rfl⟩)
  have hvolleys : battle.volleys rules supportRules =
      battle.combatVolleys rules supportRules := volleys_of_combat hkind
  rw [hvolleys, combatVolleys, List.map_append, map_heading_stepVolleys] at hheadings
  obtain ⟨flak, fires, hfires, hflak, hsteps⟩ := List.map_eq_append_iff.mp hheadings
  refine ⟨flak, fires, ?_, ?_, hsteps⟩
  · rw [hvolleys, combatVolleys, hfires]
  · intro fire hfire
    have hheading : fire.heading ∈ flak.map (·.heading) := List.mem_map_of_mem hfire
    rw [hflak] at hheading
    obtain ⟨volley, hvolley, heq⟩ := List.mem_map.mp hheading
    split at hvolley
    · rw [← kind_of_mem_antiAircraftVolleys hvolley]
      exact (congrArg Prod.fst heq).symm
    · simp at hvolley

end Battle

/-- Each place of a roster is selected by exactly one step of its side, and a step selects the units
at its places in the order of the roster; so the selections of a side are its roster, shared out. A
round that has a report fires the steps with units in the order of the plan, each once, behind its
anti-aircraft fire. -/
theorem units_fire_once (offense defense : List Combatant) (rules : RuleSet) :
    (∀ side,
      let roster := side.pick offense defense
      let steps := (planRound offense defense rules).stepsBy side
      (∀ step : FireStep, (step.places roster rules).Pairwise (· < ·) ∧
        step.select roster rules = (step.places roster rules).filterMap (roster[·]?)) ∧
      (∀ place < roster.length,
        steps.countP (fun step => place ∈ step.places roster rules) = 1) ∧
      (steps.flatMap (·.select roster rules)).Perm roster) ∧
    ∀ {σ : Type} [DiceSource σ] (battle : Battle) (supportRules : List SupportRule) (source : σ)
      (history : History) (report : RoundReport),
      battle.kind = .combat → battle.offense = offense → battle.defense = defense →
      (battle.resolveRound rules supportRules source history).outcome = .ok report →
        ∃ flak fires, report.fires = flak ++ fires ∧
          (∀ fire ∈ flak, fire.kind = .antiAircraft) ∧
          fires.map (·.heading) =
            ((planRound offense defense rules).steps.filter fun step =>
              !(step.select (battle.units step.firing) rules).isEmpty).map fun step =>
                step.heading (battle.units step.firing) rules := by
  constructor
  · intro side roster steps
    have hone : ∀ unit ∈ roster, steps.countP (·.group.admits (unit.traits rules)) = 1 :=
      FirePlan.countP_admits offense defense rules side
    refine ⟨fun step => ⟨step.pairwise_places .., step.select_eq ..⟩, ?_, perm_flatMap_filter hone⟩
    intro place hplace
    rw [← hone roster[place] (List.getElem_mem hplace)]
    refine List.countP_congr fun step _ => ?_
    rw [decide_eq_true_iff, FireStep.mem_places_iff]
    simp [hplace]
  · rintro σ _ battle supportRules source history report hkind rfl rfl h
    exact Battle.exists_fires_of_combat hkind h

/-- Attackers make a sneak attack, and a destroyer keeps the defenders from making one. -/
def submarineHunt : Battle :=
  let unit (id : Nat) (type : UnitType) (player : String) : Combatant :=
    ⟨id, type, { name := player }⟩
  let submarine : UnitType := { name := "submarine", attack := 2, defense := 1, isFirstStrike := true }
  let destroyer : UnitType := { name := "destroyer", attack := 2, isDestroyer := true }
  let fighter : UnitType := { name := "fighter", attack := 3, isAir := true }
  let gun : UnitType := { name := "aaGun", defenseRolls := 0, antiAircraft := some { defense := 1 } }
  { attacker := { name := "Germans" }
    defender := { name := "British" }
    offense := [unit 0 fighter "Germans", unit 1 submarine "Germans", unit 2 destroyer "Germans"]
    defense := [unit 3 submarine "British", unit 4 gun "British"]
    context := { territory := "North Sea" } }

/-- In the second edition the submarine that was denied its sneak attack answers the other one. -/
theorem units_fire_once_in_submarineHunt :
    let rules : RuleSet := { secondEdition := true }
    let script : Script := { values := [3, 1, 4, 0, 5] }
    ∃ report,
      (submarineHunt.resolveRound rules [] script []).outcome = .ok report ∧
      report.fires.map (fun fire => (fire.kind, fire.side, fire.units)) =
        [(.antiAircraft, .defense, "1 aaGun"), (.firstStrike, .offense, "1 submarine"),
          (.firstStrike, .defense, "1 submarine"), (.general, .offense, "1 fighter, 1 destroyer"),
          (.general, .defense, "1 aaGun")] ∧
      ∃ flak fires, report.fires = flak ++ fires ∧
        (∀ fire ∈ flak, fire.kind = .antiAircraft) ∧
        fires.map (·.heading) =
          ((submarineHunt.plan rules).steps.filter fun step =>
            !(step.select (submarineHunt.units step.firing) rules).isEmpty).map fun step =>
              step.heading (submarineHunt.units step.firing) rules := by
  intro rules script
  have hshown : (submarineHunt.resolveRound rules [] script []).outcome.toOption.map
      (fun report => report.fires.map fun fire => (fire.kind, fire.side, fire.units)) =
        some [(.antiAircraft, .defense, "1 aaGun"), (.firstStrike, .offense, "1 submarine"),
          (.firstStrike, .defense, "1 submarine"), (.general, .offense, "1 fighter, 1 destroyer"),
          (.general, .defense, "1 aaGun")] := by
    decide +kernel
  cases hround : (submarineHunt.resolveRound rules [] script []).outcome with
  | error error =>
    rw [hround] at hshown
    cases hshown
  | ok report =>
    rw [hround] at hshown
    exact ⟨report, rfl, Option.some.inj hshown, (units_fire_once submarineHunt.offense
      submarineHunt.defense rules).2 submarineHunt [] script [] report rfl rfl rfl hround⟩

end Salvo
