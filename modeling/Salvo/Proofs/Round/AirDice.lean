import Salvo.Proofs.Power.AirPower
import Salvo.Proofs.Round.Firing

/-! # The dice of air battles

In an air battle every die counts. A unit that keeps its best die has it ignore others in the main
exchange; here it rolls a single die instead, and in low luck one die is rolled for the whole group.
Its power is the same both ways (`AirBattle.power_of_folded_rolls`). -/

namespace Salvo

theorem Die.outcome_scored (value threshold : Int) :
    (scored value threshold).outcome ≠ .ignored := by
  unfold scored
  split <;> nofun

namespace PowerRecord

variable {record : PowerRecord} {records : List PowerRecord} {values : List Int}

theorem outcome_of_mem_score (h : ¬ (record.keepsBest ∧ 1 < values.length)) :
    ∀ die ∈ record.score values, die.outcome ≠ .ignored := by
  intro die hdie
  rw [score, if_neg h] at hdie
  obtain ⟨value, -, rfl⟩ := List.mem_map.mp hdie
  exact Die.outcome_scored value record.strength

/-- No die is ignored where no unit keeps the best of several dice. -/
theorem outcome_of_mem_scoreAll
    (h : ∀ record ∈ records, ¬ (record.keepsBest ∧ 1 < record.rolls)) :
    ∀ die ∈ scoreAll records values, die.outcome ≠ .ignored := by
  induction records generalizing values with
  | nil => exact fun die hdie => nomatch hdie
  | cons record records ih =>
    obtain ⟨hrecord, hrecords⟩ := List.forall_mem_cons.mp h
    have hone : ¬ (record.keepsBest ∧ 1 < (values.take record.rolls.toNat).length) := by
      rintro ⟨hkeeps, hlength⟩
      rw [List.length_take] at hlength
      exact hrecord ⟨hkeeps, by omega⟩
    rw [scoreAll]
    exact List.forall_mem_append.mpr ⟨outcome_of_mem_score hone, ih hrecords⟩

end PowerRecord

theorem PowerTable.outcome_of_mem_rollOf {table : PowerTable} {lowLuck : Bool}
    (h : lowLuck = false → ∀ record ∈ table.records, ¬ (record.keepsBest ∧ 1 < record.rolls))
    (player : String) (values : List Int) :
    ∀ die ∈ (table.rollOf lowLuck player values).dice, die.outcome ≠ .ignored := by
  unfold rollOf
  split
  · exact fun die hdie => nomatch hdie
  · split
    · intro die hdie
      obtain ⟨value, -, rfl⟩ := List.mem_map.mp hdie
      exact Die.outcome_scored value table.remainder
    · rename_i hstandard
      exact PowerRecord.outcome_of_mem_scoreAll (h (Bool.eq_false_iff.mpr hstandard))

namespace Battle

variable {battle : Battle} {rules : RuleSet} {supportRules : List SupportRule}

/-- What an air battle fires are the air units of a side, with the power of an air battle. -/
theorem exists_side_of_airBattle (hkind : battle.kind = .airBattle) {volley : Volley}
    (h : volley ∈ battle.volleys rules supportRules) :
    ∃ side, volley.table = AirBattle.powerTable volley.units side rules ∧
      volley.lowLuck = rules.lowLuck := by
  rw [volleys, hkind] at h
  obtain ⟨side, -, hside⟩ := List.mem_filterMap.mp h
  obtain rfl := eq_of_airVolley? hside
  exact ⟨side, rfl, rfl⟩

end Battle

namespace AirBattle

/-- Where all dice are rolled no unit of an air battle has dice to ignore. -/
theorem not_keepsBest_of_powerTable {units : List Combatant} {side : Side} {rules : RuleSet}
    {table : PowerTable} (h : powerTable units side rules = .ok table)
    (hstandard : rules.lowLuck = false) :
    ∀ record ∈ table.records, ¬ (record.keepsBest ∧ 1 < record.rolls) := by
  have hrules : { rules with lowLuck := false } = rules := by rw [← hstandard]
  have hfolded : table = folded units side rules := by
    rw [PowerTable.eq_build_of_build? h, folded, hrules]
  rw [hfolded]
  exact fun record => not_keepsBest_of_mem_folded

section

variable {units : List Combatant} {side : Side} {rules : RuleSet} {table : PowerTable}

theorem outcome_of_mem_rollOf (h : powerTable units side rules = .ok table) (player : String)
    (values : List Int) :
    ∀ die ∈ (table.rollOf rules.lowLuck player values).dice, die.outcome ≠ .ignored :=
  PowerTable.outcome_of_mem_rollOf (not_keepsBest_of_powerTable h) player values

theorem outcome_of_throwBuilt {σ : Type} [DiceSource σ] {label : DiceLabel} {source rest : σ}
    {roll : Roll}
    (h : PowerTable.throwBuilt (powerTable units side rules) rules.lowLuck label source =
      (.ok roll, rest)) :
    ∀ die ∈ roll.dice, die.outcome ≠ .ignored := by
  cases htable : powerTable units side rules with
  | error error =>
    rw [htable] at h
    cases h
  | ok table =>
    rw [htable] at h
    obtain ⟨values, -, rfl⟩ := (PowerTable.inRange_of_build? htable).throwDice_eq_ok_iff.mp h
    exact outcome_of_mem_rollOf htable label.player values

end

theorem outcome_of_airBattle {battle : Battle} {rules : RuleSet} {supportRules : List SupportRule}
    {σ : Type} [DiceSource σ] {source : σ} {history : History} {report : RoundReport}
    (hkind : battle.kind = .airBattle)
    (h : (battle.resolveRound rules supportRules source history).outcome = .ok report) :
    ∀ fire ∈ report.fires, ∀ die ∈ fire.roll.dice, die.outcome ≠ .ignored := by
  intro fire hfire
  obtain ⟨volley, hvolley, table, values, htable, rfl⟩ := Battle.exists_rollOf_of_ok h hfire
  obtain ⟨side, hpower, hlowLuck⟩ := Battle.exists_side_of_airBattle hkind hvolley
  rw [hlowLuck]
  exact outcome_of_mem_rollOf (hpower.symm.trans htable) _ values

/-- An air battle in low luck and one in which all dice are rolled have their units in the same order,
with the same power each and in total. Where the dice are rolled, the units that keep the best of
several roll one, so that no die of an air battle is ever ignored. -/
theorem power_of_folded_rolls :
    (∀ (units : List Combatant) (side : Side) (rules : RuleSet),
      (folded units side rules).records.map (fun record => (record.unit, record.power)) =
          (pooled units side rules).records.map (fun record => (record.unit, record.power)) ∧
        (folded units side rules).totalPower = (pooled units side rules).totalPower ∧
        (folded units side rules).expectedHits = (pooled units side rules).expectedHits ∧
        (∀ record ∈ (folded units side rules).records,
          ¬ (record.keepsBest ∧ 1 < record.rolls)) ∧
        ∀ {σ : Type} [DiceSource σ] (label : DiceLabel) (source rest : σ) (roll : Roll),
          PowerTable.throwBuilt (powerTable units side rules) rules.lowLuck label source =
            (.ok roll, rest) →
          ∀ die ∈ roll.dice, die.outcome ≠ .ignored) ∧
    ∀ (battle : Battle) (rules : RuleSet) (supportRules : List SupportRule),
      battle.kind = .airBattle → ∀ {σ : Type} [DiceSource σ] (source : σ) (history : History)
        (report : RoundReport),
        (battle.resolveRound rules supportRules source history).outcome = .ok report →
        ∀ fire ∈ report.fires, ∀ die ∈ fire.roll.dice, die.outcome ≠ .ignored := by
  constructor
  · intro units side rules
    have hrecords := records_folded units side rules
    have htotal : (folded units side rules).totalPower = (pooled units side rules).totalPower := by
      have hpowers := congrArg (List.map Prod.snd) hrecords
      rw [List.map_map, List.map_map] at hpowers
      exact congrArg Amount.total hpowers
    refine ⟨hrecords, htotal, ?_, fun record => not_keepsBest_of_mem_folded, ?_⟩
    · rw [PowerTable.expectedHits, PowerTable.expectedHits, htotal]
      rfl
    · exact fun label source rest roll h => outcome_of_throwBuilt h
  · exact fun battle rules supportRules hkind σ _ source history report h =>
      outcome_of_airBattle hkind h

/-- A heavy bomber with two dice and an interceptor. The bomber is worth four sides of a die, as two
dice of three or as one of four, and rolls the one. -/
theorem power_of_heavy_bomber :
    let bomber : Combatant :=
      ⟨0, { name := "bomber", airAttack := 3, isAir := true, isStrategicBomber := true },
        { name := "Americans", technology := { heavyBombers := true } }⟩
    let fighter : Combatant :=
      ⟨1, { name := "fighter", airDefense := 2, isAir := true }, { name := "Germans" }⟩
    let battle : Battle :=
      { kind := .airBattle
        attacker := bomber.owner
        defender := fighter.owner
        offense := [bomber]
        defense := [fighter]
        context := { territory := "Germany" } }
    let rules : RuleSet := { heavyBombersKeepBest := true }
    (pooled [bomber] .offense rules).records.map (fun record =>
        (record.strength, record.rolls, record.power)) = [(3, 2, 4)] ∧
      (folded [bomber] .offense rules).records.map (fun record =>
        (record.strength, record.rolls, record.power)) = [(4, 1, 4)] ∧
      (folded [bomber] .offense rules).totalPower = (pooled [bomber] .offense rules).totalPower ∧
      ∃ report,
        (battle.resolveRound rules [] ({ values := [3, 1] } : Script) []).outcome = .ok report ∧
        report.fires.map (·.roll.dice) = [[⟨3, 4, .hit⟩], [⟨1, 2, .hit⟩]] ∧
        ∀ fire ∈ report.fires, ∀ die ∈ fire.roll.dice, die.outcome ≠ .ignored := by
  intro bomber fighter battle rules
  have hshown : (battle.resolveRound rules [] ({ values := [3, 1] } : Script)
      []).outcome.toOption.map (·.fires.map (·.roll.dice)) =
        some [[⟨3, 4, .hit⟩], [⟨1, 2, .hit⟩]] := by
    decide +kernel
  obtain ⟨report, hround, hdice⟩ := exists_ok_of_toOption_map hshown
  obtain ⟨hgroups, hbattles⟩ := power_of_folded_rolls
  refine ⟨by decide +kernel, by decide +kernel, (hgroups [bomber] .offense rules).2.1, report,
    hround, hdice, ?_⟩
  exact hbattles battle rules [] rfl _ [] report hround

end AirBattle

end Salvo
