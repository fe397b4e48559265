import Salvo.Proofs.Dice.Requests
import Salvo.Proofs.Preparation
import Salvo.Proofs.Round.Firing

/-! # Prepared battles

A battle that was prepared from a scenario cannot fail on good dice (`Scenario.resolve_of_prepare`).
Checking the rules has excluded dice without sides, so that the power of every volley can be built,
and a volley makes no request or a single sound one (`Volley.Lawful.throwDice_cases`). -/

namespace Salvo

/-! ## Power that can be built -/

theorem AntiAircraftFire.sidesOf_pos {rules : RuleSet} (hrules : 1 ≤ rules.diceSides)
    (guns : List Combatant) : 1 ≤ sidesOf guns rules := by
  unfold sidesOf
  split
  · exact hrules
  · exact Int.le_max_left ..

namespace Battle

variable {battle : Battle} {rules : RuleSet} {supportRules : List SupportRule} {volley : Volley}

/-- With dice that have sides the power of every volley can be built. -/
theorem exists_table_of_mem_volleys (hrules : 1 ≤ rules.diceSides)
    (h : volley ∈ battle.volleys rules supportRules) : ∃ table, volley.table = .ok table := by
  obtain ⟨units, calculator, htable, hsides, _⟩ := exists_build_of_mem_volleys h
  have hpos : 1 ≤ calculator.diceSides := by
    rcases hsides with hsides | ⟨guns, hsides⟩ <;> rw [hsides]
    · exact hrules
    · exact AntiAircraftFire.sidesOf_pos hrules guns
  exact ⟨_, htable.trans (PowerTable.build?_of_nonneg units calculator (by omega))⟩

end Battle

/-! ## The requests of a round -/

/-- A volley fires without dice, or makes one sound request. -/
theorem Volley.Lawful.throwDice_cases {volley : Volley} {rules : RuleSet} (h : volley.Lawful rules)
    {table : PowerTable} (htable : volley.table = .ok table) (battle : Battle) :
    (∃ roll, ∀ {σ : Type} [DiceSource σ] (source : σ),
      volley.throwDice battle source = (.ok roll, source)) ∨
    ∃ asked, asked.Sound ∧ ∃ roll : List Int → Roll, ∀ {σ : Type} [DiceSource σ] (source : σ),
      volley.throwDice battle source =
        match requestDice asked source with
        | (.error error, rest) => (.error error, rest)
        | (.ok values, rest) => (.ok (roll values), rest) := by
  by_cases hnone : table.diceCount volley.lowLuck = 0
  · refine .inl ⟨table.rollOf volley.lowLuck (battle.player volley.side) [], fun source => ?_⟩
    rw [h.throwDice_eq htable, if_pos hnone]
  · have hpower : 0 < table.totalPower := by
      by_contra hpower
      exact hnone ((h.inRange htable).diceCount_of_no_power hpower _)
    refine .inr ⟨⟨table.diceSides, table.diceCount volley.lowLuck, volley.label battle⟩,
      ⟨(h.inRange htable).diceSides_pos hpower, Nat.pos_of_ne_zero hnone⟩,
      table.rollOf volley.lowLuck (battle.player volley.side), fun source => ?_⟩
    exact (h.throwDice_eq htable battle source).trans (if_neg hnone)

section

variable {battle : Battle} {rules : RuleSet} {σ : Type} [DiceSource σ]

/-- What volleys ask a source for. Writing this down changes nothing. -/
theorem exists_consulted_fireAll {volleys : List Volley}
    (h : ∀ volley ∈ volleys, volley.Lawful rules ∧ ∃ table, volley.table = .ok table) (source : σ) :
    ∃ requests,
      Consulted source requests (fireAll battle volleys source).failure
        (fireAll battle volleys source).source ∧
      ∀ earlier, fireAll battle volleys (⟨source, earlier⟩ : Recorder σ) =
        { fired := (fireAll battle volleys source).fired
          failure := (fireAll battle volleys source).failure
          source := ⟨(fireAll battle volleys source).source, earlier ++ requests⟩ } := by
  induction volleys generalizing source with
  | nil => exact ⟨[], .nil source, fun earlier => by rw [List.append_nil]; rfl⟩
  | cons volley volleys ih =>
    obtain ⟨⟨hlawful, table, htable⟩, hvolleys⟩ := List.forall_mem_cons.mp h
    rcases hlawful.throwDice_cases htable battle with ⟨roll, hthrow⟩ | ⟨asked, hsound, roll, hthrow⟩
    · obtain ⟨requests, hconsulted, hrecorded⟩ := ih hvolleys source
      rw [fireAll_cons_of_ok (hthrow source)]
      refine ⟨requests, hconsulted, fun earlier => ?_⟩
      rw [fireAll_cons_of_ok (hthrow _), hrecorded]
    · -- One request, made of the source itself and of its recorder.
      cases hasked : requestDice asked source with
      | mk answer next =>
        have hplain := hthrow source
        have hrecord (earlier : List DiceRequest) :=
          hthrow (⟨source, earlier⟩ : Recorder σ)
        simp only [Recorder.requestDice_eq, hasked] at hplain hrecord
        cases answer with
        | error error =>
          rw [fireAll_cons_of_error hplain]
          exact ⟨[asked], .failed hsound hasked, fun earlier => fireAll_cons_of_error (hrecord _)⟩
        | ok values =>
          obtain ⟨requests, hconsulted, hrecorded⟩ := ih hvolleys next
          rw [fireAll_cons_of_ok hplain]
          refine ⟨asked :: requests, .cons hsound hasked hconsulted, fun earlier => ?_⟩
          rw [fireAll_cons_of_ok (hrecord _), hrecorded, List.append_assoc]
          rfl

/-- What a round asks a source for. The round fails only with the last of its requests. -/
theorem Battle.exists_consulted {supportRules : List SupportRule} (hrules : 1 ≤ rules.diceSides)
    (battle : Battle) (source : σ) (history : History) :
    let run := battle.resolveRound rules supportRules source history
    ∃ requests failure, Consulted source requests failure run.source ∧
      battle.resolveRound rules supportRules ({ source } : Recorder σ) history =
        { outcome := run.outcome, history := run.history, source := ⟨run.source, requests⟩ } ∧
      ∀ error, run.outcome = .error error → failure = some error := by
  intro run
  obtain ⟨requests, hconsulted, hrecorded⟩ := exists_consulted_fireAll
    (fun volley h => ⟨lawful_of_mem_volleys h, exists_table_of_mem_volleys hrules h⟩) source
  refine ⟨requests, _, hconsulted, ?_, fun error herror => ?_⟩
  · unfold resolveRound resolveVolleys
    rw [hrecorded]
    rfl
  · replace herror := (outcome_resolveRound source history).symm.trans herror
    split at herror
    · rename_i hfailure
      cases herror
      exact hfailure
    · cases herror

theorem Battle.exists_report_of_dependable {supportRules : List SupportRule}
    (hrules : 1 ≤ rules.diceSides) (battle : Battle) {source : σ}
    (hsource : DiceSource.Dependable source) (history : History) :
    ∃ report, (battle.resolveRound rules supportRules source history).outcome = .ok report := by
  obtain ⟨requests, failure, hconsulted, _, hfailure⟩ :=
    battle.exists_consulted hrules source history
  cases houtcome : (battle.resolveRound rules supportRules source history).outcome with
  | ok report => exact ⟨report, rfl⟩
  | error error =>
    have hsome := hfailure error houtcome
    rw [hconsulted.failure_eq_none hsource] at hsome
    cases hsome

end

/-! ## Prepared scenarios -/

theorem Scenario.diceSides_of_prepare {scenario : Scenario} {setup : BattleSetup}
    (h : scenario.prepare = .ok setup) : 1 ≤ setup.rules.diceSides := by
  rw [(describes_of_prepare h).rules]
  exact (exists_prepare_iff.mp ⟨setup, h⟩).diceSides

end Salvo
