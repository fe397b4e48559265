import Mathlib.Data.List.Forall2
import Salvo.Proofs.Dice.Throwing
import Salvo.Round.Resolve

/-! # Firing the volleys of a round

`Fired` follows the volleys that all found their dice, from the source before the first to the
source after the last. A round has a report just when its volleys were fired in this way
(`Battle.exists_fired_of_ok`), and its fires are the volleys with their rolls.

What a volley rolls is decided by its power table, which is that of a built group
(`Battle.lawful_of_mem_volleys`), and by the values that the source deals. -/

namespace Salvo

/-- Whether fire of the kind is resolved in low luck. -/
def FireKind.inLowLuck (kind : FireKind) (rules : RuleSet) : Bool :=
  match kind with
  | .antiAircraft => rules.lowLuck || rules.lowLuckAntiAircraftOnly
  | .firstStrike | .general | .airBattle => rules.lowLuck

/-! ## The volleys of a battle -/

structure Volley.Lawful (volley : Volley) (rules : RuleSet) : Prop where
  inRange : ∀ {table}, volley.table = .ok table → table.InRange
  lowLuck_eq : volley.lowLuck = volley.kind.inLowLuck rules

namespace Battle

variable {battle : Battle} {rules : RuleSet} {supportRules : List SupportRule} {volley : Volley}

/-- The volleys of a round come from guns of one type, from a step of the plan or from the air
units of a side. -/
theorem eq_some_of_mem_volleys (h : volley ∈ battle.volleys rules supportRules) :
    (∃ side guns, battle.antiAircraftVolley? rules side guns = some volley) ∨
      (∃ step, battle.stepVolley? rules supportRules step = some volley) ∨
      ∃ side, battle.airVolley? rules side = some volley := by
  unfold volleys at h
  split at h
  · rcases List.mem_append.mp h with h | h
    · split at h
      · obtain ⟨side, _, h⟩ := List.mem_flatMap.mp h
        obtain ⟨guns, _, h⟩ := List.mem_filterMap.mp h
        exact .inl ⟨side, guns, h⟩
      · simp at h
    · obtain ⟨step, _, h⟩ := List.mem_filterMap.mp h
      exact .inr (.inl ⟨step, h⟩)
  · obtain ⟨side, _, h⟩ := List.mem_filterMap.mp h
    exact .inr (.inr ⟨side, h⟩)

theorem volleys_of_combat (hkind : battle.kind = .combat) :
    battle.volleys rules supportRules = battle.combatVolleys rules supportRules := by
  rw [volleys, hkind]

theorem eq_of_antiAircraftVolley? {side : Side} {guns : List Combatant}
    (h : battle.antiAircraftVolley? rules side guns = some volley) :
    volley =
      { kind := .antiAircraft
        side
        units := guns
        casualties := .immediate
        table := AntiAircraftFire.powerTable guns (battle.units side.opposite) side rules
        lowLuck := rules.lowLuckForAntiAircraft } :=
  (Option.some.inj (Option.ite_none_left_eq_some.mp h).2).symm

theorem eq_of_stepVolley? {step : FireStep}
    (h : battle.stepVolley? rules supportRules step = some volley) :
    volley =
      { kind := if step.isFirstStrike then .firstStrike else .general
        side := step.firing
        units := step.select (battle.units step.firing) rules
        casualties := step.casualties
        table := PowerTable.build? (step.select (battle.units step.firing) rules)
          (battle.stepCombat rules supportRules step).calculator
        lowLuck := rules.lowLuck } :=
  (Option.some.inj (Option.ite_none_left_eq_some.mp h).2).symm

theorem eq_of_airVolley? {side : Side} (h : battle.airVolley? rules side = some volley) :
    volley =
      { kind := .airBattle
        side
        units := (battle.units side).filter fun unit => (unit.traits rules).air
        casualties := .endOfRound
        table := AirBattle.powerTable
          ((battle.units side).filter fun unit => (unit.traits rules).air) side rules
        lowLuck := rules.lowLuck } :=
  (Option.some.inj (Option.ite_none_left_eq_some.mp h).2).symm

theorem kind_of_stepVolley? {step : FireStep}
    (h : battle.stepVolley? rules supportRules step = some volley) :
    volley.kind ≠ .antiAircraft := by
  obtain rfl := eq_of_stepVolley? h
  cases step.isFirstStrike <;> nofun

/-- Guns without rolls have the power of no units. -/
theorem exists_build_powerTable (guns targets : List Combatant) (side : Side) (rules : RuleSet) :
    ∃ units calculator,
      AntiAircraftFire.powerTable guns targets side rules = PowerTable.build? units calculator ∧
        ∃ firing, calculator.diceSides = AntiAircraftFire.sidesOf firing rules := by
  rcases Int.lt_or_le 0 (AntiAircraftFire.atTargets guns targets side rules).totalRolls with h | h
  · exact ⟨_, _, AntiAircraftFire.powerTable_of_rolls h, _, rfl⟩
  · refine ⟨[], (AntiAircraftFire.atTargets guns targets side rules).calculator, ?_, _, rfl⟩
    rw [AntiAircraftFire.powerTable_of_no_rolls h, PowerTable.build?, if_neg (by simp)]
    rfl

/-- The power of a volley is that of a built group, whose dice have the sides that the rules or guns
give them. -/
theorem exists_build_of_mem_volleys (h : volley ∈ battle.volleys rules supportRules) :
    ∃ units calculator, volley.table = PowerTable.build? units calculator ∧
      (calculator.diceSides = rules.diceSides ∨
        ∃ guns, calculator.diceSides = AntiAircraftFire.sidesOf guns rules) ∧
      volley.lowLuck = volley.kind.inLowLuck rules := by
  rcases eq_some_of_mem_volleys h with ⟨side, guns, h⟩ | ⟨step, h⟩ | ⟨side, h⟩
  · obtain rfl := eq_of_antiAircraftVolley? h
    obtain ⟨units, calculator, htable, hsides⟩ :=
      exists_build_powerTable guns (battle.units side.opposite) side rules
    exact ⟨units, calculator, htable, .inr hsides, rfl⟩
  · obtain rfl := eq_of_stepVolley? h
    refine ⟨_, _, rfl, .inl rfl, ?_⟩
    cases step.isFirstStrike <;> rfl
  · obtain rfl := eq_of_airVolley? h
    exact ⟨_, _, rfl, .inl rfl, rfl⟩

theorem lawful_of_mem_volleys (h : volley ∈ battle.volleys rules supportRules) :
    volley.Lawful rules := by
  obtain ⟨units, calculator, htable, _, hlowLuck⟩ := exists_build_of_mem_volleys h
  exact ⟨fun h => PowerTable.inRange_of_build? (htable.symm.trans h), hlowLuck⟩

end Battle

/-! ## Volleys that found their dice -/

section

variable {σ : Type} [DiceSource σ]

/-- What a lawful volley asks for once its power is built, and what becomes of the answer. -/
theorem Volley.Lawful.throwDice_eq {volley : Volley} {rules : RuleSet} (h : volley.Lawful rules)
    {table : PowerTable} (htable : volley.table = .ok table) (battle : Battle) (source : σ) :
    volley.throwDice battle source =
      if table.diceCount volley.lowLuck = 0 then
        (.ok (table.rollOf volley.lowLuck (battle.player volley.side) []), source)
      else
        match requestDice
          ⟨table.diceSides, table.diceCount volley.lowLuck, volley.label battle⟩ source with
        | (.error error, source) => (.error error, source)
        | (.ok values, source) =>
          (.ok (table.rollOf volley.lowLuck (battle.player volley.side) values), source) := by
  unfold Volley.throwDice PowerTable.throwBuilt
  rw [htable]
  exact (h.inRange htable).throwDice_eq _ _ source

/-- A lawful volley is fired when its power could be built and the source deals its dice. -/
theorem Volley.Lawful.throwDice_eq_ok_iff {volley : Volley} {rules : RuleSet}
    (h : volley.Lawful rules) {battle : Battle} {source rest : σ} {roll : Roll} :
    volley.throwDice battle source = (.ok roll, rest) ↔
      ∃ table values, volley.table = .ok table ∧
        Deals ⟨table.diceSides, table.diceCount volley.lowLuck, volley.label battle⟩ source values
          rest ∧
        roll = table.rollOf volley.lowLuck (battle.player volley.side) values := by
  unfold Volley.throwDice PowerTable.throwBuilt
  cases htable : volley.table with
  | error error => simp
  | ok table =>
    simp only [(h.inRange htable).throwDice_eq_ok_iff, Except.ok.injEq, exists_eq_left',
      exists_and_left]
    rfl

/-- The volleys are fired in order, each with its roll, and leave the source as `rest`. -/
inductive Fired (battle : Battle) : List Volley → σ → List Roll → σ → Prop
  | nil (source : σ) : Fired battle [] source [] source
  | cons {volley : Volley} {volleys : List Volley} {source next rest : σ} {roll : Roll}
      {rolls : List Roll} : volley.throwDice battle source = (.ok roll, next) →
      Fired battle volleys next rolls rest →
      Fired battle (volley :: volleys) source (roll :: rolls) rest

variable {battle : Battle} {volleys : List Volley} {source rest : σ} {rolls : List Roll}

theorem fireAll_cons_of_ok {volley : Volley} {next : σ} {roll : Roll}
    (h : volley.throwDice battle source = (.ok roll, next)) :
    fireAll battle (volley :: volleys) source =
      { fireAll battle volleys next with
        fired := (volley, roll) :: (fireAll battle volleys next).fired } := by
  rw [fireAll, h]

theorem fireAll_cons_of_error {volley : Volley} {next : σ} {error : CombatError}
    (h : volley.throwDice battle source = (.error error, next)) :
    fireAll battle (volley :: volleys) source =
      { fired := [], failure := some error, source := next } := by
  rw [fireAll, h]

theorem Fired.length_eq (h : Fired battle volleys source rolls rest) :
    rolls.length = volleys.length := by
  induction h with
  | nil => rfl
  | cons _ _ ih => rw [List.length_cons, List.length_cons, ih]

/-- The rolls of lawful volleys are those of their tables, with the values that each of them was
dealt. A source that is measured is so before each of the volleys. -/
theorem Fired.forall₂_deals (h : Fired battle volleys source rolls rest) {rules : RuleSet}
    (hlawful : ∀ volley ∈ volleys, volley.Lawful rules) :
    List.Forall₂ (fun volley roll => ∃ (table : PowerTable) (values : List Int) (before after : σ),
      volley.table = .ok table ∧
      Deals ⟨table.diceSides, table.diceCount volley.lowLuck, volley.label battle⟩ before values
        after ∧
      (DiceSource.Measured source → DiceSource.Measured before) ∧
      roll = table.rollOf volley.lowLuck (battle.player volley.side) values) volleys rolls := by
  induction h with
  | nil => exact .nil
  | cons hthrow _ ih =>
    obtain ⟨hvolley, hvolleys⟩ := List.forall_mem_cons.mp hlawful
    obtain ⟨table, values, htable, hdeals, hroll⟩ := hvolley.throwDice_eq_ok_iff.mp hthrow
    refine .cons ⟨table, values, _, _, htable, hdeals, id, hroll⟩ ((ih hvolleys).imp ?_)
    rintro volley roll ⟨table, values, before, after, htable, hlater, hmeasured, hroll⟩
    exact ⟨table, values, before, after, htable, hlater, fun h => hmeasured (h.rest hdeals), hroll⟩

theorem Fired.forall₂_rollOf (h : Fired battle volleys source rolls rest) {rules : RuleSet}
    (hlawful : ∀ volley ∈ volleys, volley.Lawful rules) :
    List.Forall₂ (fun volley roll => ∃ table values, volley.table = .ok table ∧
      roll = table.rollOf volley.lowLuck (battle.player volley.side) values) volleys rolls := by
  refine (h.forall₂_deals hlawful).imp ?_
  rintro volley roll ⟨table, values, _, _, htable, -, -, hroll⟩
  exact ⟨table, values, htable, hroll⟩

theorem Fired.fireAll_eq (h : Fired battle volleys source rolls rest) :
    fireAll battle volleys source =
      { fired := volleys.zip rolls, failure := none, source := rest } := by
  induction h with
  | nil => rfl
  | cons hthrow _ ih =>
    rw [fireAll_cons_of_ok hthrow, ih]
    rfl

theorem exists_fired_of_failure_eq_none (h : (fireAll battle volleys source).failure = none) :
    ∃ rolls, Fired battle volleys source rolls (fireAll battle volleys source).source ∧
      (fireAll battle volleys source).fired = volleys.zip rolls := by
  induction volleys generalizing source with
  | nil => exact ⟨[], .nil source, rfl⟩
  | cons volley volleys ih =>
    cases hthrow : volley.throwDice battle source with
    | mk outcome next =>
      cases outcome with
      | error error =>
        rw [fireAll_cons_of_error hthrow] at h
        cases h
      | ok roll =>
        rw [fireAll_cons_of_ok hthrow] at h ⊢
        obtain ⟨rolls, hfired, hzip⟩ := ih h
        exact ⟨roll :: rolls, .cons hthrow hfired, congrArg ((volley, roll) :: ·) hzip⟩

end

namespace Battle

variable {σ : Type} [DiceSource σ] {battle : Battle} {rules : RuleSet}
  {supportRules : List SupportRule} {source : σ} {history : History} {report : RoundReport}

theorem outcome_resolveRound (source : σ) (history : History) :
    (battle.resolveRound rules supportRules source history).outcome =
      match (fireAll battle (battle.volleys rules supportRules) source).failure with
      | some error => .error error
      | none => .ok (battle.report rules
          (fireAll battle (battle.volleys rules supportRules) source).fired) :=
  rfl

/-- A round with a report has fired all its volleys. -/
theorem exists_fired_of_ok
    (h : (battle.resolveRound rules supportRules source history).outcome = .ok report) :
    ∃ rolls, Fired battle (battle.volleys rules supportRules) source rolls
        (battle.resolveRound rules supportRules source history).source ∧
      report = battle.report rules ((battle.volleys rules supportRules).zip rolls) := by
  unfold resolveRound resolveVolleys at h ⊢
  dsimp only at h ⊢
  split at h
  · cases h
  · rename_i hnone
    obtain ⟨rolls, hfired, hzip⟩ := exists_fired_of_failure_eq_none hnone
    cases h
    exact ⟨rolls, hfired, by rw [hzip]⟩

/-- A round whose volleys can all be fired has a report. -/
theorem outcome_of_fired {rolls : List Roll} {rest : σ}
    (h : Fired battle (battle.volleys rules supportRules) source rolls rest) (history : History) :
    (battle.resolveRound rules supportRules source history).outcome =
      .ok (battle.report rules ((battle.volleys rules supportRules).zip rolls)) := by
  rw [outcome_resolveRound, h.fireAll_eq]

/-- The fires of a report are those of its volleys, with the rolls of their tables. -/
theorem exists_rollOf_of_ok {fire : Fire}
    (h : (battle.resolveRound rules supportRules source history).outcome = .ok report)
    (hfire : fire ∈ report.fires) :
    ∃ volley ∈ battle.volleys rules supportRules, ∃ table values, volley.table = .ok table ∧
      fire = volley.outcome battle rules
        (table.rollOf volley.lowLuck (battle.player volley.side) values) := by
  obtain ⟨rolls, hfired, rfl⟩ := exists_fired_of_ok h
  have hrolls := hfired.forall₂_rollOf fun _ => lawful_of_mem_volleys
  obtain ⟨⟨volley, roll⟩, hshot, rfl⟩ := List.mem_map.mp hfire
  obtain ⟨table, values, htable, hroll⟩ := (List.forall₂_iff_zip.mp hrolls).2 hshot
  exact ⟨volley, (List.of_mem_zip hshot).1, table, values, htable, by rw [← hroll]⟩

variable {volleys : List Volley} {rolls : List Roll}

theorem map_roll_report (h : rolls.length = volleys.length) :
    (battle.report rules (volleys.zip rolls)).fires.map (·.roll) = rolls := by
  rw [report, List.map_map]
  exact List.map_snd_zip (Nat.le_of_eq h)

theorem forall₂_report {R : Volley → Roll → Prop} (h : List.Forall₂ R volleys rolls) :
    List.Forall₂ (fun volley fire =>
        ∃ roll, R volley roll ∧ fire = volley.outcome battle rules roll)
      volleys (battle.report rules (volleys.zip rolls)).fires := by
  induction h with
  | nil => exact .nil
  | cons hroll _ ih => exact .cons ⟨_, hroll, rfl⟩ ih

/-- What fires show is what their volleys decide, if this holds of each volley with its roll. -/
theorem map_fires_report {α : Type} {shown : Fire → α} {decided : Volley → α}
    (h : List.Forall₂ (fun volley roll =>
      shown (volley.outcome battle rules roll) = decided volley) volleys rolls) :
    (battle.report rules (volleys.zip rolls)).fires.map shown = volleys.map decided := by
  induction h with
  | nil => rfl
  | cons hroll _ ih => exact congrArg₂ (· :: ·) hroll ih

end Battle

end Salvo
