import Salvo.Proofs.Dice.LowLuck

/-! # The best die against all dice

A unit that keeps the best of several dice is valued as one die of raised strength. Its dice taken
together are worth no less, as long as the raise for each die beyond the first is no more than the
strength that this die would add (`unitPower_best_le_iff`). Dice of less than twelve sides raise the
strength by one, so there the best die is never worth more.

When the dice are rolled, a unit that counts all of them hits at least as often as one that keeps
the best, whatever it was valued at. -/

namespace Salvo

/-! ## One unit -/

/-- The single die that stands for the best of several is worth more than all of them together: each
further die raises it by more than the strength, and the dice make less than a sure hit. -/
def BestDieIsWorthMore (strength rolls sides : Int) : Prop :=
  1 < rolls ∧ 0 < strength ∧ strength < extraRollBonus sides ∧
    strength * rolls < min sides Amount.most

instance (strength rolls sides : Int) : Decidable (BestDieIsWorthMore strength rolls sides) :=
  inferInstanceAs (Decidable (_ ∧ _))

theorem not_bestDieIsWorthMore_of_sides_lt {sides : Int} (h : sides < 12) (strength rolls : Int) :
    ¬ BestDieIsWorthMore strength rolls sides := by
  rintro ⟨-, hstrength, hbonus, -⟩
  unfold extraRollBonus at hbonus
  omega

/-- All dice add the strength where the best die adds the raise, each beyond the first. -/
theorem unitPower_best_le_iff (strength rolls sides : Int) :
    unitPower strength rolls true sides ≤ unitPower strength rolls false sides ↔
      ¬ BestDieIsWorthMore strength rolls sides := by
  by_cases hworth : 0 < strength ∧ 1 < rolls
  · obtain ⟨hstrength, hrolls⟩ := hworth
    have hsplit : strength * rolls = strength + strength * (rolls - 1) := by
      rw [Int.mul_sub, Int.mul_one]
      omega
    have hall : 0 ≤ strength * (rolls - 1) := Int.mul_nonneg (by omega) (by omega)
    have hraise := extraRollBonus_mul_nonneg sides (Int.le_of_lt hrolls)
    have hcompare : strength < extraRollBonus sides ↔
        strength * (rolls - 1) < extraRollBonus sides * (rolls - 1) :=
      (Int.mul_lt_mul_right (by omega)).symm
    have hnone : ¬ (strength ≤ 0 ∨ rolls ≤ 0) := by omega
    have hone : ¬ rolls ≤ 1 := Int.not_le.mpr hrolls
    simp only [unitPower, if_neg hnone, hrolls, and_true, if_true, Bool.false_eq_true, if_false,
      bestRollStrength, if_neg hone, BestDieIsWorthMore, hstrength, true_and, hcompare, hsplit,
      Amount.saturate, Amount.least, Amount.most]
    omega
  · have hequal : unitPower strength rolls true sides = unitPower strength rolls false sides := by
      unfold unitPower
      split
      · rfl
      · rw [if_neg (by omega), if_neg (by simp)]
    refine iff_of_true (Int.le_of_eq hequal) ?_
    rintro ⟨hrolls, hstrength, -⟩
    exact hworth ⟨hstrength, hrolls⟩

/-- Two dice of twelve sides that hit with one face each: the better of them is valued at three
faces, both together at two. -/
theorem unitPower_of_two_longshots :
    ¬ ∀ sides strength rolls : Int, 1 ≤ sides → 0 ≤ strength → strength ≤ sides → 0 ≤ rolls →
      unitPower strength rolls true sides ≤ unitPower strength rolls false sides := by
  intro h
  have hle := h 12 1 2 (by decide) (by decide) (by decide) (by decide)
  have hbest : unitPower 1 2 true 12 = 3 := by decide
  have hall : unitPower 1 2 false 12 = 2 := by decide
  omega

/-! ## Groups that count all their dice -/

/-- The record of the unit if all its dice count. -/
def PowerRecord.countingAll (sides : Int) (record : PowerRecord) : PowerRecord :=
  { record with
    power := unitPower record.strength record.rolls false sides
    keepsBest := false }

/-- The values of units if all their dice count. -/
def Calculator.countingAll (calculator : Calculator) : Calculator where
  diceSides := calculator.diceSides
  values unit := { calculator.values unit with keepsBest := false }

def PowerTable.countingAll (table : PowerTable) : PowerTable where
  records := table.records.map (·.countingAll table.diceSides)
  diceSides := table.diceSides

namespace PowerRecord

variable {record : PowerRecord} {sides : Int}

/-- The record of a unit whose best die is worth more than all of its dice. -/
def BestIsWorthMore (sides : Int) (record : PowerRecord) : Prop :=
  record.keepsBest ∧ BestDieIsWorthMore record.strength record.rolls sides

instance : Decidable (record.BestIsWorthMore sides) := inferInstanceAs (Decidable (_ ∧ _))

theorem InRange.power_le_countingAll (h : record.InRange sides)
    (hworth : ¬ record.BestIsWorthMore sides) :
    record.power ≤ (record.countingAll sides).power := by
  rw [h.power_eq]
  cases hbest : record.keepsBest with
  | false => exact Int.le_refl _
  | true =>
    rw [countingAll, unitPower_best_le_iff]
    exact fun hmore => hworth ⟨hbest, hmore⟩

/-- The best die hits at most once, and then it is one of those that all count. -/
theorem countHits_score_le_countingAll (sides : Int) (record : PowerRecord) (values : List Int) :
    countHits (record.score values) ≤ countHits ((record.countingAll sides).score values) := by
  have hall : ¬ ((record.countingAll sides).keepsBest ∧ 1 < values.length) := by
    rintro ⟨hbest, -⟩
    cases hbest
  rw [countHits_score, countHits_score, if_neg hall]
  split
  · split
    · exact Int.natCast_nonneg _
    · rename_i hsome
      simp only [not_forall, Int.not_le] at hsome
      obtain ⟨value, hvalue, hhit⟩ := hsome
      have hone : 1 ≤ values.countP (· < record.strength) :=
        List.one_le_countP_iff.mpr ⟨value, hvalue, decide_eq_true hhit⟩
      exact Int.ofNat_le.mpr hone
  · exact Int.le_refl _

theorem countHits_scoreAll_le_countingAll (sides : Int) (records : List PowerRecord)
    (values : List Int) :
    countHits (scoreAll records values) ≤
      countHits (scoreAll (records.map (·.countingAll sides)) values) := by
  induction records generalizing values with
  | nil => exact Int.le_refl _
  | cons record records ih =>
    rw [List.map_cons, scoreAll, scoreAll, countHits_append, countHits_append]
    exact Int.add_le_add (countHits_score_le_countingAll sides record _) (ih _)

end PowerRecord

namespace PowerTable

variable {table : PowerTable}

theorem build_countingAll (units : List Combatant) (calculator : Calculator) :
    build units calculator.countingAll = (build units calculator).countingAll := by
  simp only [build, countingAll, List.map_map]
  rfl

@[simp] theorem diceSides_countingAll : table.countingAll.diceSides = table.diceSides := rfl

theorem InRange.countingAll (h : table.InRange) : table.countingAll.InRange := by
  intro record hrecord
  obtain ⟨kept, hkept, rfl⟩ := List.mem_map.mp hrecord
  obtain ⟨hnonneg, hle, hrolls, -⟩ := h kept hkept
  exact ⟨hnonneg, hle, hrolls, rfl⟩

theorem InRange.totalPower_le_countingAll (h : table.InRange)
    (hworth : ∀ record ∈ table.records, ¬ record.BestIsWorthMore table.diceSides) :
    table.totalPower ≤ table.countingAll.totalPower := by
  unfold totalPower PowerTable.countingAll
  rw [List.map_map]
  refine Amount.total_mono ?_
  exact fun record hrecord => (h record hrecord).power_le_countingAll (hworth record hrecord)

theorem totalRolls_countingAll : table.countingAll.totalRolls = table.totalRolls := by
  rw [totalRolls, totalRolls, countingAll, List.map_map]
  rfl

/-- A group has power with all its dice just when it has power with the best of them. -/
theorem InRange.totalPower_pos_countingAll (h : table.InRange) :
    0 < table.countingAll.totalPower ↔ 0 < table.totalPower := by
  rw [h.totalPower_pos_iff, h.countingAll.totalPower_pos_iff]
  constructor
  · rintro ⟨record, hrecord, hworth⟩
    obtain ⟨kept, hkept, rfl⟩ := List.mem_map.mp hrecord
    exact ⟨kept, hkept, hworth⟩
  · rintro ⟨kept, hkept, hworth⟩
    exact ⟨_, List.mem_map_of_mem hkept, hworth⟩

theorem InRange.diceCount_countingAll (h : table.InRange) :
    table.countingAll.diceCount false = table.diceCount false := by
  simp only [diceCount, Bool.false_eq_true, if_false, h.totalPower_pos_countingAll,
    totalRolls_countingAll]

theorem InRange.hits_rollOf_le_countingAll (h : table.InRange) (player : String)
    (values : List Int) :
    (table.rollOf false player values).hits ≤
      (table.countingAll.rollOf false player values).hits := by
  by_cases hpower : 0 < table.totalPower
  · rw [h.rollOf_of_power hpower,
      h.countingAll.rollOf_of_power (h.totalPower_pos_countingAll.mpr hpower)]
    exact PowerRecord.countHits_scoreAll_le_countingAll table.diceSides table.records values
  · rw [h.rollOf_of_no_power hpower,
      h.countingAll.rollOf_of_no_power (mt h.totalPower_pos_countingAll.mp hpower)]

section

variable {σ : Type} [DiceSource σ] {label : DiceLabel} {source rest : σ}

/-- Where all dice are rolled, a source fails with the same error however they count. -/
theorem InRange.throwDice_countingAll_eq_error_iff (h : table.InRange) {error : CombatError} :
    table.countingAll.throwDice false label source = (.error error, rest) ↔
      table.throwDice false label source = (.error error, rest) := by
  rw [h.throwDice_eq, h.countingAll.throwDice_eq, h.diceCount_countingAll, diceSides_countingAll]
  split
  · simp
  · split <;> simp

/-- A source that gives the dice gives the same ones however they count. -/
theorem InRange.exists_throwDice_countingAll (h : table.InRange) {roll : Roll}
    (hthrow : table.throwDice false label source = (.ok roll, rest)) :
    ∃ roll', table.countingAll.throwDice false label source = (.ok roll', rest) ∧
      roll.hits ≤ roll'.hits := by
  obtain ⟨values, hdeals, rfl⟩ := h.throwDice_eq_ok_iff.mp hthrow
  refine ⟨_, h.countingAll.throwDice_eq_ok_iff.mpr ⟨values, ?_, rfl⟩,
    h.hits_rollOf_le_countingAll label.player values⟩
  rw [h.diceCount_countingAll, diceSides_countingAll]
  exact hdeals

end

/-- All dice of a unit are worth at least as much as the best of them, unless each further die
raises the best by more than the strength and they make less than a sure hit together; this takes
dice of twelve sides or more. A group without such units never loses by counting all its dice: its
power does not fall, nor its hits in low luck, whatever face the die shows, nor the quotient that
is to be expected. Where the dice are rolled no group loses by it. -/
theorem worth_of_countingAll :
    (∀ sides strength rolls : Int,
      (unitPower strength rolls true sides ≤ unitPower strength rolls false sides ↔
        ¬ BestDieIsWorthMore strength rolls sides) ∧
      (sides < 12 → ¬ BestDieIsWorthMore strength rolls sides)) ∧
    ∀ (units : List Combatant) (calculator : Calculator) (label : DiceLabel) (sides : Nat),
      calculator.diceSides = sides → 1 ≤ sides →
      let table := build units calculator
      let every := build units calculator.countingAll
      every.records = table.records.map (·.countingAll sides) ∧
        ((∀ record ∈ table.records, ¬ record.BestIsWorthMore sides) →
          table.totalPower ≤ every.totalPower ∧
          (table.totalPower : ℚ) / sides ≤ every.totalPower / sides ∧
          ∃ roll roll' : Fin sides → Roll, table.LowLuckRolls label roll ∧
            every.LowLuckRolls label roll' ∧ ∀ face, (roll face).hits ≤ (roll' face).hits) ∧
        ∀ {σ : Type} [DiceSource σ] (source rest : σ),
          (∀ error, every.throwDice false label source = (.error error, rest) ↔
            table.throwDice false label source = (.error error, rest)) ∧
          ∀ roll, table.throwDice false label source = (.ok roll, rest) →
            ∃ roll', every.throwDice false label source = (.ok roll', rest) ∧
              roll.hits ≤ roll'.hits := by
  constructor
  · intro sides strength rolls
    exact ⟨unitPower_best_le_iff strength rolls sides,
      fun h => not_bestDieIsWorthMore_of_sides_lt h strength rolls⟩
  · intro units calculator label sides hsides hpos table every
    have hrange : table.InRange := inRange_build units calculator
    have hevery : every = table.countingAll := build_countingAll units calculator
    rw [hevery]
    refine ⟨?_, fun hworth => ?_, fun source rest => ⟨fun error => ?_, fun roll hthrow => ?_⟩⟩
    · rw [← hsides]
      rfl
    · rw [← hsides] at hworth
      have hpower := hrange.totalPower_le_countingAll hworth
      refine ⟨hpower, ?_, _, _, hrange.lowLuckRolls hsides label,
        hrange.countingAll.lowLuckRolls hsides label,
        hrange.hits_low_luck_mono hrange.countingAll hsides hsides hpower label.player⟩
      have hquotient : (table.totalPower : ℚ) ≤ table.countingAll.totalPower := by
        exact_mod_cast hpower
      gcongr
    · exact hrange.throwDice_countingAll_eq_error_iff
    · exact hrange.exists_throwDice_countingAll hthrow

/-- A bomber that keeps the better of two dice, and infantry. Counting both dice of the bomber adds
three to the power, and here a third hit. -/
theorem worth_of_bomber :
    let unit (id : Nat) (name : String) : Combatant := ⟨id, { name }, { name := "Germans" }⟩
    let units := [unit 0 "bomber", unit 1 "infantry"]
    let calculator : Calculator :=
      { diceSides := 6
        values := fun unit =>
          if unit.id = 0 then { base := 4, strength := 4, rolls := 2, keepsBest := true }
          else { base := 2, strength := 2, rolls := 1 } }
    let table := build units calculator
    let every := build units calculator.countingAll
    let label : DiceLabel := ⟨"Germans", .combat, "Germans fire"⟩
    let script : Script := { values := [3, 2, 1] }
    table.totalPower = 7 ∧ every.totalPower = 10 ∧
      (∃ roll roll' : Fin 6 → Roll, table.LowLuckRolls label roll ∧
        every.LowLuckRolls label roll' ∧ ∀ face, (roll face).hits ≤ (roll' face).hits) ∧
      ∃ roll rest, table.throwDice false label script = (.ok roll, rest) ∧ roll.hits = 2 ∧
        ∃ roll', every.throwDice false label script = (.ok roll', rest) ∧
          roll.hits ≤ roll'.hits := by
  intro unit units calculator table every label script
  obtain ⟨-, hgroups⟩ := worth_of_countingAll
  obtain ⟨-, hworth, hrolled⟩ := hgroups units calculator label 6 rfl (by decide)
  obtain ⟨-, -, hlowLuck⟩ := hworth (by decide)
  have hshown : (table.throwDice false label script).1.toOption.map (·.hits) = some 2 := by decide
  obtain ⟨roll, hroll, hhits⟩ := exists_ok_of_toOption_map hshown
  have hthrow : table.throwDice false label script =
      (.ok roll, (table.throwDice false label script).2) := Prod.ext hroll rfl
  exact ⟨by decide, by decide, hlowLuck, roll, _, hthrow, hhits, (hrolled script _).2 roll hthrow⟩

end PowerTable

end Salvo
