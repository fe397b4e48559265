import Salvo.Power.AirBattle
import Salvo.Proofs.Power.Range

/-! # Power in air battles

A unit of an air battle that keeps the best of several dice is worth the same in low luck, where its
dice are folded into its power, and where all dice are rolled, when it rolls a single die at the
strength that stands for them (`AirBattle.records_folded`). In low luck the strength is brought into
range before the dice are folded, and else after it; that makes no difference, since units without
air strength have no rolls to fold. -/

namespace Salvo

namespace ByUnit

variable {α β : Type}

theorem mapValues_set (f : α → β) (table : ByUnit α) (id : Nat) (value : α) :
    (table.set id value).mapValues f = (table.mapValues f).set id (f value) := by
  refine ext_get? fun other => ?_
  rw [get?_mapValues, get?_set, get?_set, get?_mapValues]
  split <;> rfl

theorem ofUnits_eq_foldl (units : List Combatant) (value : Combatant → α) :
    ofUnits units value = units.foldl (fun table unit => table.set unit.id (value unit)) empty :=
  List.foldl_map

/-- A table of values that are computed from others is computed from the table of those. -/
theorem ofUnits_comp (units : List Combatant) (f : α → β) (value : Combatant → α) :
    ofUnits units (fun unit => f (value unit)) = (ofUnits units value).mapValues f := by
  have hstart (table : ByUnit α) :
      units.foldl (fun table unit => table.set unit.id (f (value unit))) (table.mapValues f) =
        (units.foldl (fun table unit => table.set unit.id (value unit)) table).mapValues f := by
    induction units generalizing table with
    | nil => rfl
    | cons unit units ih => rw [List.foldl_cons, List.foldl_cons, ← ih, mapValues_set]
  have hempty : (empty : ByUnit α).mapValues f = empty := by
    refine ext_get? fun id => ?_
    rw [get?_mapValues, get?_empty, get?_empty, Option.map_none]
  rw [ofUnits_eq_foldl, ofUnits_eq_foldl, ← hstart, hempty]

/-- What a table of values holds is the value of one of the units. -/
theorem exists_of_get?_ofUnits {units : List Combatant} {value : Combatant → α} {id : Nat}
    {found : α} (h : (ofUnits units value).get? id = some found) :
    ∃ unit ∈ units, value unit = found := by
  obtain ⟨unit, hunit, heq⟩ := List.mem_map.mp (mem_of_get?_ofList h)
  exact ⟨unit, hunit, (Prod.mk.inj heq).2⟩

end ByUnit

namespace AirBattle

variable {units : List Combatant} {side : Side} {rules : RuleSet} {sides : Int}

/-! ## One unit -/

@[simp] theorem base_foldRolls (sides : Int) (values : CombatValues) :
    (foldRolls sides values).base = values.base := by
  unfold foldRolls
  split <;> rfl

theorem not_keepsBest_foldRolls (sides : Int) (values : CombatValues) :
    ¬ ((foldRolls sides values).keepsBest ∧ 1 < (foldRolls sides values).rolls) := by
  unfold foldRolls
  split
  · simp
  · assumption

/-- A positive strength may be brought into range before or after the fold. -/
theorem bestRollStrength_inRange {strength rolls : Int} (hsides : 0 < sides)
    (hstrength : 0 < strength) (hrolls : 1 < rolls) :
    bestRollStrength (max 0 (min sides strength)) rolls sides =
      max 0 (min sides (bestRollStrength strength rolls sides)) := by
  have hbonus := extraRollBonus_mul_nonneg sides (Int.le_of_lt hrolls)
  have hone : ¬ rolls ≤ 1 := Int.not_le.mpr hrolls
  simp only [bestRollStrength, if_neg hone, Amount.saturate, Amount.least, Amount.most]
  omega

/-- A single die is worth its strength. -/
theorem unitPower_one {strength : Int} (h : 0 ≤ strength) (hmost : strength ≤ Amount.most)
    (keepsBest : Bool) : unitPower strength 1 keepsBest sides = strength := by
  unfold unitPower
  split
  · omega
  · rw [if_neg (by omega), Int.mul_one]
    exact Amount.saturate_of_le (Int.le_trans (by decide) h) hmost

/-- The single die is worth the dice that it stands for. -/
theorem power_of_foldRolls (unit : Combatant) {values : CombatValues}
    (h : 1 < values.rolls → 0 < values.strength) :
    (PowerRecord.of sides unit (foldRolls sides values)).power =
      (PowerRecord.of sides unit values).power := by
  unfold foldRolls
  split
  · rename_i hbest
    obtain ⟨hkeeps, hrolls⟩ := hbest
    have hstrength := h hrolls
    have hmost : bestRollStrength values.strength values.rolls sides ≤ Amount.most := by
      rw [bestRollStrength, if_neg (Int.not_le.mpr hrolls)]
      exact Int.le_trans (Int.min_le_left ..) (Amount.saturate_le_most _)
    calc unitPower (max 0 (min sides (bestRollStrength values.strength values.rolls sides)))
          (max 0 1) false sides
        = max 0 (min sides (bestRollStrength values.strength values.rolls sides)) := by
          refine unitPower_one (by omega) ?_ false
          simp only [Amount.most] at *
          omega
      _ = unitPower (max 0 (min sides values.strength)) (max 0 values.rolls) values.keepsBest
            sides := by
          rw [Int.max_eq_right (by omega : 0 ≤ values.rolls), hkeeps, unitPower]
          by_cases hsides : 0 < sides
          · rw [if_neg (by omega), if_pos ⟨rfl, hrolls⟩,
              bestRollStrength_inRange hsides hstrength hrolls]
          · rw [if_pos (by omega)]
            omega
  · rfl

/-! ## A group -/

/-- The power records of a group when it fires with the rules, but in low luck. -/
def pooled (units : List Combatant) (side : Side) (rules : RuleSet) : PowerTable :=
  .build units (calculator units side { rules with lowLuck := true })

/-- The power records of a group when it fires with the rules, but all its dice are rolled. -/
def folded (units : List Combatant) (side : Side) (rules : RuleSet) : PowerTable :=
  .build units (calculator units side { rules with lowLuck := false })

/-- Where all dice are rolled the values of units are those in low luck, folded. -/
theorem values_calculator (unit : Combatant) :
    (calculator units side { rules with lowLuck := false }).values unit =
      foldRolls rules.diceSides
        ((calculator units side { rules with lowLuck := true }).values unit) := by
  have htable : ByUnit.ofUnits units (valuesOf side { rules with lowLuck := false }) =
      (ByUnit.ofUnits units (valuesOf side { rules with lowLuck := true })).mapValues
        (foldRolls rules.diceSides) :=
    ByUnit.ofUnits_comp units (foldRolls rules.diceSides) _
  simp only [calculator, Calculator.ofTable]
  rw [htable, ByUnit.get?_mapValues]
  cases (ByUnit.ofUnits units (valuesOf side { rules with lowLuck := true })).get? unit.id <;> rfl

theorem airStrength_pos_of_airRolls {unit : Combatant} (h : 0 < unit.airRolls side) :
    0 < unit.type.airStrength side := by
  unfold Combatant.airRolls at h
  split at h
  · rename_i hair
    exact of_decide_eq_true (Bool.and_eq_true_iff.mp hair).2
  · cases h

/-- Units without air strength have no rolls. -/
theorem strength_pos_of_rolls {unit : Combatant}
    (h : 1 < ((calculator units side { rules with lowLuck := true }).values unit).rolls) :
    0 < ((calculator units side { rules with lowLuck := true }).values unit).strength := by
  simp only [calculator, Calculator.ofTable] at h ⊢
  cases hvalues :
      (ByUnit.ofUnits units (valuesOf side { rules with lowLuck := true })).get? unit.id with
  | none =>
    rw [hvalues] at h
    cases h
  | some values =>
    rw [hvalues] at h
    obtain ⟨other, -, rfl⟩ := ByUnit.exists_of_get?_ofUnits hvalues
    exact airStrength_pos_of_airRolls (Int.lt_trans Int.one_pos h)

/-- The units roll in the same order, with the same power each. -/
theorem records_folded (units : List Combatant) (side : Side) (rules : RuleSet) :
    (folded units side rules).records.map (fun record => (record.unit, record.power)) =
      (pooled units side rules).records.map fun record => (record.unit, record.power) := by
  have horder (unit : Combatant) :
      ((calculator units side { rules with lowLuck := false }).values unit).base =
        ((calculator units side { rules with lowLuck := true }).values unit).base := by
    rw [values_calculator, base_foldRolls]
  simp only [folded, pooled, PowerTable.build, horder, List.map_map]
  refine List.map_congr_left fun unit _ => Prod.ext rfl ?_
  rw [Function.comp_apply, values_calculator]
  exact power_of_foldRolls unit strength_pos_of_rolls

theorem not_keepsBest_of_mem_folded {record : PowerRecord}
    (h : record ∈ (folded units side rules).records) :
    ¬ (record.keepsBest ∧ 1 < record.rolls) := by
  obtain ⟨unit, -, rfl⟩ := List.mem_map.mp h
  rw [values_calculator]
  rintro ⟨hkeeps, hrolls⟩
  refine not_keepsBest_foldRolls rules.diceSides _ ⟨hkeeps, ?_⟩
  have hmax : 1 < max 0 (foldRolls rules.diceSides _).rolls := hrolls
  omega

end AirBattle

end Salvo
