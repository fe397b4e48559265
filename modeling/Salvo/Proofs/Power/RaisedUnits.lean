import Salvo.Proofs.Power.Range

/-! # Raised units

A unit of more strength or more rolls has no less power (`unitPower_mono`), also where it goes over
from one die to the best of several, and where its power leaves the range of amounts. So a group
whose units are raised has no less power and no fewer rolls, in whatever order its units roll
(`PowerTable.totals_of_raised_units`). -/

namespace Salvo

/-! ## One unit -/

variable {strength strength' rolls rolls' sides : Int}

theorem unitPower_sum (hstrength : 0 < strength) (hrolls : 0 < rolls) (sides : Int) :
    unitPower strength rolls false sides = Amount.saturate (strength * rolls) := by
  rw [unitPower, if_neg (by omega), if_neg (by simp)]

/-- A single die is valued like the best of several. -/
theorem unitPower_best (hstrength : 0 < strength) (hsides : strength ≤ sides)
    (hrolls : 0 < rolls) :
    unitPower strength rolls true sides =
      min (Amount.saturate (strength + Amount.saturate (extraRollBonus sides * (rolls - 1))))
        sides := by
  rw [unitPower, if_neg (by omega)]
  by_cases hone : rolls = 1
  · rw [hone, if_neg (by omega), Int.sub_self, Int.mul_zero, Int.mul_one]
    simp only [Amount.saturate, Amount.least, Amount.most]
    omega
  · rw [if_pos ⟨rfl, by omega⟩, bestRollStrength, if_neg (by omega)]

theorem unitPower_mono (hsides : strength' ≤ sides) (hstrength : strength ≤ strength')
    (hrolls : rolls ≤ rolls') (keepsBest : Bool) :
    unitPower strength rolls keepsBest sides ≤ unitPower strength' rolls' keepsBest sides := by
  by_cases hpos : 0 < strength ∧ 0 < rolls
  · obtain ⟨hs, hr⟩ := hpos
    have hs' : 0 < strength' := Int.lt_of_lt_of_le hs hstrength
    have hr' : 0 < rolls' := Int.lt_of_lt_of_le hr hrolls
    cases keepsBest with
    | false =>
      rw [unitPower_sum hs hr, unitPower_sum hs' hr']
      have hproduct : strength * rolls ≤ strength' * rolls' :=
        Int.mul_le_mul hstrength hrolls (Int.le_of_lt hr) (Int.le_of_lt hs')
      exact Amount.saturate_mono hproduct
    | true =>
      rw [unitPower_best hs (Int.le_trans hstrength hsides) hr, unitPower_best hs' hsides hr']
      have hbonus : extraRollBonus sides * (rolls - 1) ≤ extraRollBonus sides * (rolls' - 1) :=
        Int.mul_le_mul_of_nonneg_left (Int.sub_le_sub_right hrolls 1)
          (Int.le_of_lt (extraRollBonus_pos sides))
      have hsum := Amount.saturate_mono (Int.add_le_add hstrength (Amount.saturate_mono hbonus))
      omega
  · have hzero : unitPower strength rolls keepsBest sides = 0 := if_pos (by omega)
    rw [hzero]
    exact unitPower_nonneg (Int.le_trans hsides (Int.le_max_right ..)) rolls' keepsBest

theorem unitPower_best_le (hsides : 0 ≤ sides) (hrolls : 1 < rolls) (strength : Int) :
    unitPower strength rolls true sides ≤ sides := by
  unfold unitPower
  split
  · exact hsides
  · rw [if_pos ⟨rfl, hrolls⟩, bestRollStrength, if_neg (Int.not_le.mpr hrolls)]
    exact Int.min_le_right ..

/-! ## A group -/

/-- What a unit brings is no less with the second calculator, once it is brought into range. -/
structure Calculator.RaisedBy (calculator raised : Calculator) (unit : Combatant) : Prop where
  keepsBest : (calculator.record unit).keepsBest = (raised.record unit).keepsBest
  strength : (calculator.record unit).strength ≤ (raised.record unit).strength
  rolls : (calculator.record unit).rolls ≤ (raised.record unit).rolls

/-- More strength and more rolls before that are no less after it. -/
theorem Calculator.RaisedBy.of_values {calculator raised : Calculator} {unit : Combatant}
    (hsides : calculator.diceSides = raised.diceSides)
    (hkeeps : (calculator.values unit).keepsBest = (raised.values unit).keepsBest)
    (hstrength : (calculator.values unit).strength ≤ (raised.values unit).strength)
    (hrolls : (calculator.values unit).rolls ≤ (raised.values unit).rolls) :
    calculator.RaisedBy raised unit where
  keepsBest := hkeeps
  strength := by
    simp only [Calculator.record, PowerRecord.of, hsides]
    omega
  rolls := by
    simp only [Calculator.record, PowerRecord.of]
    omega

theorem Calculator.RaisedBy.power_le {calculator raised : Calculator} {unit : Combatant}
    (h : calculator.RaisedBy raised unit) (hsides : 0 ≤ calculator.diceSides)
    (hsame : raised.diceSides = calculator.diceSides) :
    (calculator.record unit).power ≤ (raised.record unit).power := by
  have hle := (raised.inRange_record unit).strength_le
  rw [hsame, Int.max_eq_right hsides] at hle
  rw [(calculator.inRange_record unit).power_eq, (raised.inRange_record unit).power_eq, hsame,
    h.keepsBest]
  exact unitPower_mono hle h.strength h.rolls _

namespace PowerTable

variable {units units' : List Combatant} {calculator raised : Calculator} {f : PowerRecord → Int}

theorem total_build (units : List Combatant) (calculator : Calculator)
    (h : ∀ unit, 0 ≤ f (calculator.record unit)) :
    Amount.total ((build units calculator).records.map f) =
      Amount.total (units.map fun unit => f (calculator.record unit)) := by
  have hperm := (perm_records_build units calculator).map f
  rw [List.map_map] at hperm
  refine Amount.total_perm hperm fun x hx => ?_
  obtain ⟨unit, -, rfl⟩ := List.mem_map.mp hx
  exact h unit

/-- The order in which the units roll may change too. -/
theorem total_build_mono (hperm : units.Perm units')
    (h : ∀ unit, 0 ≤ f (calculator.record unit)) (h' : ∀ unit, 0 ≤ f (raised.record unit))
    (hle : ∀ unit ∈ units, f (calculator.record unit) ≤ f (raised.record unit)) :
    Amount.total ((build units calculator).records.map f) ≤
      Amount.total ((build units' raised).records.map f) := by
  rw [total_build units calculator h, total_build units' raised h']
  refine Int.le_trans (Amount.total_mono hle) (Int.le_of_eq ?_)
  refine Amount.total_perm (hperm.map _) fun x hx => ?_
  obtain ⟨unit, -, rfl⟩ := List.mem_map.mp hx
  exact h' unit

/-- More strength, up to the sides of a die, and more rolls are worth no less power. A unit that
keeps the best of several dice has no more power than a die has sides. A group whose units are
raised, and may roll in another order, has no less power and no fewer rolls. -/
theorem totals_of_raised_units :
    (∀ (strength strength' rolls rolls' sides : Int) (keepsBest : Bool),
      strength ≤ strength' → strength' ≤ sides → rolls ≤ rolls' →
      0 ≤ unitPower strength rolls keepsBest sides ∧
        unitPower strength rolls keepsBest sides ≤ unitPower strength' rolls' keepsBest sides) ∧
    (∀ strength rolls sides : Int, 0 ≤ sides → 1 < rolls →
      unitPower strength rolls true sides ≤ sides) ∧
    ∀ (units units' : List Combatant) (calculator raised : Calculator),
      0 ≤ calculator.diceSides → raised.diceSides = calculator.diceSides → units.Perm units' →
      (∀ unit ∈ units, calculator.RaisedBy raised unit) →
      (build units calculator).totalPower ≤ (build units' raised).totalPower ∧
        (build units calculator).totalRolls ≤ (build units' raised).totalRolls := by
  refine ⟨?_, fun strength rolls sides hsides hrolls => unitPower_best_le hsides hrolls strength,
    ?_⟩
  · intro strength strength' rolls rolls' sides keepsBest hstrength hsides hrolls
    have hrange : strength ≤ max 0 sides := by omega
    exact ⟨unitPower_nonneg hrange rolls keepsBest,
      unitPower_mono hsides hstrength hrolls keepsBest⟩
  · intro units units' calculator raised hsides hsame hperm hraised
    constructor
    · exact total_build_mono hperm (fun unit => (calculator.inRange_record unit).power_nonneg)
        (fun unit => (raised.inRange_record unit).power_nonneg)
        fun unit hunit => (hraised unit hunit).power_le hsides hsame
    · exact total_build_mono hperm (fun unit => (calculator.inRange_record unit).rolls_nonneg)
        (fun unit => (raised.inRange_record unit).rolls_nonneg)
        fun unit hunit => (hraised unit hunit).rolls

/-- A bomber that keeps the best of two dice instead of one, and an infantry unit that is supported
and then rolls in front of it. -/
theorem totals_of_raised_bomber :
    let unit (id : Nat) (name : String) : Combatant := ⟨id, { name }, { name := "Germans" }⟩
    let units := [unit 0 "bomber", unit 1 "infantry"]
    let calculator : Calculator :=
      { diceSides := 6
        values := fun unit =>
          if unit.id = 0 then { base := 4, strength := 4, rolls := 1, keepsBest := true }
          else { base := 1, strength := 1, rolls := 2147483647 } }
    let raised : Calculator :=
      { diceSides := 6
        values := fun unit =>
          if unit.id = 0 then { base := 4, strength := 4, rolls := 2, keepsBest := true }
          else { base := 5, strength := 9, rolls := 2147483647 } }
    let table := build units calculator
    let table' := build units.reverse raised
    table.records.map (·.power) = [4, 2147483647] ∧ table.totalPower = 2147483647 ∧
      table'.records.map (·.power) = [2147483647, 5] ∧
      table.totalPower ≤ table'.totalPower ∧ table.totalRolls ≤ table'.totalRolls ∧
      unitPower 4 1 true 6 ≤ unitPower 4 2 true 6 ∧ unitPower 4 2 true 6 ≤ 6 := by
  intro unit units calculator raised table table'
  obtain ⟨hunit, hbest, hgroup⟩ := totals_of_raised_units
  have hraised : ∀ unit ∈ units, calculator.RaisedBy raised unit := by
    refine List.forall_mem_cons.mpr ⟨?_, List.forall_mem_singleton.mpr ?_⟩
    · exact .of_values rfl rfl (by decide) (by decide)
    · exact .of_values rfl rfl (by decide) (by decide)
  obtain ⟨hpower, hrolls⟩ := hgroup units units.reverse calculator raised (by decide) rfl
    units.reverse_perm.symm hraised
  obtain ⟨-, hmono⟩ := hunit 4 4 1 2 6 true (by decide) (by decide) (by decide)
  exact ⟨by decide, by decide, by decide, hpower, hrolls, hmono,
    hbest 4 2 6 (by decide) (by decide)⟩

end PowerTable

end Salvo
