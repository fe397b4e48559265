import Mathlib.Algebra.Order.BigOperators.Group.List
import Mathlib.Algebra.Order.Group.Int
import Salvo.Dice.Throw
import Salvo.Power.Basic

/-! # The range of power records

The records of a built group have their strength in `0..sides`, no negative rolls, and the power
of these (`PowerTable.inRange_build`). So powers are not negative, and a group has power just when
one of its units has both strength and rolls (`PowerTable.InRange.totalPower_pos_iff`); then its
dice have sides and it has rolls. -/

namespace Salvo

theorem Amount.saturate_pos {x : Int} (h : 0 < x) : 0 < saturate x := by
  simp only [saturate, least, most]
  omega

theorem Amount.saturate_nonneg {x : Int} (h : 0 ≤ x) : 0 ≤ saturate x := by
  simp only [saturate, least, most]
  omega

theorem Amount.foldl_saturate_mono {α : Type} {f g : α → Int} {xs : List α}
    (h : ∀ x ∈ xs, f x ≤ g x) {start start' : Int} (hstart : start ≤ start') :
    (xs.map f).foldl (fun sum x => saturate (sum + x)) start ≤
      (xs.map g).foldl (fun sum x => saturate (sum + x)) start' := by
  induction xs generalizing start start' with
  | nil => exact hstart
  | cons x xs ih =>
    obtain ⟨hx, hxs⟩ := List.forall_mem_cons.mp h
    exact ih hxs (saturate_mono (Int.add_le_add hstart hx))

/-- Greater amounts, one by one, have a greater total. -/
theorem Amount.total_mono {α : Type} {f g : α → Int} {xs : List α} (h : ∀ x ∈ xs, f x ≤ g x) :
    total (xs.map f) ≤ total (xs.map g) :=
  foldl_saturate_mono h (Int.le_refl 0)

/-- Without negative amounts the order does not matter. -/
theorem Amount.total_perm {xs ys : List Int} (hperm : xs.Perm ys) (h : ∀ x ∈ ys, 0 ≤ x) :
    total xs = total ys := by
  rw [total_eq_min h, total_eq_min fun x hx => h x (hperm.mem_iff.mp hx), hperm.sum_eq]

/-! ## The power of a unit -/

theorem extraRollBonus_pos (sides : Int) : 0 < extraRollBonus sides := by
  simp only [extraRollBonus]
  omega

/-- What all dice beyond the first add. -/
theorem extraRollBonus_mul_nonneg (sides : Int) {rolls : Int} (h : 1 ≤ rolls) :
    0 ≤ extraRollBonus sides * (rolls - 1) :=
  Int.mul_nonneg (Int.le_of_lt (extraRollBonus_pos sides)) (by omega)

theorem bestRollStrength_pos {strength sides : Int} (hs : 0 < strength) (hd : 0 < sides)
    (rolls : Int) : 0 < bestRollStrength strength rolls sides := by
  unfold bestRollStrength
  split
  · exact hs
  · rename_i hrolls
    have hbonus := extraRollBonus_mul_nonneg sides (Int.le_of_lt (Int.not_le.mp hrolls))
    have hsum := Amount.saturate_pos
      (Int.add_pos_of_pos_of_nonneg hs (Amount.saturate_nonneg hbonus))
    dsimp only
    omega

theorem unitPower_pos_iff {strength sides : Int} (h : strength ≤ max 0 sides) (rolls : Int)
    (keepsBest : Bool) :
    0 < unitPower strength rolls keepsBest sides ↔ 0 < strength ∧ 0 < rolls := by
  unfold unitPower
  split
  · omega
  · rename_i hnot
    have hs : 0 < strength := by omega
    have hr : 0 < rolls := by omega
    refine iff_of_true ?_ ⟨hs, hr⟩
    split
    · exact bestRollStrength_pos hs (by omega) rolls
    · exact Amount.saturate_pos (Int.mul_pos hs hr)

theorem unitPower_nonneg {strength sides : Int} (h : strength ≤ max 0 sides) (rolls : Int)
    (keepsBest : Bool) : 0 ≤ unitPower strength rolls keepsBest sides := by
  by_cases hpos : 0 < strength ∧ 0 < rolls
  · exact Int.le_of_lt ((unitPower_pos_iff h rolls keepsBest).mpr hpos)
  · have hzero : unitPower strength rolls keepsBest sides = 0 := if_pos (by omega)
    exact Int.le_of_eq hzero.symm

/-! ## Records and tables -/

structure PowerRecord.InRange (sides : Int) (record : PowerRecord) : Prop where
  strength_nonneg : 0 ≤ record.strength
  strength_le : record.strength ≤ max 0 sides
  rolls_nonneg : 0 ≤ record.rolls
  power_eq : record.power = unitPower record.strength record.rolls record.keepsBest sides

theorem PowerRecord.inRange_of (sides : Int) (unit : Combatant) (values : CombatValues) :
    (PowerRecord.of sides unit values).InRange sides where
  strength_nonneg := Int.le_max_left ..
  strength_le := by
    simp only [PowerRecord.of]
    omega
  rolls_nonneg := Int.le_max_left ..
  power_eq := rfl

theorem PowerRecord.InRange.power_nonneg {sides : Int} {record : PowerRecord}
    (h : record.InRange sides) : 0 ≤ record.power := by
  rw [h.power_eq]
  exact unitPower_nonneg h.strength_le ..

theorem PowerRecord.InRange.power_pos_iff {sides : Int} {record : PowerRecord}
    (h : record.InRange sides) : 0 < record.power ↔ 0 < record.strength ∧ 0 < record.rolls := by
  rw [h.power_eq]
  exact unitPower_pos_iff h.strength_le ..

/-- The power of an ordinary unit is its strength times its rolls, where this is in range. -/
theorem PowerRecord.InRange.power_eq_mul {sides : Int} {record : PowerRecord}
    (h : record.InRange sides) (hordinary : ¬ (record.keepsBest ∧ 1 < record.rolls))
    (hmost : record.strength * record.rolls ≤ Amount.most) :
    record.power = record.strength * record.rolls := by
  have hnonneg := Int.mul_nonneg h.strength_nonneg h.rolls_nonneg
  rw [h.power_eq, unitPower, if_neg hordinary]
  split
  · rename_i hzero
    have hstrength := h.strength_nonneg
    have hrolls := h.rolls_nonneg
    rcases hzero with hzero | hzero
    · rw [Int.le_antisymm hzero hstrength, Int.zero_mul]
    · rw [Int.le_antisymm hzero hrolls, Int.mul_zero]
  · refine Amount.saturate_of_le (Int.le_trans ?_ hnonneg) hmost
    decide

/-- The record of a unit in the table that is built with the calculator. -/
def Calculator.record (calculator : Calculator) (unit : Combatant) : PowerRecord :=
  .of calculator.diceSides unit (calculator.values unit)

theorem Calculator.inRange_record (calculator : Calculator) (unit : Combatant) :
    (calculator.record unit).InRange calculator.diceSides :=
  PowerRecord.inRange_of ..

namespace PowerTable

def InRange (table : PowerTable) : Prop :=
  ∀ record ∈ table.records, record.InRange table.diceSides

theorem perm_records_build (units : List Combatant) (calculator : Calculator) :
    (build units calculator).records.Perm (units.map calculator.record) :=
  (perm_sortOn ..).map _

theorem mem_records_build {units : List Combatant} {calculator : Calculator}
    {record : PowerRecord} :
    record ∈ (build units calculator).records ↔ ∃ unit ∈ units, calculator.record unit = record := by
  rw [(perm_records_build units calculator).mem_iff, List.mem_map]

theorem inRange_build (units : List Combatant) (calculator : Calculator) :
    (build units calculator).InRange := by
  intro record hrecord
  obtain ⟨unit, -, rfl⟩ := mem_records_build.mp hrecord
  exact calculator.inRange_record unit

theorem eq_build_of_build? {units : List Combatant} {calculator : Calculator} {table : PowerTable}
    (h : build? units calculator = .ok table) : table = build units calculator := by
  unfold build? at h
  split at h
  · cases h
  · cases h
    rfl

theorem inRange_of_build? {units : List Combatant} {calculator : Calculator} {table : PowerTable}
    (h : build? units calculator = .ok table) : table.InRange := by
  rw [eq_build_of_build? h]
  exact inRange_build units calculator

/-- The rolls of all units, also where they exceed the range of amounts. -/
def exactRolls (table : PowerTable) : Int := (table.records.map (·.rolls)).sum

variable {table : PowerTable}

theorem InRange.totalPower_eq (h : table.InRange) :
    table.totalPower = min Amount.most (table.records.map (·.power)).sum := by
  refine Amount.total_eq_min fun power hpower => ?_
  obtain ⟨record, hrecord, rfl⟩ := List.mem_map.mp hpower
  exact (h record hrecord).power_nonneg

/-- Where `f` is the power of every unit for which it is in range, and adds up to no more than is in
range, its sum is the power of the group. -/
theorem InRange.totalPower_eq_sum (h : table.InRange) {f : PowerRecord → Int}
    (hnonneg : ∀ record ∈ table.records, 0 ≤ f record)
    (hexact : ∀ record ∈ table.records, f record ≤ Amount.most → record.power = f record)
    (hmost : (table.records.map f).sum ≤ Amount.most) :
    table.totalPower = (table.records.map f).sum := by
  have hterms : ∀ x ∈ table.records.map f, 0 ≤ x := by
    intro x hx
    obtain ⟨record, hrecord, rfl⟩ := List.mem_map.mp hx
    exact hnonneg record hrecord
  have hpowers : table.records.map (·.power) = table.records.map f := by
    refine List.map_congr_left fun record hrecord => ?_
    refine hexact record hrecord (Int.le_trans ?_ hmost)
    exact List.single_le_sum hterms _ (List.mem_map_of_mem hrecord)
  rw [h.totalPower_eq, hpowers, Int.min_eq_right hmost]

theorem InRange.totalRolls_eq (h : table.InRange) :
    table.totalRolls = min Amount.most table.exactRolls := by
  refine Amount.total_eq_min fun rolls hrolls => ?_
  obtain ⟨record, hrecord, rfl⟩ := List.mem_map.mp hrolls
  exact (h record hrecord).rolls_nonneg

/-- A sum without negative terms is positive if one of them is. -/
theorem sum_map_pos_iff {records : List PowerRecord} {f : PowerRecord → Int}
    (h : ∀ record ∈ records, 0 ≤ f record) :
    0 < (records.map f).sum ↔ ∃ record ∈ records, 0 < f record := by
  induction records with
  | nil => simp
  | cons record records ih =>
    obtain ⟨hrecord, hrecords⟩ := List.forall_mem_cons.mp h
    have hsum : 0 ≤ (records.map f).sum := by
      refine Amount.sum_nonneg fun x hx => ?_
      obtain ⟨other, hother, rfl⟩ := List.mem_map.mp hx
      exact hrecords other hother
    simp only [List.map_cons, List.sum_cons, List.mem_cons, exists_eq_or_imp, ← ih hrecords]
    omega

/-- A group has power just when one of its units has strength and rolls. -/
theorem InRange.totalPower_pos_iff (h : table.InRange) :
    0 < table.totalPower ↔ ∃ record ∈ table.records, 0 < record.strength ∧ 0 < record.rolls := by
  have hsum := sum_map_pos_iff (f := PowerRecord.power) fun record hr => (h record hr).power_nonneg
  have hpos : 0 < table.totalPower ↔ 0 < (table.records.map (·.power)).sum := by
    rw [h.totalPower_eq]
    simp only [Amount.most]
    omega
  rw [hpos, hsum]
  exact exists_congr fun record => and_congr_right fun hr => (h record hr).power_pos_iff

theorem InRange.totalPower_nonneg (h : table.InRange) : 0 ≤ table.totalPower := by
  have hsum : 0 ≤ (table.records.map (·.power)).sum := by
    refine Amount.sum_nonneg fun power hpower => ?_
    obtain ⟨record, hrecord, rfl⟩ := List.mem_map.mp hpower
    exact (h record hrecord).power_nonneg
  rw [h.totalPower_eq]
  simp only [Amount.most]
  omega

theorem InRange.totalRolls_pos (h : table.InRange) (hpower : 0 < table.totalPower) :
    0 < table.totalRolls := by
  obtain ⟨record, hrecord, _, hrolls⟩ := h.totalPower_pos_iff.mp hpower
  have hsum : 0 < table.exactRolls :=
    (sum_map_pos_iff fun record hr => (h record hr).rolls_nonneg).mpr ⟨record, hrecord, hrolls⟩
  rw [h.totalRolls_eq]
  simp only [Amount.most]
  omega

theorem InRange.diceSides_pos (h : table.InRange) (hpower : 0 < table.totalPower) :
    0 < table.diceSides := by
  obtain ⟨record, hrecord, hstrength, _⟩ := h.totalPower_pos_iff.mp hpower
  have := (h record hrecord).strength_le
  omega

theorem InRange.canHit_eq (h : table.InRange) : table.canHit = decide (0 < table.totalPower) := by
  rw [canHit]
  by_cases hpower : 0 < table.totalPower
  · simp [hpower, h.totalRolls_pos hpower]
  · simp [hpower]

end PowerTable

end Salvo
