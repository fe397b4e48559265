import Salvo.Proofs.Power.AirPower
import Salvo.Proofs.Power.SupportedPower
import Salvo.Proofs.Round.SilentGuns
import Salvo.Proofs.Round.TakingPart

/-! # The rolls of spent units

A fire lists all suicide units of its group as spent, and not all of them need have a die in it. A
gun rolls for the targets that the guns in front of it leave, a unit of a step with the rolls that
support leaves it, and an air unit if it has an air strength (`Battle.RollsIn`). This decides about
the rolls of a unit in the power table of its fire (`Battle.rollsOf_pos_iff`), and not about whether
the unit is spent (`Battle.spent_of_fire`). -/

namespace Salvo

/-! ## The rolls of a unit -/

namespace PowerTable

/-- The rolls of the unit with the id, if it has a record. -/
def rollsOf (table : PowerTable) (id : Nat) : Int := ((table.get? id).map (·.rolls)).getD 0

variable {units : List Combatant} {calculator : Calculator} {unit : Combatant} {id : Nat}

theorem unit_of_mem_build {record : PowerRecord} (h : record ∈ (build units calculator).records) :
    record.unit ∈ units := by
  obtain ⟨unit, hunit, rfl⟩ := mem_records_build.mp h
  exact hunit

theorem rollsOf_build (hids : (units.map (·.id)).Nodup) (hunit : unit ∈ units) :
    (build units calculator).rollsOf unit.id = max 0 (calculator.values unit).rolls := by
  cases hget : (build units calculator).get? unit.id with
  | none =>
    have hrecord : calculator.record unit ∈ (build units calculator).records :=
      mem_records_build.mpr ⟨unit, hunit, rfl⟩
    exact absurd (beq_self_eq_true unit.id) (List.find?_eq_none.mp hget _ hrecord)
  | some record =>
    obtain ⟨other, hother, rfl⟩ := mem_records_build.mp (List.mem_of_find?_eq_some hget)
    have hid : other.id = unit.id :=
      eq_of_beq (List.find?_some (p := fun record : PowerRecord => record.unit.id == unit.id) hget)
    rw [rollsOf, hget, List.inj_on_of_nodup_map hids hother hunit hid]
    rfl

theorem rollsOf_build_pos_iff (hids : (units.map (·.id)).Nodup) (hunit : unit ∈ units) :
    0 < (build units calculator).rollsOf unit.id ↔ 0 < (calculator.values unit).rolls := by
  rw [rollsOf_build hids hunit]
  omega

theorem rollsOf_build_of_notMem (h : id ∉ units.map (·.id)) :
    (build units calculator).rollsOf id = 0 := by
  have hget : (build units calculator).get? id = none := by
    refine List.find?_eq_none.mpr fun record hrecord hid => h ?_
    exact eq_of_beq hid ▸ List.mem_map_of_mem (unit_of_mem_build hrecord)
  rw [rollsOf, hget]
  rfl

end PowerTable

/-! ## Anti-aircraft fire -/

namespace AntiAircraftFire

variable {guns targets units : List Combatant} {side : Side} {rules : RuleSet} {gun : Combatant}

/-- Whether a gun rolls: it has something to shoot at and a limit, and if it may not over-stack, the
guns in front of it leave a target. All guns are silent if the sum of their rolls, which may wrap
around, comes out without any. -/
def Rolls (guns targets : List Combatant) (side : Side) (rules : RuleSet) (gun : Combatant) : Prop :=
  let firing := effectiveGuns guns targets
  let count := min (validTargets firing targets).length Amount.most.toNat
  0 < (atTargets guns targets side rules).totalRolls ∧
    ∃ before after, inOrder firing side = before ++ gun :: after ∧ 0 < gun.rollLimit count ∧
      (gun.overStacks ∨ sharedLimits count before < count)

/-- More targets than an amount can count are as good as that many. -/
theorem of_eq_of_least (units : List Combatant) (targetCount : Nat) (side : Side)
    (rules : RuleSet) :
    of units targetCount side rules = of units (min targetCount Amount.most.toNat) side rules := by
  unfold of
  have hmin : min (targetCount : Int) Amount.most =
      min ((min targetCount Amount.most.toNat : Nat) : Int) Amount.most := by
    simp only [Amount.most]
    omega
  rw [hmin]

theorem rollsAt_pos_iff (gun : Combatant) (count covered : Int) :
    0 < gun.rollsAt count (max 0 (count - covered)) ↔
      0 < gun.rollLimit count ∧ (gun.overStacks ∨ covered < count) := by
  unfold Combatant.rollsAt
  split
  · rename_i h
    simp [h]
  · rename_i h
    simp [h]

theorem unit_of_mem_powerTable {table : PowerTable}
    (h : powerTable guns targets side rules = .ok table) {record : PowerRecord}
    (hrecord : record ∈ table.records) : record.unit ∈ guns := by
  by_cases hrolls : 0 < (atTargets guns targets side rules).totalRolls
  · rw [powerTable_of_rolls hrolls] at h
    obtain rfl := PowerTable.eq_build_of_build? h
    exact (List.mem_filter.mp (PowerTable.unit_of_mem_build hrecord)).1
  · rw [powerTable_of_no_rolls (Int.not_lt.mp hrolls)] at h
    cases h
    cases hrecord

/-- The rolls that a gun has in the power of its group, whether the group is silent or not. -/
theorem rollsOf_gunPower_pos_iff (hids : (guns.map (·.id)).Nodup) (hgun : gun ∈ guns)
    {table : PowerTable} (h : gunPower guns targets side rules = .ok table) :
    let firing := effectiveGuns guns targets
    let count := min (validTargets firing targets).length Amount.most.toNat
    0 < table.rollsOf gun.id ↔
      ∃ before after, inOrder firing side = before ++ gun :: after ∧ 0 < gun.rollLimit count ∧
        (gun.overStacks ∨ sharedLimits count before < count) := by
  intro firing count
  obtain rfl := PowerTable.eq_build_of_build? h
  have hfiring : (firing.map (·.id)).Nodup := (List.filter_sublist.map _).nodup hids
  have hcount : (count : Int) ≤ Amount.most := by
    simp only [count, Amount.most]
    omega
  by_cases hmem : gun ∈ firing
  · rw [PowerTable.rollsOf_build_pos_iff hfiring hmem, atTargets, of_eq_of_least]
    constructor
    · intro hpos
      have hinOrder : gun ∈ inOrder firing side :=
        mem_inOrder.mpr ⟨hmem, isGun_of_mem_effectiveGuns hmem⟩
      obtain ⟨before, after, hsplit⟩ := List.append_of_mem hinOrder
      rw [values_of hfiring hcount side rules hsplit] at hpos
      exact ⟨before, after, hsplit, (rollsAt_pos_iff ..).mp hpos⟩
    · rintro ⟨before, after, hsplit, hrolls⟩
      rw [values_of hfiring hcount side rules hsplit]
      exact (rollsAt_pos_iff ..).mpr hrolls
  · have hid : gun.id ∉ firing.map (·.id) := by
      intro hid
      obtain ⟨other, hother, hsame⟩ := List.mem_map.mp hid
      have heq := List.inj_on_of_nodup_map hids (List.mem_filter.mp hother).1 hgun hsame
      exact hmem (heq ▸ hother)
    rw [PowerTable.rollsOf_build_of_notMem hid]
    refine iff_of_false (Int.lt_irrefl 0) ?_
    rintro ⟨before, after, hsplit, -⟩
    exact hmem (mem_inOrder.mp (hsplit ▸ List.mem_append_right _ List.mem_cons_self)).1

theorem rollsOf_pos_iff (hids : (guns.map (·.id)).Nodup) (hgun : gun ∈ guns) {table : PowerTable}
    (h : powerTable guns targets side rules = .ok table) :
    0 < table.rollsOf gun.id ↔ Rolls guns targets side rules gun := by
  by_cases hrolls : 0 < (atTargets guns targets side rules).totalRolls
  · rw [powerTable_of_rolls hrolls] at h
    exact (rollsOf_gunPower_pos_iff hids hgun h).trans (and_iff_right hrolls).symm
  · rw [powerTable_of_no_rolls (Int.not_lt.mp hrolls)] at h
    cases h
    exact iff_of_false (Int.lt_irrefl 0) fun h => hrolls h.1

end AntiAircraftFire

/-! ## Air battles -/

namespace AirBattle

variable {units : List Combatant} {side : Side} {rules : RuleSet} {unit : Combatant}

theorem rolls_foldRolls_pos_iff (sides : Int) (values : CombatValues) :
    0 < (foldRolls sides values).rolls ↔ 0 < values.rolls := by
  unfold foldRolls
  split
  · rename_i h
    exact iff_of_true Int.one_pos (by omega)
  · rfl

theorem rollsOf_pos_iff (hids : (units.map (·.id)).Nodup) (hunit : unit ∈ units)
    {table : PowerTable} (h : powerTable units side rules = .ok table) :
    0 < table.rollsOf unit.id ↔ 0 < unit.airRolls side := by
  have hget : (ByUnit.ofUnits units (valuesOf side rules)).get? unit.id =
      some (valuesOf side rules unit) := ByUnit.get?_ofUnits hids hunit _
  have hvalues : (calculator units side rules).values unit = valuesOf side rules unit :=
    congrArg (·.getD {}) hget
  have hrolls : 0 < (valuesOf side rules unit).rolls ↔ 0 < unit.airRolls side := by
    unfold valuesOf
    dsimp only
    split
    · rfl
    · exact rolls_foldRolls_pos_iff ..
  rw [PowerTable.eq_build_of_build? h, PowerTable.rollsOf_build_pos_iff hids hunit, hvalues, hrolls]

end AirBattle

/-! ## The fires of a round -/

namespace Battle

variable {battle : Battle} {rules : RuleSet} {supportRules : List SupportRule}

/-- The rolls of a unit in a step, with support and before they are brought into range. -/
def stepRolls (battle : Battle) (rules : RuleSet) (supportRules : List SupportRule)
    (step : FireStep) (unit : Combatant) : Int :=
  Amount.wrap ((unit.profile step.firing rules battle.context).rolls +
    Grant.bonus (battle.stepCombat rules supportRules step).support.grants .rolls unit.id)

/-- Whether a unit of the volley rolls. -/
def RollsIn (battle : Battle) (rules : RuleSet) (supportRules : List SupportRule) (volley : Volley)
    (unit : Combatant) : Prop :=
  match volley.kind with
  | .antiAircraft =>
    AntiAircraftFire.Rolls volley.units (battle.units volley.side.opposite) volley.side rules unit
  | .airBattle => 0 < unit.airRolls volley.side
  | .firstStrike | .general =>
    ∃ step, battle.stepVolley? rules supportRules step = some volley ∧
      0 < battle.stepRolls rules supportRules step unit

section

variable {volley : Volley} {step : FireStep} {unit : Combatant} {table : PowerTable}

theorem rollsIn_stepVolley?_iff (h : battle.stepVolley? rules supportRules step = some volley) :
    battle.RollsIn rules supportRules volley unit ↔
      ∃ step, battle.stepVolley? rules supportRules step = some volley ∧
        0 < battle.stepRolls rules supportRules step unit := by
  have hkind : volley.kind = .firstStrike ∨ volley.kind = .general := by
    rw [eq_of_stepVolley? h]
    cases step.isFirstStrike
    · exact .inr rfl
    · exact .inl rfl
  unfold RollsIn
  rcases hkind with hkind | hkind <;> rw [hkind]

theorem rollsOf_stepVolley?_pos_iff
    (h : battle.stepVolley? rules supportRules step = some volley)
    (hids : (volley.units.map (·.id)).Nodup) (htable : volley.table = .ok table)
    (hunit : unit ∈ volley.units) :
    0 < table.rollsOf unit.id ↔ 0 < battle.stepRolls rules supportRules step unit := by
  obtain rfl := eq_of_stepVolley? h
  rw [PowerTable.eq_build_of_build? htable, PowerTable.rollsOf_build_pos_iff hids hunit]
  have hvalues : ((battle.stepCombat rules supportRules step).calculator.values unit).rolls =
      battle.stepRolls rules supportRules step unit :=
    congrArg (·.rolls) (MainCombat.values_of_mem hids hunit)
  rw [hvalues]

theorem rollsOf_pos_iff (hids : (volley.units.map (·.id)).Nodup)
    (hvolley : volley ∈ battle.volleys rules supportRules) (htable : volley.table = .ok table)
    (hunit : unit ∈ volley.units) :
    0 < table.rollsOf unit.id ↔ battle.RollsIn rules supportRules volley unit := by
  rcases eq_some_of_mem_volleys hvolley with ⟨side, guns, h⟩ | ⟨step, h⟩ | ⟨side, h⟩
  · obtain rfl := eq_of_antiAircraftVolley? h
    exact AntiAircraftFire.rollsOf_pos_iff hids hunit htable
  · rw [rollsIn_stepVolley?_iff h]
    constructor
    · intro hpos
      exact ⟨step, h, (rollsOf_stepVolley?_pos_iff h hids htable hunit).mp hpos⟩
    · rintro ⟨other, hother, hpos⟩
      exact (rollsOf_stepVolley?_pos_iff hother hids htable hunit).mpr hpos
  · obtain rfl := eq_of_airVolley? h
    exact AirBattle.rollsOf_pos_iff hids hunit htable

/-- Only units of the volley have records. -/
theorem unit_of_mem_records (hvolley : volley ∈ battle.volleys rules supportRules)
    (htable : volley.table = .ok table) {record : PowerRecord} (hrecord : record ∈ table.records) :
    record.unit ∈ volley.units := by
  rcases eq_some_of_mem_volleys hvolley with ⟨side, guns, h⟩ | ⟨step, h⟩ | ⟨side, h⟩
  · obtain rfl := eq_of_antiAircraftVolley? h
    exact AntiAircraftFire.unit_of_mem_powerTable htable hrecord
  · obtain rfl := eq_of_stepVolley? h
    obtain rfl := PowerTable.eq_build_of_build? htable
    exact PowerTable.unit_of_mem_build hrecord
  · obtain rfl := eq_of_airVolley? h
    obtain rfl := PowerTable.eq_build_of_build? htable
    exact PowerTable.unit_of_mem_build hrecord

end

/-- A fire spends the suicide units of its group, whether they roll or not. -/
theorem spent_of_fire (battle : Battle) (rules : RuleSet) (supportRules : List SupportRule)
    (hids : ((battle.offense ++ battle.defense).map (·.id)).Nodup) {σ : Type} [DiceSource σ]
    (source : σ) (history : History) (report : RoundReport)
    (h : (battle.resolveRound rules supportRules source history).outcome = .ok report) :
    ∀ fire ∈ report.fires, ∃ volley ∈ battle.volleys rules supportRules, ∃ table values,
      volley.table = .ok table ∧
      fire = volley.outcome battle rules
        (table.rollOf volley.lowLuck (battle.player volley.side) values) ∧
      fire.spent.Nodup ∧
      (∀ id, id ∈ fire.spent ↔ ∃ unit ∈ volley.units, (unit.traits rules).suicide ∧ unit.id = id) ∧
      (∀ record ∈ table.records, (record.unit.traits rules).suicide →
        record.unit.id ∈ fire.spent) ∧
      ∀ unit ∈ volley.units,
        0 < table.rollsOf unit.id ↔ battle.RollsIn rules supportRules volley unit := by
  intro fire hfire
  obtain ⟨volley, hvolley, table, values, htable, rfl⟩ := exists_rollOf_of_ok h hfire
  have hvolleyIds := nodup_ids_of_mem_volleys hids hvolley
  have hspent (id : Nat) : id ∈ volley.spent rules ↔
      ∃ unit ∈ volley.units, (unit.traits rules).suicide ∧ unit.id = id := by
    simp [Volley.spent, and_assoc]
  refine ⟨volley, hvolley, table, values, htable, rfl, ?_, hspent, ?_, ?_⟩
  · exact (List.filter_sublist.map _).nodup hvolleyIds
  · intro record hrecord hsuicide
    exact (hspent _).mpr ⟨_, unit_of_mem_records hvolley htable hrecord, hsuicide, rfl⟩
  · intro unit hunit
    exact rollsOf_pos_iff hvolleyIds hvolley htable hunit

/-- A rocket that is fired at aircraft and at nothing else. -/
def rocket (id : Nat) : Combatant :=
  let type : UnitType :=
    { name := "rocket"
      defenseRolls := 0
      antiAircraft := some { defense := 1 }
      isSuicide := true }
  { id, type, owner := { name := "Germans" } }

/-- Two rockets and a fighter. -/
def rocketBattery : Battle :=
  { attacker := { name := "British" }
    defender := { name := "Germans" }
    offense := [⟨0, { name := "fighter", attack := 3, isAir := true }, { name := "British" }⟩]
    defense := [rocket 1, rocket 2]
    context := { territory := "North Sea" } }

/-- Both rockets are spent on the fighter, and one of them rolls. -/
theorem spent_of_rocketBattery :
    ((rocketBattery.offense ++ rocketBattery.defense).map (·.id)).Nodup ∧ ∃ report,
      (rocketBattery.resolveRound {} [] ({ values := [4, 3] } : Script) []).outcome = .ok report ∧
      report.fires.map (fun fire => (fire.kind, fire.spent)) =
        [(.antiAircraft, [1, 2]), (.general, []), (.general, [1, 2])] ∧
      ∀ fire ∈ report.fires, fire.kind = .antiAircraft →
        ∃ volley ∈ rocketBattery.volleys {} [], fire.spent = volley.spent {} ∧
          rocketBattery.RollsIn {} [] volley (rocket 1) ∧
          ¬ rocketBattery.RollsIn {} [] volley (rocket 2) := by
  have hids : ((rocketBattery.offense ++ rocketBattery.defense).map (·.id)).Nodup := by decide
  have hshown : (rocketBattery.resolveRound {} [] ({ values := [4, 3] } : Script)
      []).outcome.toOption.map (fun report =>
        report.fires.map fun fire => (fire.kind, fire.spent)) =
      some [(.antiAircraft, [1, 2]), (.general, []), (.general, [1, 2])] := by
    decide +kernel
  have hflak : ∀ volley ∈ rocketBattery.volleys {} [], volley.kind = .antiAircraft →
      volley.units = [rocket 1, rocket 2] ∧
      volley.table.toOption.map (fun table => (table.rollsOf 1, table.rollsOf 2)) =
        some (1, 0) := by
    decide +kernel
  obtain ⟨report, hround, hshown⟩ := exists_ok_of_toOption_map hshown
  refine ⟨hids, report, hround, hshown, ?_⟩
  intro fire hfire hkind
  obtain ⟨volley, hvolley, table, values, htable, rfl, -, -, -, hrolls⟩ :=
    spent_of_fire rocketBattery {} [] hids _ [] report hround fire hfire
  obtain ⟨hunits, hrolled⟩ := hflak volley hvolley hkind
  rw [htable] at hrolled
  obtain ⟨hfirst, hsecond⟩ := Prod.mk.inj (Option.some.inj hrolled)
  refine ⟨volley, hvolley, rfl, ?_, ?_⟩
  · rw [← hrolls (rocket 1) (by simp [hunits]), show table.rollsOf (rocket 1).id = 1 from hfirst]
    decide
  · rw [← hrolls (rocket 2) (by simp [hunits]), show table.rollsOf (rocket 2).id = 0 from hsecond]
    decide

/-- A unit without rolls may be spent. -/
theorem not_rollsOf_pos :
    ¬ ∀ (battle : Battle) (rules : RuleSet) (supportRules : List SupportRule),
      ((battle.offense ++ battle.defense).map (·.id)).Nodup →
      ∀ {σ : Type} [DiceSource σ] (source : σ) (history : History) (report : RoundReport),
        (battle.resolveRound rules supportRules source history).outcome = .ok report →
        ∀ fire ∈ report.fires, ∀ id ∈ fire.spent,
          ∃ volley ∈ battle.volleys rules supportRules, volley.kind = fire.kind ∧
            ∃ table, volley.table = .ok table ∧ 0 < table.rollsOf id := by
  intro h
  have hshown : (rocketBattery.resolveRound {} [] ({ values := [4, 3] } : Script)
      []).outcome.toOption.map (fun report => report.fires.any fun fire =>
        fire.kind = .antiAircraft ∧ 2 ∈ fire.spent) = some true := by
    decide +kernel
  have hidle : ∀ volley ∈ rocketBattery.volleys {} [], volley.kind = .antiAircraft →
      volley.table.toOption.map (·.rollsOf 2) = some 0 := by
    decide +kernel
  obtain ⟨report, hround, hspent⟩ := exists_ok_of_toOption_map hshown
  obtain ⟨fire, hfire, hspent⟩ := List.any_eq_true.mp hspent
  obtain ⟨hkind, hid⟩ := of_decide_eq_true hspent
  obtain ⟨volley, hvolley, hsame, table, htable, hpos⟩ :=
    h rocketBattery {} [] (by decide) _ [] report hround fire hfire 2 hid
  have hzero := hidle volley hvolley (hsame.trans hkind)
  rw [htable] at hzero
  exact absurd (Option.some.inj hzero) (Int.ne_of_gt hpos)

end Battle

end Salvo
