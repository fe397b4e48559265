import Salvo.Proofs.Dice.Throwing
import Salvo.Proofs.Power.TargetCover
import Salvo.Round.Volley

/-! # Silent guns

Guns that share their targets fire only if their rolls add up to something. This sum wraps around:
guns that have rolls are silent if it is carried out of the range of amounts. As long as it is in
range, only guns without power are silent (`AntiAircraftFire.diceCount_of_silent`). -/

namespace Salvo

namespace AntiAircraftFire

variable {guns targets units : List Combatant} {side : Side} {rules : RuleSet}

/-- The rolls of all guns, also where they exceed the range of amounts. -/
def exactRolls (fire : AntiAircraftFire) : Int := (fire.table.values.map (·.rolls)).sum

theorem rolls_nonneg_of_mem_assign {limit remaining : Int} (hguns : ∀ gun ∈ guns, gun.isGun)
    (hlimit : 0 ≤ limit) (h : 0 ≤ remaining) :
    ∀ pair ∈ assign side rules limit remaining guns, 0 ≤ pair.2.rolls := by
  induction guns generalizing remaining with
  | nil => exact List.forall_mem_nil _
  | cons gun guns ih =>
    obtain ⟨hgun, hguns⟩ := List.forall_mem_cons.mp hguns
    rw [assign_cons_of_isGun hgun]
    exact List.forall_mem_cons.mpr
      ⟨gun.rollsAt_nonneg hlimit h, ih hguns (Combatant.uncovered_nonneg h)⟩

/-- No gun has less than no rolls, whatever ids the guns have. -/
theorem rolls_nonneg {targetCount : Nat} {values : CombatValues}
    (h : values ∈ (of units targetCount side rules).table.values) : 0 ≤ values.rolls := by
  obtain ⟨⟨id, values⟩, hentry, rfl⟩ := List.mem_map.mp h
  have hcount : 0 ≤ min (targetCount : Int) Amount.most := by
    simp only [Amount.most]
    omega
  exact rolls_nonneg_of_mem_assign (fun _ => isGun_of_mem_inOrder) hcount hcount _
    (ByUnit.mem_of_get?_ofList (ByUnit.mem_entries.mp hentry))

theorem exactRolls_nonneg (units : List Combatant) (targetCount : Nat) (side : Side)
    (rules : RuleSet) : 0 ≤ (of units targetCount side rules).exactRolls := by
  refine Amount.sum_nonneg fun rolls hrolls => ?_
  obtain ⟨values, hvalues, rfl⟩ := List.mem_map.mp hrolls
  exact rolls_nonneg hvalues

/-- Guns that are silent although their sum is in range have no rolls. -/
theorem rolls_eq_zero_of_silent {targetCount : Nat}
    (hsilent : (of units targetCount side rules).totalRolls ≤ 0)
    (hmost : (of units targetCount side rules).exactRolls ≤ Amount.most) (unit : Combatant) :
    ((of units targetCount side rules).calculator.values unit).rolls = 0 := by
  have hnonneg := exactRolls_nonneg units targetCount side rules
  have htotal : (of units targetCount side rules).totalRolls =
      (of units targetCount side rules).exactRolls :=
    (Amount.sum_eq_wrap _).trans (Amount.wrap_of_nonneg hnonneg hmost)
  cases hvalues : (of units targetCount side rules).table.get? unit.id with
  | none => exact congrArg (fun values => (values.getD ({} : CombatValues)).rolls) hvalues
  | some values =>
    have hmem : values ∈ (of units targetCount side rules).table.values :=
      List.mem_map_of_mem (ByUnit.mem_entries.mpr hvalues)
    have hle : values.rolls ≤ (of units targetCount side rules).exactRolls := by
      refine List.single_le_sum (fun rolls hrolls => ?_) _ (List.mem_map_of_mem hmem)
      obtain ⟨other, hother, rfl⟩ := List.mem_map.mp hrolls
      exact rolls_nonneg hother
    have hget : ((of units targetCount side rules).calculator.values unit).rolls = values.rolls :=
      congrArg (fun values => (values.getD ({} : CombatValues)).rolls) hvalues
    have hrolls := rolls_nonneg hmem
    omega

/-- Dice of guns have sides. -/
theorem sidesOf_pos_of_ne_nil (h : guns ≠ []) (rules : RuleSet) : 0 < sidesOf guns rules := by
  cases guns with
  | nil => exact absurd rfl h
  | cons gun guns => exact Int.lt_of_lt_of_le Int.one_pos (Int.le_max_left ..)

theorem isGun_of_mem_effectiveGuns {gun : Combatant} (h : gun ∈ effectiveGuns guns targets) :
    gun.isGun := by
  obtain ⟨target, -, htarget⟩ := List.any_eq_true.mp (List.mem_filter.mp h).2
  unfold UnitType.canTarget at htarget
  unfold Combatant.isGun
  cases hgun : gun.type.antiAircraft with
  | none => simp [hgun] at htarget
  | some => rfl

theorem exists_gunPower (guns targets : List Combatant) (side : Side) (rules : RuleSet) :
    ∃ table, gunPower guns targets side rules = .ok table := by
  refine ⟨_, if_neg ?_⟩
  rintro ⟨hsides, hfiring⟩
  cases hguns : effectiveGuns guns targets with
  | nil => simp [hguns] at hfiring
  | cons gun more =>
    have hgun : gun ∈ effectiveGuns guns targets := hguns ▸ List.mem_cons_self
    have hinOrder : gun ∈ inOrder (effectiveGuns guns targets) side :=
      mem_inOrder.mpr ⟨hgun, isGun_of_mem_effectiveGuns hgun⟩
    exact absurd hsides (Int.not_lt.mpr
      (Int.le_of_lt (sidesOf_pos_of_ne_nil (List.ne_nil_of_mem hinOrder) rules)))

/-- Guns that are silent although their sum is in range would have no dice if they were fired. -/
theorem diceCount_of_silent {table : PowerTable} (h : gunPower guns targets side rules = .ok table)
    (hsilent : (atTargets guns targets side rules).totalRolls ≤ 0)
    (hmost : (atTargets guns targets side rules).exactRolls ≤ Amount.most) (lowLuck : Bool) :
    table.diceCount lowLuck = 0 := by
  have hrange : table.InRange := PowerTable.inRange_of_build? h
  refine hrange.diceCount_of_no_power (fun hpower => ?_) lowLuck
  obtain ⟨record, hrecord, -, hrolls⟩ := hrange.totalPower_pos_iff.mp hpower
  obtain rfl := PowerTable.eq_build_of_build? h
  obtain ⟨unit, -, rfl⟩ := PowerTable.mem_records_build.mp hrecord
  have hzero := rolls_eq_zero_of_silent hsilent hmost unit
  have hrecordRolls : ((atTargets guns targets side rules).calculator.record unit).rolls =
      max 0 ((atTargets guns targets side rules).calculator.values unit).rolls := rfl
  rw [hrecordRolls, atTargets, hzero] at hrolls
  exact Int.lt_irrefl 0 hrolls

end AntiAircraftFire

end Salvo
