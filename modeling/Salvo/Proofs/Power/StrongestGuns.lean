import Mathlib.Data.List.Nodup
import Mathlib.Order.Bounds.Defs
import Salvo.Proofs.Power.Range
import Salvo.Proofs.Power.TargetCover

/-! # The strongest guns first

Rolls are handed to the strongest guns first, and no other way to hand them out is worth more: this
is `AntiAircraftFire.power_isGreatest`. It is proved gun by gun (`worth_le_assign`). Where another
assignment gives the strongest gun fewer rolls, it has some to spare for the guns behind it, and
there each of them is worth no more than it was worth in front. The spare rolls are carried along,
valued by the last gun that was passed.

The order of the guns on the roster is then without effect on the power of the group, as long as it
is without effect on its dice. Guns of one strength with different dice are rolled with the dice of
the first one (`power_of_mixed_dice`). -/

namespace Salvo

namespace Combatant

variable {unit other : Combatant} {side : Side} {sides : Int}

/-- What a roll of a unit is worth as a gun: its strength, brought into the range of the dice. -/
def rollWorth (unit : Combatant) (side : Side) (sides : Int) : Int :=
  max 0 (min sides (unit.gunStrength side))

theorem rollWorth_nonneg (unit : Combatant) (side : Side) (sides : Int) :
    0 ≤ unit.rollWorth side sides :=
  Int.le_max_left ..

theorem rollWorth_mono (h : unit.gunStrength side ≤ other.gunStrength side) (sides : Int) :
    unit.rollWorth side sides ≤ other.rollWorth side sides := by
  unfold rollWorth
  omega

theorem gunStrength_of_not_isGun (h : ¬ unit.isGun) : unit.gunStrength side = 0 := by
  rw [isGun, Option.not_isSome_iff_eq_none] at h
  rw [gunStrength, UnitType.antiAircraftStrength?, h]
  rfl

theorem rollsAt_le (unit : Combatant) (targets remaining : Int) :
    unit.rollsAt targets remaining ≤ unit.rollLimit targets := by
  unfold rollsAt
  split <;> omega

end Combatant

namespace AntiAircraftFire

/-- Rolls that keep the limits of the units. -/
structure WithinLimits (targets : Int) (units : List Combatant) (rolls : Combatant → Int) :
    Prop where
  nonneg : ∀ unit ∈ units, 0 ≤ rolls unit
  le_limit : ∀ unit ∈ units, rolls unit ≤ unit.rollLimit targets

/-- Rolls that keep the limits, and the number of targets where these are shared. -/
structure Feasible (targets : Int) (units : List Combatant) (rolls : Combatant → Int) : Prop
    extends WithinLimits targets units rolls where
  shared_le : sharedRolls units rolls ≤ targets

/-- What rolls are worth on a roster. -/
def worth (side : Side) (sides : Int) (units : List Combatant) (rolls : Combatant → Int) : Int :=
  (units.map fun unit => unit.rollWorth side sides * rolls unit).sum

variable {side : Side} {rules : RuleSet} {sides targets remaining : Int}
  {units guns : List Combatant} {other : Combatant → Int}

theorem WithinLimits.of_cons {unit : Combatant} (h : WithinLimits targets (unit :: units) other) :
    WithinLimits targets units other where
  nonneg := (List.forall_mem_cons.mp h.nonneg).2
  le_limit := (List.forall_mem_cons.mp h.le_limit).2

theorem Feasible.perm {roster : List Combatant} (h : Feasible targets units other)
    (hperm : roster.Perm units) : Feasible targets roster other where
  nonneg unit hunit := h.nonneg unit (hperm.mem_iff.mp hunit)
  le_limit unit hunit := h.le_limit unit (hperm.mem_iff.mp hunit)
  shared_le := sharedRolls_perm hperm other ▸ h.shared_le

theorem worth_perm {roster : List Combatant} (hperm : roster.Perm units) (side : Side)
    (sides : Int) (rolls : Combatant → Int) :
    worth side sides roster rolls = worth side sides units rolls :=
  (hperm.map _).sum_eq

/-- What the values of a gun are worth in all. -/
def worthOf (sides : Int) (values : CombatValues) : Int :=
  max 0 (min sides values.strength) * values.rolls

/-- Rolls within the limits are worth no more than those assigned, apart from the `extra` rolls that
they have for guns that share the targets. A roll is worth at most `bound`. -/
theorem worth_le_assign (rules : RuleSet) (hguns : ∀ gun ∈ guns, gun.isGun)
    (hsorted : guns.Pairwise fun gun next => next.gunStrength side ≤ gun.gunStrength side)
    (hother : WithinLimits targets guns other) {bound extra : Int} (hremaining : 0 ≤ remaining)
    (hextra : 0 ≤ extra) (hpositive : 0 ≤ bound)
    (hbound : ∀ gun ∈ guns, gun.rollWorth side sides ≤ bound)
    (hshared : sharedRolls guns other ≤ remaining + extra) :
    worth side sides guns other ≤
      ((assign side rules targets remaining guns).map (worthOf sides ·.2)).sum +
        bound * extra := by
  induction guns generalizing remaining bound extra with
  | nil =>
    have hspare := Int.mul_nonneg hpositive hextra
    exact Int.le_trans hspare (Int.le_of_eq (Int.zero_add _).symm)
  | cons gun guns ih =>
    obtain ⟨hgun, hguns⟩ := List.forall_mem_cons.mp hguns
    obtain ⟨hweaker, hsorted⟩ := List.pairwise_cons.mp hsorted
    obtain ⟨hgunBound, hbound⟩ := List.forall_mem_cons.mp hbound
    have hnonneg := hother.nonneg gun List.mem_cons_self
    have hlimit := hother.le_limit gun List.mem_cons_self
    have hworth := gun.rollWorth_nonneg side sides
    have hrest := sharedRolls_nonneg hother.of_cons.nonneg
    have hown : worthOf sides (gun.gunValues side rules (gun.rollsAt targets remaining)) =
      gun.rollWorth side sides * gun.rollsAt targets remaining := rfl
    rw [sharedRolls_cons] at hshared
    rw [assign_cons_of_isGun hgun, List.map_cons, List.sum_cons, worth, List.map_cons,
      List.sum_cons, hown]
    by_cases hover : gun.overStacks
    · rw [if_pos hover] at hshared
      rw [Combatant.rollsAt, if_pos hover, Combatant.uncovered, if_pos hover]
      have hgain := Int.mul_le_mul_of_nonneg_left hlimit hworth
      have hothers := ih hguns hsorted hother.of_cons hremaining hextra hpositive hbound (by omega)
      unfold worth at hothers
      omega
    · rw [if_neg hover] at hshared
      rw [Combatant.rollsAt, if_neg hover, Combatant.uncovered, if_neg hover]
      have hothers : worth side sides guns other ≤
          ((assign side rules targets (max 0 (remaining - gun.rollLimit targets)) guns).map
            (worthOf sides ·.2)).sum +
          gun.rollWorth side sides *
            (extra + min (gun.rollLimit targets) remaining - other gun) :=
        ih hguns hsorted hother.of_cons (Int.le_max_left ..) (by omega) hworth
          (fun next hnext => Combatant.rollWorth_mono (hweaker next hnext) sides) (by omega)
      have hspare := Int.mul_le_mul_of_nonneg_right hgunBound hextra
      rw [Int.mul_sub, Int.mul_add] at hothers
      unfold worth at hothers
      omega

/-! ## The fire of a roster -/

/-- The rolls that a unit has been given. -/
def rolls (fire : AntiAircraftFire) (unit : Combatant) : Int := (fire.calculator.values unit).rolls

section Roster

variable (hids : (units.map (·.id)).Nodup) {targetCount : Nat}
  (htargets : (targetCount : Int) ≤ Amount.most) (side : Side) (rules : RuleSet)
include hids htargets

/-- A unit fires with its strength as a gun, and with the rolls that some number of targets gives
it. -/
theorem exists_rollsAt {unit : Combatant} (hunit : unit ∈ units) :
    let values := (of units targetCount side rules).calculator.values unit
    values.strength = unit.gunStrength side ∧
      (values.keepsBest → (unit.traits rules).keepsBest) ∧
      ∃ remaining, 0 ≤ remaining ∧ values.rolls = unit.rollsAt targetCount remaining := by
  by_cases hgun : unit.isGun
  · obtain ⟨before, after, h⟩ := List.append_of_mem (mem_inOrder.mpr ⟨hunit, hgun⟩)
    rw [values_of hids htargets side rules h]
    exact ⟨rfl, id, _, Int.le_max_left .., rfl⟩
  · have hnone : unit.rollsAt targetCount 0 = 0 := by
      rw [Combatant.rollsAt, Combatant.rollLimit_of_not_isGun hgun]
      exact ite_self 0
    rw [values_of_not_isGun hids htargets side rules hunit hgun]
    exact ⟨(Combatant.gunStrength_of_not_isGun hgun).symm, (absurd · Bool.false_ne_true), 0,
      Int.le_refl 0, hnone.symm⟩

theorem withinLimits_rolls :
    WithinLimits targetCount units (of units targetCount side rules).rolls where
  nonneg unit hunit := by
    obtain ⟨-, -, remaining, hremaining, hrolls⟩ := exists_rollsAt hids htargets side rules hunit
    rw [rolls, hrolls]
    exact unit.rollsAt_nonneg (Int.natCast_nonneg _) hremaining
  le_limit unit hunit := by
    obtain ⟨-, -, remaining, -, hrolls⟩ := exists_rollsAt hids htargets side rules hunit
    rw [rolls, hrolls]
    exact unit.rollsAt_le ..

theorem sum_rolls :
    (units.map (of units targetCount side rules).rolls).sum =
      ownLimits targetCount units + min ↑targetCount (sharedLimits targetCount units) :=
  (sum_values hids htargets side rules rfl).trans
    (sum_rolls_assign_inOrder targetCount units side rules)

theorem feasible_rolls : Feasible targetCount units (of units targetCount side rules).rolls where
  toWithinLimits := withinLimits_rolls hids htargets side rules
  shared_le := by
    have hown : ((units.filter (·.overStacks)).map (of units targetCount side rules).rolls).sum =
        ownLimits targetCount units := by
      refine congrArg List.sum (List.map_congr_left fun unit hunit => ?_)
      obtain ⟨hmem, hover⟩ := List.mem_filter.mp hunit
      obtain ⟨-, -, remaining, -, hrolls⟩ := exists_rollsAt hids htargets side rules hmem
      rw [rolls, hrolls, Combatant.rollsAt, if_pos hover]
    have hsum := ((List.filter_append_perm (·.overStacks) units).map
      (of units targetCount side rules).rolls).sum_eq
    rw [List.map_append, List.sum_append, hown, sum_rolls hids htargets] at hsum
    unfold sharedRolls
    omega

theorem worth_rolls (sides : Int) :
    worth side sides units (of units targetCount side rules).rolls =
      ((assign side rules targetCount targetCount (inOrder units side)).map
        (worthOf sides ·.2)).sum := by
  refine Eq.trans ?_ (sum_values hids htargets side rules (Int.mul_zero _))
  refine congrArg List.sum (List.map_congr_left fun unit hunit => ?_)
  obtain ⟨hstrength, -⟩ := exists_rollsAt hids htargets side rules hunit
  rw [Combatant.rollWorth, ← hstrength]
  rfl

/-- No feasible rolls are worth more than those that the guns are given. -/
theorem worth_le_rolls (sides : Int) (h : Feasible targetCount units other) :
    worth side sides units other ≤
      worth side sides units (of units targetCount side rules).rolls := by
  have hnone : ∀ unit ∈ units, ¬ unit.isGun → other unit = 0 := by
    intro unit hunit hgun
    have hlimit := h.le_limit unit hunit
    rw [Combatant.rollLimit_of_not_isGun hgun] at hlimit
    exact Int.le_antisymm hlimit (h.nonneg unit hunit)
  have hlimits : WithinLimits targetCount (inOrder units side) other :=
    ⟨fun gun hgun => h.nonneg gun (mem_inOrder.mp hgun).1,
      fun gun hgun => h.le_limit gun (mem_inOrder.mp hgun).1⟩
  have hshared : sharedRolls (inOrder units side) other ≤ targetCount + 0 := by
    rw [sharedRolls_inOrder hnone, Int.add_zero]
    exact h.shared_le
  have hbound : ∀ gun ∈ inOrder units side, gun.rollWorth side sides ≤ max 0 sides := by
    intro gun _
    unfold Combatant.rollWorth
    omega
  have hworth : worth side sides (inOrder units side) other = worth side sides units other :=
    sum_inOrder (fun unit hunit hgun => by rw [hnone unit hunit hgun, Int.mul_zero]) side
  have hbest := worth_le_assign rules (fun _ => isGun_of_mem_inOrder) (pairwise_inOrder units side)
    hlimits (Int.natCast_nonneg targetCount) (Int.le_refl 0) (Int.le_max_left ..) hbound hshared
  rwa [hworth, Int.mul_zero, Int.add_zero, ← worth_rolls hids htargets] at hbest

theorem worth_rolls_le_of_perm {roster : List Combatant} (hperm : roster.Perm units)
    (sides : Int) :
    worth side sides roster (of roster targetCount side rules).rolls ≤
      worth side sides units (of units targetCount side rules).rolls := by
  have hroster : (roster.map (·.id)).Nodup := (hperm.map _).nodup_iff.mpr hids
  have hgiven := feasible_rolls hroster htargets side rules
  rw [worth_perm hperm]
  exact worth_le_rolls hids htargets side rules sides (hgiven.perm hperm.symm)

/-- The strengths and rolls on record are those of the guns. -/
theorem sum_records_build :
    ((PowerTable.build units (of units targetCount side rules).calculator).records.map
        fun record => record.strength * record.rolls).sum =
      worth side (of units targetCount side rules).diceSides units
        (of units targetCount side rules).rolls := by
  have hlimits := withinLimits_rolls hids htargets side rules
  rw [((PowerTable.perm_records_build units _).map _).sum_eq, List.map_map]
  refine congrArg List.sum (List.map_congr_left fun unit hunit => ?_)
  obtain ⟨hstrength, -⟩ := exists_rollsAt hids htargets side rules hunit
  have hrolls : max 0 ((of units targetCount side rules).rolls unit) =
      (of units targetCount side rules).rolls unit :=
    Int.max_eq_right (hlimits.nonneg unit hunit)
  rw [Combatant.rollWorth, ← hstrength, ← hrolls]
  rfl

/-- Where no gun keeps its best die, the power of the group is what the rolls are worth. -/
theorem totalPower_of (hbest : ∀ unit ∈ units, (unit.traits rules).keepsBest = false)
    (hmost : worth side (of units targetCount side rules).diceSides units
      (of units targetCount side rules).rolls ≤ Amount.most) :
    (PowerTable.build units (of units targetCount side rules).calculator).totalPower =
      worth side (of units targetCount side rules).diceSides units
        (of units targetCount side rules).rolls := by
  have hrange := PowerTable.inRange_build units (of units targetCount side rules).calculator
  have hsum := sum_records_build hids htargets side rules
  rw [← hsum] at hmost ⊢
  refine hrange.totalPower_eq_sum (fun record hrecord => ?_) (fun record hrecord => ?_) hmost
  · have hown := hrange record hrecord
    exact Int.mul_nonneg hown.strength_nonneg hown.rolls_nonneg
  · refine (hrange record hrecord).power_eq_mul fun hkeeps => ?_
    obtain ⟨unit, hmem, rfl⟩ := List.mem_map.mp hrecord
    have hunit := mem_sortOn.mp hmem
    obtain ⟨-, htrait, -⟩ := exists_rollsAt hids htargets side rules hunit
    rw [hbest unit hunit] at htrait
    exact Bool.false_ne_true (htrait hkeeps.1)

end Roster

/-- Of all rolls that keep the limits of the guns and the number of targets, those that the guns are
given are worth the most. So where no gun keeps its best die and the power is in range, it is the
greatest that the guns can have, and the order of the roster is without effect on it as long as it
is without effect on the dice. -/
theorem power_isGreatest (units : List Combatant) (hids : (units.map (·.id)).Nodup)
    (targetCount : Nat) (htargets : (targetCount : Int) ≤ Amount.most) (side : Side)
    (rules : RuleSet) :
    let fire := of units targetCount side rules
    let worthOn (rolls : Combatant → Int) : Int := worth side fire.diceSides units rolls
    (∀ other, Feasible targetCount units other → worthOn other ≤ worthOn fire.rolls) ∧
      ((∀ unit ∈ units, (unit.traits rules).keepsBest = false) →
        worthOn fire.rolls ≤ Amount.most →
        IsGreatest {power | ∃ other, Feasible targetCount units other ∧ power = worthOn other}
          (PowerTable.build units fire.calculator).totalPower ∧
        ∀ roster, roster.Perm units →
          (of roster targetCount side rules).diceSides = fire.diceSides →
          (PowerTable.build roster (of roster targetCount side rules).calculator).totalPower =
            (PowerTable.build units fire.calculator).totalPower) := by
  intro fire worthOn
  have hmax : ∀ other, Feasible targetCount units other → worthOn other ≤ worthOn fire.rolls :=
    fun other h => worth_le_rolls hids htargets side rules fire.diceSides h
  refine ⟨hmax, fun hbest hmost => ?_⟩
  have hpower : (PowerTable.build units fire.calculator).totalPower = worthOn fire.rolls :=
    totalPower_of hids htargets side rules hbest hmost
  refine ⟨⟨⟨fire.rolls, feasible_rolls hids htargets side rules, hpower⟩, ?_⟩, ?_⟩
  · rintro _ ⟨other, hother, rfl⟩
    exact hpower ▸ hmax other hother
  · intro roster hperm hsides
    have hroster : (roster.map (·.id)).Nodup := (hperm.map _).nodup_iff.mpr hids
    have hworth : worth side (of roster targetCount side rules).diceSides roster
        (of roster targetCount side rules).rolls = worthOn fire.rolls := by
      rw [hsides]
      exact Int.le_antisymm (worth_rolls_le_of_perm hids htargets side rules hperm _)
        (worth_rolls_le_of_perm hroster htargets side rules hperm.symm _)
    have hbestRoster : ∀ unit ∈ roster, (unit.traits rules).keepsBest = false := fun unit hunit =>
      hbest unit (hperm.mem_iff.mp hunit)
    rw [totalPower_of hroster htargets side rules hbestRoster (hworth ▸ hmost), hworth, hpower]

/-- Three aircraft over a strong battery of two rolls and a weak one of three: the strong one fires
twice, the weak one once, and the power is the same in either order. -/
theorem power_isGreatest_of_batteries :
    let gun (id : Nat) (defense rolls : Int) : Combatant :=
      ⟨id, { name := "gun", antiAircraft := some { defense, maxRolls := some rolls } },
        { name := "Germans" }⟩
    let units := [gun 0 1 3, gun 1 3 2]
    let fire := of units 3 .defense {}
    let power (units : List Combatant) : Int :=
      (PowerTable.build units (of units 3 .defense {}).calculator).totalPower
    let others (unit : Combatant) : Int := if unit.id = 0 then 2 else 1
    worth .defense fire.diceSides units others ≤ 7 ∧ power units = 7 ∧ power units.reverse = 7 := by
  intro gun units fire power others
  have hothers : Feasible 3 units others := by
    refine ⟨⟨?_, ?_⟩, ?_⟩ <;> decide
  have hworth : worth .defense fire.diceSides units fire.rolls = 7 := by decide
  have hseven : power units = 7 := by decide
  obtain ⟨hmax, hpower⟩ := power_isGreatest units (by decide) 3 (by decide) .defense {}
  obtain ⟨-, horder⟩ := hpower (by decide) (by decide)
  refine ⟨hworth ▸ hmax others hothers, hseven, ?_⟩
  exact (horder units.reverse (List.reverse_perm units) (by decide)).trans hseven

/-- Guns of equal strength with different dice: the first on the roster decides the dice, and with
them the power of the two. -/
theorem power_of_mixed_dice :
    let gun (id : Nat) (sides : Int) : Combatant :=
      ⟨id, { name := "gun",
             antiAircraft := some { defense := 8, maxRolls := some 1, diceSides := some sides } },
        { name := "Germans" }⟩
    let units := [gun 0 6, gun 1 12]
    let roster := [gun 1 12, gun 0 6]
    let power (units : List Combatant) : Int :=
      (PowerTable.build units (of units 1 .defense {}).calculator).totalPower
    roster.Perm units ∧ (units.map (·.id)).Nodup ∧
      (of units 1 .defense {}).diceSides = 6 ∧ (of roster 1 .defense {}).diceSides = 12 ∧
      (∀ unit ∈ units, (unit.traits {}).keepsBest = false) ∧
      power units = 6 ∧ power roster = 8 := by
  decide

end AntiAircraftFire

end Salvo
