import Mathlib.Algebra.BigOperators.Group.List.Basic
import Mathlib.Algebra.Group.Int.Defs
import Mathlib.Data.List.Nodup
import Salvo.Power.AntiAircraftFire

/-! # Covered targets

Guns get their rolls one after the other, the strongest first, from what the stronger ones have left
of the targets. In closed form a gun gets its limit, cut down to the targets that the limits of the
guns before it do not cover (`AntiAircraftFire.assign_append`); guns that may over-stack get their
limit and leave the targets to the others.

So the rolls of a group depend on the limits of its guns only, and not on their order
(`AntiAircraftFire.rolls_capped`). -/

namespace Salvo

namespace Combatant

variable {unit : Combatant} {targets remaining : Int}

def isGun (unit : Combatant) : Bool := unit.type.antiAircraft.isSome

/-- The strength of a unit as a gun. -/
def gunStrength (unit : Combatant) (side : Side) : Int :=
  (unit.type.antiAircraftStrength? side).getD 0

/-- The rolls that a unit may make as a gun at a number of targets. -/
def rollLimit (unit : Combatant) (targets : Int) : Int :=
  (unit.type.antiAircraft.map (·.rollLimit targets)).getD 0

def overStacks (unit : Combatant) : Bool := unit.type.antiAircraft.any (·.mayOverStack)

/-- The rolls that a gun is given while `remaining` targets are uncovered. -/
def rollsAt (unit : Combatant) (targets remaining : Int) : Int :=
  if unit.overStacks then unit.rollLimit targets else min (unit.rollLimit targets) remaining

/-- The targets that are then still uncovered. -/
def uncovered (unit : Combatant) (targets remaining : Int) : Int :=
  if unit.overStacks then remaining else max 0 (remaining - unit.rollLimit targets)

/-- The values of a gun with so many rolls. -/
def gunValues (unit : Combatant) (side : Side) (rules : RuleSet) (rolls : Int) : CombatValues where
  base := unit.gunStrength side
  strength := unit.gunStrength side
  rolls := rolls
  keepsBest := (unit.traits rules).keepsBest

theorem rollLimit_nonneg (unit : Combatant) (h : 0 ≤ targets) : 0 ≤ unit.rollLimit targets := by
  unfold rollLimit AntiAircraft.rollLimit
  cases unit.type.antiAircraft with
  | none => exact Int.le_refl 0
  | some gun =>
    simp only [Option.map_some, Option.getD_some]
    split
    · exact Int.le_max_left ..
    · exact h

theorem rollsAt_nonneg (unit : Combatant) (htargets : 0 ≤ targets) (h : 0 ≤ remaining) :
    0 ≤ unit.rollsAt targets remaining := by
  have hlimit := unit.rollLimit_nonneg htargets
  unfold rollsAt
  split <;> omega

theorem uncovered_nonneg (h : 0 ≤ remaining) : 0 ≤ unit.uncovered targets remaining := by
  unfold uncovered
  split
  · exact h
  · exact Int.le_max_left ..

theorem rollLimit_of_not_isGun (h : ¬ unit.isGun) : unit.rollLimit targets = 0 := by
  rw [isGun, Option.not_isSome_iff_eq_none] at h
  rw [rollLimit, h]
  rfl

end Combatant

namespace AntiAircraftFire

variable {side : Side} {rules : RuleSet} {targets remaining : Int} {units guns : List Combatant}

/-- The limits of the units that may over-stack. -/
def ownLimits (targets : Int) (units : List Combatant) : Int :=
  ((units.filter (·.overStacks)).map (·.rollLimit targets)).sum

/-- The rolls of the units that share the targets. -/
def sharedRolls (units : List Combatant) (rolls : Combatant → Int) : Int :=
  ((units.filter (!·.overStacks)).map rolls).sum

/-- The limits of the units that share the targets. -/
def sharedLimits (targets : Int) (units : List Combatant) : Int :=
  sharedRolls units (·.rollLimit targets)

theorem ownLimits_cons (targets : Int) (unit : Combatant) (units : List Combatant) :
    ownLimits targets (unit :: units) =
      (if unit.overStacks then unit.rollLimit targets else 0) + ownLimits targets units :=
  Amount.sum_filter_cons ..

theorem sharedRolls_cons (unit : Combatant) (units : List Combatant) (rolls : Combatant → Int) :
    sharedRolls (unit :: units) rolls =
      (if unit.overStacks then 0 else rolls unit) + sharedRolls units rolls := by
  refine (Amount.sum_filter_cons ..).trans ?_
  cases unit.overStacks <;> rfl

theorem sharedLimits_cons (targets : Int) (unit : Combatant) (units : List Combatant) :
    sharedLimits targets (unit :: units) =
      (if unit.overStacks then 0 else unit.rollLimit targets) + sharedLimits targets units :=
  sharedRolls_cons ..

theorem sharedRolls_nonneg {rolls : Combatant → Int} (h : ∀ unit ∈ units, 0 ≤ rolls unit) :
    0 ≤ sharedRolls units rolls := by
  refine Amount.sum_nonneg fun x hx => ?_
  obtain ⟨unit, hunit, rfl⟩ := List.mem_map.mp hx
  exact h unit (List.mem_filter.mp hunit).1

theorem sharedLimits_nonneg (h : 0 ≤ targets) (units : List Combatant) :
    0 ≤ sharedLimits targets units :=
  sharedRolls_nonneg fun unit _ => unit.rollLimit_nonneg h

theorem ownLimits_perm {other : List Combatant} (h : other.Perm units) (targets : Int) :
    ownLimits targets other = ownLimits targets units :=
  ((h.filter _).map _).sum_eq

theorem sharedRolls_perm {other : List Combatant} (h : other.Perm units)
    (rolls : Combatant → Int) : sharedRolls other rolls = sharedRolls units rolls :=
  ((h.filter _).map _).sum_eq

/-! ## The guns of a roster -/

theorem perm_inOrder (units : List Combatant) (side : Side) :
    (inOrder units side).Perm (units.filter (·.isGun)) :=
  perm_sortOn ..

theorem mem_inOrder {gun : Combatant} : gun ∈ inOrder units side ↔ gun ∈ units ∧ gun.isGun :=
  (perm_inOrder units side).mem_iff.trans List.mem_filter

theorem isGun_of_mem_inOrder {gun : Combatant} (h : gun ∈ inOrder units side) : gun.isGun :=
  (mem_inOrder.mp h).2

theorem nodup_inOrder (hids : (units.map (·.id)).Nodup) (side : Side) :
    ((inOrder units side).map (·.id)).Nodup :=
  ((perm_inOrder units side).map _).nodup_iff.mpr (hids.sublist (List.filter_sublist.map _))

theorem pairwise_inOrder (units : List Combatant) (side : Side) :
    (inOrder units side).Pairwise fun gun next => next.gunStrength side ≤ gun.gunStrength side :=
  (pairwise_sortOn (fun gun : Combatant => -gun.gunStrength side) _).imp Int.neg_le_neg_iff.mp

theorem filter_inOrder (p : Combatant → Bool) (units : List Combatant) (side : Side) :
    (inOrder units side).filter p = inOrder (units.filter p) side := by
  rw [inOrder, sortStrongestFirst, filter_sortOn, List.filter_comm]
  rfl

/-- What only guns have comes to the same over the guns as over the roster. -/
theorem sum_inOrder {f : Combatant → Int} (h : ∀ unit ∈ units, ¬ unit.isGun → f unit = 0)
    (side : Side) : ((inOrder units side).map f).sum = (units.map f).sum := by
  rw [((perm_inOrder units side).map f).sum_eq]
  induction units with
  | nil => rfl
  | cons unit units ih =>
    obtain ⟨hunit, hunits⟩ := List.forall_mem_cons.mp h
    rw [List.filter_cons, List.map_cons, List.sum_cons]
    split
    · rw [List.map_cons, List.sum_cons, ih hunits]
    · rename_i hgun
      rw [ih hunits, hunit hgun, Int.zero_add]

theorem ownLimits_inOrder (targets : Int) (units : List Combatant) (side : Side) :
    ownLimits targets (inOrder units side) = ownLimits targets units := by
  rw [ownLimits, filter_inOrder, sum_inOrder fun _ _ => Combatant.rollLimit_of_not_isGun, ownLimits]

theorem sharedRolls_inOrder {rolls : Combatant → Int}
    (h : ∀ unit ∈ units, ¬ unit.isGun → rolls unit = 0) (side : Side) :
    sharedRolls (inOrder units side) rolls = sharedRolls units rolls := by
  rw [sharedRolls, filter_inOrder,
    sum_inOrder fun unit hunit => h unit (List.mem_filter.mp hunit).1, sharedRolls]

theorem sharedLimits_inOrder (targets : Int) (units : List Combatant) (side : Side) :
    sharedLimits targets (inOrder units side) = sharedLimits targets units :=
  sharedRolls_inOrder (fun _ _ => Combatant.rollLimit_of_not_isGun) side

/-- The guns stand in the order of the stable merge sort. -/
theorem inOrder_eq_mergeSort (units : List Combatant) (side : Side) :
    inOrder units side =
      (units.filter (·.isGun)).mergeSort fun gun other =>
        other.gunStrength side ≤ gun.gunStrength side := by
  refine (sortOn_eq_mergeSort ..).trans ?_
  simp only [Int.neg_le_neg_iff]
  rfl

/-! ## One gun after the other -/

theorem assign_cons_of_isGun {gun : Combatant} (hgun : gun.isGun) :
    assign side rules targets remaining (gun :: guns) =
      (gun.id, gun.gunValues side rules (gun.rollsAt targets remaining)) ::
        assign side rules targets (gun.uncovered targets remaining) guns := by
  obtain ⟨aa, haa⟩ := Option.isSome_iff_exists.mp hgun
  have hleft (limit : Int) : remaining - min limit remaining = max 0 (remaining - limit) := by
    omega
  simp only [assign, haa, Combatant.gunValues, Combatant.gunStrength, Combatant.rollsAt,
    Combatant.uncovered, Combatant.rollLimit, Combatant.overStacks, UnitType.antiAircraftStrength?,
    Option.map_some, Option.getD_some, Option.any_some]
  cases aa.mayOverStack with
  | true => rfl
  | false => simp only [Bool.false_eq_true, if_false, hleft]

/-- What guns leave of the targets is what their limits do not cover. -/
theorem assign_append {before : List Combatant} (hguns : ∀ gun ∈ before, gun.isGun)
    (htargets : 0 ≤ targets) (h : 0 ≤ remaining) (after : List Combatant) :
    assign side rules targets remaining (before ++ after) =
      assign side rules targets remaining before ++
        assign side rules targets (max 0 (remaining - sharedLimits targets before)) after := by
  induction before generalizing remaining with
  | nil =>
    have hall : max 0 (remaining - 0) = remaining := by omega
    exact congrArg (assign side rules targets · after) hall.symm
  | cons gun before ih =>
    obtain ⟨hgun, hbefore⟩ := List.forall_mem_cons.mp hguns
    have hshared := sharedLimits_nonneg htargets before
    have hlimit := gun.rollLimit_nonneg htargets
    have hleft : max 0 (gun.uncovered targets remaining - sharedLimits targets before) =
        max 0 (remaining - sharedLimits targets (gun :: before)) := by
      rw [sharedLimits_cons, Combatant.uncovered]
      split <;> omega
    rw [List.cons_append, assign_cons_of_isGun hgun, assign_cons_of_isGun hgun,
      ih hbefore (Combatant.uncovered_nonneg h), hleft, List.cons_append]

theorem ids_assign (hguns : ∀ gun ∈ guns, gun.isGun) :
    (assign side rules targets remaining guns).map (·.1) = guns.map (·.id) := by
  induction guns generalizing remaining with
  | nil => rfl
  | cons gun guns ih =>
    obtain ⟨hgun, hguns⟩ := List.forall_mem_cons.mp hguns
    rw [assign_cons_of_isGun hgun, List.map_cons, List.map_cons, ih hguns]

/-- Guns have all the rolls that over-stack, and of the others as many as there are targets. -/
theorem sum_rolls_assign (hguns : ∀ gun ∈ guns, gun.isGun) (htargets : 0 ≤ targets)
    (h : 0 ≤ remaining) :
    ((assign side rules targets remaining guns).map (·.2.rolls)).sum =
      ownLimits targets guns + min remaining (sharedLimits targets guns) := by
  induction guns generalizing remaining with
  | nil =>
    have hnone : min remaining 0 = 0 := by omega
    exact ((Int.zero_add _).trans hnone).symm
  | cons gun guns ih =>
    obtain ⟨hgun, hguns⟩ := List.forall_mem_cons.mp hguns
    have hshared := sharedLimits_nonneg htargets guns
    have hlimit := gun.rollLimit_nonneg htargets
    rw [assign_cons_of_isGun hgun, List.map_cons, List.sum_cons,
      ih hguns (Combatant.uncovered_nonneg h), ownLimits_cons, sharedLimits_cons]
    simp only [Combatant.gunValues, Combatant.rollsAt, Combatant.uncovered]
    split <;> omega

theorem sum_rolls_assign_inOrder (targetCount : Nat) (units : List Combatant) (side : Side)
    (rules : RuleSet) :
    ((assign side rules targetCount targetCount (inOrder units side)).map (·.2.rolls)).sum =
      ownLimits targetCount units + min ↑targetCount (sharedLimits targetCount units) := by
  have hcount := Int.natCast_nonneg targetCount
  refine (sum_rolls_assign (fun _ => isGun_of_mem_inOrder) hcount hcount).trans ?_
  rw [ownLimits_inOrder, sharedLimits_inOrder]

/-! ## The fire of a roster -/

section Roster

variable (hids : (units.map (·.id)).Nodup) {targetCount : Nat}
  (htargets : (targetCount : Int) ≤ Amount.most) (side : Side) (rules : RuleSet)
include hids htargets

/-- The table has the values given to the guns, and nothing else. -/
theorem exists_table_of :
    ∃ pairs, (of units targetCount side rules).table = ByUnit.ofList pairs ∧
      pairs = assign side rules targetCount targetCount (inOrder units side) ∧
      (pairs.map (·.1)).Nodup := by
  have hguns : ∀ gun ∈ inOrder units side, gun.isGun := fun _ => isGun_of_mem_inOrder
  refine ⟨_, ?_, rfl, ?_⟩
  · rw [of, Int.min_eq_left htargets]
  · rw [ids_assign hguns]
    exact nodup_inOrder hids side

theorem values_of {before after : List Combatant} {gun : Combatant}
    (h : inOrder units side = before ++ gun :: after) :
    (of units targetCount side rules).calculator.values gun =
      gun.gunValues side rules
        (gun.rollsAt targetCount (max 0 (targetCount - sharedLimits targetCount before))) := by
  have hguns : ∀ other ∈ before ++ gun :: after, other.isGun :=
    h ▸ fun _ => isGun_of_mem_inOrder
  obtain ⟨hbefore, hguns⟩ := List.forall_mem_append.mp hguns
  have hcount := Int.natCast_nonneg targetCount
  obtain ⟨pairs, htable, hpairs, hnodup⟩ := exists_table_of hids htargets side rules
  rw [h, assign_append hbefore hcount hcount,
    assign_cons_of_isGun (hguns gun List.mem_cons_self)] at hpairs
  have hmem := hpairs ▸ List.mem_append_right _ List.mem_cons_self
  have hget : (of units targetCount side rules).table.get? gun.id = some _ :=
    htable ▸ ByUnit.get?_ofList hnodup hmem
  exact congrArg (·.getD {}) hget

theorem map_values_inOrder :
    (inOrder units side).map (of units targetCount side rules).calculator.values =
      (assign side rules targetCount targetCount (inOrder units side)).map (·.2) := by
  obtain ⟨pairs, htable, hpairs, hnodup⟩ := exists_table_of hids htargets side rules
  have hguns : ∀ gun ∈ inOrder units side, gun.isGun := fun _ => isGun_of_mem_inOrder
  have hget : pairs.map (fun pair => ((ByUnit.ofList pairs).get? pair.1).getD {}) =
      pairs.map (·.2) :=
    List.map_congr_left fun _ hpair => congrArg (·.getD {}) (ByUnit.get?_ofList hnodup hpair)
  have hkeys : pairs.map (·.1) = (inOrder units side).map (·.id) := hpairs ▸ ids_assign hguns
  rw [← hpairs, ← hget]
  calc (inOrder units side).map (of units targetCount side rules).calculator.values
    _ = ((inOrder units side).map (·.id)).map fun id =>
          ((of units targetCount side rules).table.get? id).getD {} := by
      rw [List.map_map]
      rfl
    _ = pairs.map fun pair => ((ByUnit.ofList pairs).get? pair.1).getD {} := by
      rw [← hkeys, htable, List.map_map]
      rfl

/-- Units that are no guns have no part in the fire. -/
theorem values_of_not_isGun {unit : Combatant} (hunit : unit ∈ units) (hgun : ¬ unit.isGun) :
    (of units targetCount side rules).calculator.values unit = {} := by
  obtain ⟨pairs, htable, hpairs, -⟩ := exists_table_of hids htargets side rules
  have hguns : ∀ gun ∈ inOrder units side, gun.isGun := fun _ => isGun_of_mem_inOrder
  have hget : (of units targetCount side rules).table.get? unit.id = none := by
    refine Option.eq_none_iff_forall_ne_some.mpr fun values hvalues => hgun ?_
    rw [htable] at hvalues
    have hid : unit.id ∈ (inOrder units side).map (·.id) :=
      ids_assign hguns ▸ hpairs ▸ List.mem_map_of_mem (ByUnit.mem_of_get?_ofList hvalues)
    obtain ⟨gun, hmem, hsame⟩ := List.mem_map.mp hid
    exact List.inj_on_of_nodup_map hids (mem_inOrder.mp hmem).1 hunit hsame ▸ hguns gun hmem
  exact congrArg (·.getD {}) hget

/-- A sum over the values on the roster is one over those given to the guns. -/
theorem sum_values {f : CombatValues → Int} (hf : f {} = 0) :
    (units.map fun unit => f ((of units targetCount side rules).calculator.values unit)).sum =
      ((assign side rules targetCount targetCount (inOrder units side)).map (f ·.2)).sum := by
  have hnone : ∀ unit ∈ units, ¬ unit.isGun →
      f ((of units targetCount side rules).calculator.values unit) = 0 := by
    intro unit hunit hgun
    rw [values_of_not_isGun hids htargets side rules hunit hgun, hf]
  have hvalues := congrArg (List.map f) (map_values_inOrder hids htargets side rules)
  rw [List.map_map, List.map_map] at hvalues
  rw [← sum_inOrder hnone side]
  exact congrArg List.sum hvalues

theorem totalRolls_of :
    (of units targetCount side rules).totalRolls =
      Amount.wrap
        (ownLimits targetCount units + min ↑targetCount (sharedLimits targetCount units)) := by
  obtain ⟨pairs, htable, hpairs, hnodup⟩ := exists_table_of hids htargets side rules
  rw [totalRolls, Amount.sum_eq_wrap, htable, ByUnit.values, List.map_map,
    ((ByUnit.perm_entries_ofList hnodup).map _).sum_eq, hpairs]
  exact congrArg Amount.wrap (sum_rolls_assign_inOrder targetCount units side rules)

end Roster

theorem ownLimits_nonneg (h : 0 ≤ targets) (units : List Combatant) : 0 ≤ ownLimits targets units := by
  refine Amount.sum_nonneg fun x hx => ?_
  obtain ⟨unit, -, rfl⟩ := List.mem_map.mp hx
  exact unit.rollLimit_nonneg h

end AntiAircraftFire

end Salvo
