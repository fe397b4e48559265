import Mathlib.Data.List.Perm.Subperm
import Salvo.Proofs.Round.AfterFlak
import Salvo.Proofs.Round.FlakTargets
import Salvo.Proofs.Round.SupportInRound

/-! # Who takes part in a round

A round fires its anti-aircraft guns, and behind them the steps of its plan or, in an air battle,
the air units of both sides (`Battle.volleys_eq_append`). Guns are fired type by type, each of them
at most once (`Battle.subperm_unitsOf_flak`). The steps share out the rosters, so that behind the
guns, too, no unit takes part in two volleys (`Battle.subperm_unitsOf_mainVolleys`). -/

namespace Salvo

/-! ## The units of volleys -/

/-- The units that take part in volleys, one volley after the other. -/
def unitsOf (volleys : List Volley) : List Combatant := volleys.flatMap (·.units)

theorem unitsOf_append (volleys more : List Volley) :
    unitsOf (volleys ++ more) = unitsOf volleys ++ unitsOf more :=
  List.flatMap_append

theorem unitsOf_filterMap {α : Type} (f : α → Option Volley) (xs : List α) :
    unitsOf (xs.filterMap f) = xs.flatMap fun x => ((f x).map (·.units)).getD [] := by
  induction xs with
  | nil => rfl
  | cons x xs ih =>
    rw [List.flatMap_cons, ← ih]
    cases hx : f x with
    | none => rw [List.filterMap_cons_none hx]; rfl
    | some volley => rw [List.filterMap_cons_some hx]; rfl

theorem sublist_unitsOf_filterMap {f : List Combatant → Option Volley}
    {groups : List (List Combatant)}
    (h : ∀ group volley, f group = some volley → volley.units = group) :
    (unitsOf (groups.filterMap f)).Sublist groups.flatten := by
  induction groups with
  | nil => exact .slnil
  | cons group groups ih =>
    cases hgroup : f group with
    | none =>
      rw [List.filterMap_cons_none hgroup]
      exact ih.trans (List.sublist_append_right ..)
    | some volley =>
      rw [List.filterMap_cons_some hgroup, unitsOf, List.flatMap_cons, h group volley hgroup]
      exact ih.append_left group

namespace Battle

variable {battle : Battle} {rules : RuleSet} {supportRules : List SupportRule} {side : Side}
  {unit : Combatant}

/-! ## Anti-aircraft fire -/

/-- Whether the unit belongs to guns of one type that have a target. -/
def FiresFlak (battle : Battle) (rules : RuleSet) (side : Side) (unit : Combatant) : Prop :=
  unit ∈ battle.guns rules side ∧ ∃ gun ∈ battle.guns rules side,
    gun.typeName = unit.typeName ∧
      ∃ target ∈ battle.units side.opposite, gun.type.canTarget target.type

theorem exists_antiAircraftVolley?_iff {guns : List Combatant} :
    (∃ volley, battle.antiAircraftVolley? rules side guns = some volley) ↔
      ∃ gun ∈ guns, ∃ target ∈ battle.units side.opposite, gun.type.canTarget target.type := by
  have htargets : AntiAircraftFire.validTargets guns (battle.units side.opposite) = [] ↔
      ¬ ∃ gun ∈ guns, ∃ target ∈ battle.units side.opposite,
        gun.type.canTarget target.type := by
    rw [AntiAircraftFire.validTargets, List.filter_eq_nil_iff]
    simp only [List.any_eq_true, not_exists, not_and]
    exact ⟨fun h gun hgun target htarget => h target htarget gun hgun,
      fun h target htarget gun hgun => h gun hgun target htarget⟩
  rw [antiAircraftVolley?]
  split
  · rename_i hempty
    have hnone := htargets.mp (List.isEmpty_iff.mp hempty)
    exact iff_of_false (by simp) hnone
  · rename_i hsome
    rw [List.isEmpty_iff, htargets, not_not] at hsome
    exact iff_of_true ⟨_, rfl⟩ hsome

/-- The guns that fire are guns of the roster, each once. -/
theorem subperm_unitsOf_groups (side : Side) :
    (unitsOf ((Combatant.groups (battle.guns rules side)).filterMap
      (battle.antiAircraftVolley? rules side))).Subperm (battle.units side) := by
  have hgroups : (unitsOf ((Combatant.groups (battle.guns rules side)).filterMap
      (battle.antiAircraftVolley? rules side))).Sublist
        (Combatant.groups (battle.guns rules side)).flatten :=
    sublist_unitsOf_filterMap fun _ _ h => congrArg (·.units) (eq_of_antiAircraftVolley? h)
  have hguns : (battle.guns rules side).Sublist (battle.units side) := List.filter_sublist
  exact (hgroups.subperm.trans (Combatant.perm_flatten_groups _).subperm).trans hguns.subperm

theorem subperm_unitsOf_antiAircraftVolleys :
    (unitsOf (battle.antiAircraftVolleys rules)).Subperm (battle.offense ++ battle.defense) := by
  have hboth : unitsOf (battle.antiAircraftVolleys rules) =
      unitsOf ((Combatant.groups (battle.guns rules .offense)).filterMap
        (battle.antiAircraftVolley? rules .offense)) ++
      unitsOf ((Combatant.groups (battle.guns rules .defense)).filterMap
        (battle.antiAircraftVolley? rules .defense)) := by
    rw [← unitsOf_append]
    simp [antiAircraftVolleys, Side.both, guns]
  rw [hboth]
  exact List.Subperm.append (subperm_unitsOf_groups .offense) (subperm_unitsOf_groups .defense)

theorem mem_unitsOf_antiAircraftVolleys :
    unit ∈ unitsOf (battle.antiAircraftVolleys rules) ↔
      ∃ side, battle.FiresFlak rules side unit := by
  constructor
  · intro h
    obtain ⟨volley, hvolley, hunit⟩ := List.mem_flatMap.mp h
    obtain ⟨side, -, hvolley⟩ := List.mem_flatMap.mp hvolley
    obtain ⟨group, hgroup, hvolley⟩ := List.mem_filterMap.mp hvolley
    obtain ⟨gun, hgun, htarget⟩ := exists_antiAircraftVolley?_iff.mp ⟨volley, hvolley⟩
    rw [Combatant.groups_eq] at hgroup
    obtain ⟨name, -, rfl⟩ := List.mem_map.mp hgroup
    rw [eq_of_antiAircraftVolley? hvolley] at hunit
    obtain ⟨hunit, hname⟩ := List.mem_filter.mp hunit
    obtain ⟨hgun, hsame⟩ := List.mem_filter.mp hgun
    exact ⟨side, hunit, gun, hgun, (eq_of_beq hsame).trans (eq_of_beq hname).symm, htarget⟩
  · rintro ⟨side, hunit, gun, hgun, hname, htarget⟩
    have hgun : gun ∈ Combatant.ofType unit.typeName (battle.guns rules side) :=
      List.mem_filter.mpr ⟨hgun, beq_iff_eq.mpr hname⟩
    have hunit : unit ∈ Combatant.ofType unit.typeName (battle.guns rules side) :=
      List.mem_filter.mpr ⟨hunit, beq_self_eq_true _⟩
    obtain ⟨volley, hvolley⟩ := exists_antiAircraftVolley?_iff.mpr ⟨gun, hgun, htarget⟩
    have hgroup : Combatant.ofType unit.typeName (battle.guns rules side) ∈
        Combatant.groups (battle.guns rules side) := by
      rw [Combatant.groups_eq]
      exact List.mem_map_of_mem (Combatant.mem_typeNames.mpr (List.ne_nil_of_mem hunit))
    refine List.mem_flatMap.mpr ⟨volley, ?_, ?_⟩
    · exact List.mem_flatMap.mpr
        ⟨side, Side.mem_both side, List.mem_filterMap.mpr ⟨_, hgroup, hvolley⟩⟩
    · rw [eq_of_antiAircraftVolley? hvolley]
      exact hunit

/-! ## The steps of the plan -/

theorem unitsOf_stepVolleys :
    unitsOf (battle.stepVolleys rules supportRules) =
      (battle.plan rules).steps.flatMap fun step =>
        step.select (battle.units step.firing) rules := by
  rw [stepVolleys, unitsOf_filterMap]
  refine congrArg (List.flatMap · _) (funext fun step => ?_)
  unfold stepVolley?
  dsimp only
  split
  · rename_i hempty
    exact (List.isEmpty_iff.mp hempty).symm
  · rfl

theorem perm_unitsOf_stepVolleys :
    (unitsOf (battle.stepVolleys rules supportRules)).Perm (battle.offense ++ battle.defense) := by
  have hside (side : Side) : (((battle.plan rules).stepsBy side).flatMap fun step =>
      step.select (battle.units step.firing) rules).Perm (battle.units side) := by
    have hselect : (((battle.plan rules).stepsBy side).flatMap fun step =>
        step.select (battle.units step.firing) rules) =
          ((battle.plan rules).stepsBy side).flatMap fun step =>
            step.select (battle.units side) rules :=
      List.flatMap_congr fun step hstep => by rw [FirePlan.firing_of_mem_stepsBy hstep]
    rw [hselect]
    exact perm_flatMap_filter (FirePlan.countP_admits battle.offense battle.defense rules side)
  have hdefense : (battle.plan rules).stepsBy .defense =
      (battle.plan rules).steps.filter fun step => !decide (step.firing = .offense) := by
    refine List.filter_congr fun step _ => ?_
    cases step.firing <;> rfl
  have hsteps : ((battle.plan rules).stepsBy .offense ++ (battle.plan rules).stepsBy .defense).Perm
      (battle.plan rules).steps := by
    rw [hdefense]
    exact List.filter_append_perm ..
  rw [unitsOf_stepVolleys]
  refine (hsteps.flatMap_right _).symm.trans ?_
  rw [List.flatMap_append]
  exact (hside .offense).append (hside .defense)

/-! ## Air battles -/

theorem unitsOf_airVolleys :
    unitsOf (Side.both.filterMap (battle.airVolley? rules)) =
      (battle.offense ++ battle.defense).filter fun unit => (unit.traits rules).air := by
  have hside (side : Side) : ((battle.airVolley? rules side).map (·.units)).getD [] =
      (battle.units side).filter fun unit => (unit.traits rules).air := by
    unfold airVolley?
    dsimp only
    split
    · rename_i hempty
      exact (List.isEmpty_iff.mp hempty).symm
    · rfl
  rw [unitsOf_filterMap]
  simp [hside, Side.both, units, Side.pick]

/-! ## The fire of a round -/

section

variable (battle rules supportRules)

/-- The anti-aircraft fire of a round. -/
def flak : List Volley :=
  if battle.kind = .combat ∧ battle.context.round = 1 then battle.antiAircraftVolleys rules else []

/-- What is fired in a round behind the anti-aircraft guns. -/
def mainVolleys : List Volley :=
  match battle.kind with
  | .combat => battle.stepVolleys rules supportRules
  | .airBattle => Side.both.filterMap (battle.airVolley? rules)

theorem volleys_eq_append :
    battle.volleys rules supportRules =
      battle.flak rules ++ battle.mainVolleys rules supportRules := by
  unfold volleys flak mainVolleys
  cases hkind : battle.kind with
  | combat => simp [combatVolleys, stepVolleys]
  | airBattle => simp

end

theorem kind_of_mem_flak {volley : Volley} (h : volley ∈ battle.flak rules) :
    volley.kind = .antiAircraft := by
  unfold flak at h
  split at h
  · exact kind_of_mem_antiAircraftVolleys h
  · cases h

theorem kind_of_mem_mainVolleys {volley : Volley}
    (h : volley ∈ battle.mainVolleys rules supportRules) : volley.kind ≠ .antiAircraft := by
  unfold mainVolleys at h
  split at h
  · exact kind_of_mem_stepVolleys h
  · obtain ⟨side, -, hside⟩ := List.mem_filterMap.mp h
    rw [eq_of_airVolley? hside]
    nofun

theorem subperm_unitsOf_flak :
    (unitsOf (battle.flak rules)).Subperm (battle.offense ++ battle.defense) := by
  unfold flak
  split
  · exact subperm_unitsOf_antiAircraftVolleys
  · exact List.nil_subperm

theorem subperm_unitsOf_mainVolleys :
    (unitsOf (battle.mainVolleys rules supportRules)).Subperm
      (battle.offense ++ battle.defense) := by
  unfold mainVolleys
  split
  · exact perm_unitsOf_stepVolleys.subperm
  · rw [unitsOf_airVolleys]
    exact List.filter_sublist.subperm

theorem mem_unitsOf_flak :
    unit ∈ unitsOf (battle.flak rules) ↔
      battle.kind = .combat ∧ battle.context.round = 1 ∧
        ∃ side, battle.FiresFlak rules side unit := by
  unfold flak
  split
  · rename_i h
    rw [mem_unitsOf_antiAircraftVolleys, and_iff_right h.1, and_iff_right h.2]
  · rename_i h
    exact iff_of_false List.not_mem_nil fun hflak => h ⟨hflak.1, hflak.2.1⟩

theorem mem_unitsOf_mainVolleys :
    unit ∈ unitsOf (battle.mainVolleys rules supportRules) ↔
      unit ∈ battle.offense ++ battle.defense ∧
        (battle.kind = .airBattle → (unit.traits rules).air) := by
  unfold mainVolleys
  cases hkind : battle.kind with
  | combat => simp [perm_unitsOf_stepVolleys.mem_iff]
  | airBattle =>
    simp only [unitsOf_airVolleys, List.mem_filter]
    simp

theorem nodup_ids_of_subperm (hids : ((battle.offense ++ battle.defense).map (·.id)).Nodup)
    {units : List Combatant} (h : units.Subperm (battle.offense ++ battle.defense)) :
    (units.map (·.id)).Nodup := by
  obtain ⟨roster, hperm, hsublist⟩ := h
  exact (hperm.map _).nodup_iff.mp ((hsublist.map _).nodup hids)

theorem nodup_ids_of_mem_volleys (hids : ((battle.offense ++ battle.defense).map (·.id)).Nodup)
    {volley : Volley} (h : volley ∈ battle.volleys rules supportRules) :
    (volley.units.map (·.id)).Nodup := by
  have hunits {volleys : List Volley} (hmem : volley ∈ volleys) :
      volley.units.Sublist (unitsOf volleys) :=
    List.sublist_flatten_of_mem (List.mem_map_of_mem hmem)
  rw [volleys_eq_append] at h
  rcases List.mem_append.mp h with h | h
  · exact nodup_ids_of_subperm hids ((hunits h).subperm.trans subperm_unitsOf_flak)
  · exact nodup_ids_of_subperm hids ((hunits h).subperm.trans subperm_unitsOf_mainVolleys)

end Battle

end Salvo
