import Salvo.Proofs.Round.FireOnce
import Salvo.Proofs.Support.Lawful

/-! # The support of a round

Each step of a round hands out its support anew. A supporter offers all its slots in every step, so
that in the two phases of its side it may serve twice as many units as its rule has capacity
(`Battle.not_served_le_capacity`): capacity bounds what is given in a step, and a round has as many
times the capacity as steps in which the rule finds units of its types
(`Battle.support_of_round`). Who receives support does not receive it twice, since no unit fires
twice. -/

namespace Salvo

/-- If the blocks of some elements have at most `limit` hits each and those of the others none, then
all blocks together have at most `limit` for each of these elements. -/
theorem countP_flatMap_le {α β : Type} {f : α → List β} {p : β → Bool} {q : α → Bool} {limit : Nat}
    {xs : List α} (h : ∀ x ∈ xs, (f x).countP p ≤ if q x then limit else 0) :
    (xs.flatMap f).countP p ≤ xs.countP q * limit := by
  induction xs with
  | nil => simp
  | cons x xs ih =>
    obtain ⟨hx, hxs⟩ := List.forall_mem_cons.mp h
    have hrest := ih hxs
    rw [List.flatMap_cons, List.countP_append, List.countP_cons, Nat.add_mul]
    split at hx
    · rename_i hq
      rw [if_pos hq, Nat.one_mul]
      omega
    · rename_i hq
      rw [if_neg hq, Nat.zero_mul]
      omega

/-! ## The steps of a side -/

namespace FirePlan

variable {rules : RuleSet} {side : Side}

theorem firing_of_mem_stepsBy {plan : FirePlan} {step : FireStep} (h : step ∈ plan.stepsBy side) :
    step.firing = side := of_decide_eq_true (List.mem_filter.mp h).2

/-- A side fires in the first-strike phase and in the main exchange, or in the main exchange
alone. -/
theorem Laid.length_stepsBy_le {plan : FirePlan} (h : plan.Laid rules) (side : Side) :
    (plan.stepsBy side).length ≤ 2 := by
  rw [h.stepsBy_eq, List.length_append, List.length_singleton]
  have hstrike := Option.length_toList_le (o := plan.strike? rules side)
  omega

/-- No two steps of a side select units of one id. -/
theorem countP_selects_le_one (offense defense : List Combatant) (rules : RuleSet)
    (hids : ((side.pick offense defense).map (·.id)).Nodup) (id : Nat) :
    ((planRound offense defense rules).stepsBy side).countP (fun step =>
      (step.select (side.pick offense defense) rules).any (·.id == id)) ≤ 1 := by
  by_cases hid : ∃ unit ∈ side.pick offense defense, unit.id = id
  -- Only one unit of the roster has the id, and one step of its side admits it.
  · obtain ⟨unit, hunit, rfl⟩ := hid
    refine Nat.le_of_eq ((List.countP_congr fun step _ => ?_).trans
      (countP_admits offense defense rules side unit hunit))
    simp only [FireStep.select, List.any_filter, List.any_eq_true, Bool.and_eq_true, beq_iff_eq]
    constructor
    · rintro ⟨other, hother, hadmits, heq⟩
      rwa [← List.inj_on_of_nodup_map hids hother hunit heq]
    · intro hadmits
      exact ⟨unit, hunit, hadmits, rfl⟩
  · refine Nat.le_trans (Nat.le_of_eq (List.countP_eq_zero.mpr fun step _ hselects => ?_))
      (Nat.zero_le 1)
    obtain ⟨unit, hunit, heq⟩ := List.any_eq_true.mp hselects
    exact hid ⟨unit, (List.mem_filter.mp hunit).1, beq_iff_eq.mp heq⟩

end FirePlan

namespace Battle

variable (battle : Battle) (rules : RuleSet) (supportRules : List SupportRule)

/-- The support that the steps of a side hand out in a round. -/
def roundSupport (side : Side) : List Grant :=
  ((battle.plan rules).stepsBy side).flatMap fun step =>
    (battle.stepCombat rules supportRules step).support.grants

/-- How many units a supporter serves in the passes of one kind of a round, under the rule with the
index. -/
def served (side : Side) (pass : SupportPass) (index supporter : Nat) : Nat :=
  (battle.roundSupport rules supportRules side).countP fun grant =>
    grant.isOf pass && grant.isFrom index supporter

/-- The steps of a side in which a unit of the types fires that the rule supports. -/
def stepsWithSupported (side : Side) (rule : SupportRule) : List FireStep :=
  ((battle.plan rules).stepsBy side).filter fun step =>
    (step.select (battle.units side) rules).any fun unit => rule.supports unit.typeName

variable {battle rules supportRules} {side : Side} {step : FireStep}

/-! ## One step -/

/-- The support of a step comes from four allocations to the units that fire in it. -/
theorem exists_recipients (hids : ((battle.offense ++ battle.defense).map (·.id)).Nodup)
    (hstep : step ∈ (battle.plan rules).stepsBy side) :
    ∃ recipients, recipients.Perm (step.select (battle.units side) rules) ∧
      (recipients.map (·.id)).Nodup ∧ ∀ (pass : SupportPass) (p : Grant → Bool),
        (battle.stepCombat rules supportRules step).support.grants.countP
            (fun grant => grant.isOf pass && p grant) =
          (pass.allocate recipients (battle.units (SupportRule.supporterSide pass.source side))
            supportRules side).countP p := by
  obtain rfl := FirePlan.firing_of_mem_stepsBy hstep
  obtain ⟨recipients, base, hperm, hsupport⟩ := exists_support_eq battle rules supportRules step
  have hnodup : (recipients.map (·.id)).Nodup := by
    refine (hperm.map (·.id)).nodup_iff.mpr ?_
    exact ((List.filter_sublist.trans (sublist_units battle step.firing)).map (·.id)).nodup hids
  refine ⟨recipients, hperm, hnodup, fun pass p => ?_⟩
  rw [hsupport, countP_isOf_runSupportPasses, supporters_eq]

/-- In one pass of a step only its units receive support, one bonus of a bonus type each. -/
theorem countP_gives_step_le (hids : ((battle.offense ++ battle.defense).map (·.id)).Nodup)
    (hstep : step ∈ (battle.plan rules).stepsBy side) (pass : SupportPass) (bonusType : String)
    (id : Nat) :
    (battle.stepCombat rules supportRules step).support.grants.countP
        (fun grant => grant.isOf pass && grant.gives supportRules bonusType id) ≤
      if (step.select (battle.units side) rules).any (·.id == id) then 1 else 0 := by
  obtain ⟨recipients, hperm, hnodup, hcount⟩ := exists_recipients hids hstep
  rw [hcount]
  split
  · exact SupportPass.countP_gives_allocate_le_one hnodup bonusType id
  · rename_i hnone
    refine Nat.le_of_eq (List.countP_eq_zero.mpr fun grant hgrant hgives => hnone ?_)
    obtain ⟨slot, hslot, unit, hunit, -, rfl⟩ := SupportPass.mem_allocate hnodup hgrant
    obtain ⟨rfl, -⟩ := (gives_grantTo_iff (SupportPass.getElem?_of_mem_ofRules hslot)).mp hgives
    exact List.any_eq_true.mpr ⟨unit, hperm.mem_iff.mp hunit, beq_self_eq_true _⟩

/-- In one pass of a step a supporter serves units of the types that its rule supports, and no more
than the rule has capacity. -/
theorem countP_isFrom_step_le (hids : ((battle.offense ++ battle.defense).map (·.id)).Nodup)
    (hstep : step ∈ (battle.plan rules).stepsBy side) {pass : SupportPass} {index : Nat}
    {rule : SupportRule} (hrule : supportRules[index]? = some rule) {supporter : Combatant}
    (hsupporter : supporter ∈ battle.units (SupportRule.supporterSide pass.source side)) :
    (battle.stepCombat rules supportRules step).support.grants.countP
        (fun grant => grant.isOf pass && grant.isFrom index supporter.id) ≤
      if (step.select (battle.units side) rules).any (fun unit => rule.supports unit.typeName) then
        rule.capacityFor supporter.owner
      else 0 := by
  obtain ⟨recipients, hperm, hnodup, hcount⟩ := exists_recipients hids hstep
  rw [hcount]
  split
  · exact SupportPass.countP_isFrom_allocate_le hnodup
      (((sublist_units battle _).map (·.id)).nodup hids) hsupporter hrule
  · rename_i hnone
    refine Nat.le_of_eq (List.countP_eq_zero.mpr fun grant hgrant hfrom => hnone ?_)
    obtain ⟨slot, hslot, unit, hunit, hsupports, rfl⟩ := SupportPass.mem_allocate hnodup hgrant
    have hindex : slot.index = index := (by simpa [SupportSlot.isFrom] using hfrom : _ ∧ _).1
    have hslotRule : slot.rule = rule := by
      have hmem := SupportPass.getElem?_of_mem_ofRules hslot
      rw [hindex, hrule] at hmem
      exact (Option.some.inj hmem).symm
    exact List.any_eq_true.mpr ⟨unit, hperm.mem_iff.mp hunit, hslotRule ▸ hsupports⟩

/-! ## The steps of a round -/

/-- Over a whole round no unit receives two bonuses of one bonus type in passes of one kind, and a
supporter serves at most as many units as its rule has capacity for each step in which the rule
finds units of its types. A side has two steps at most. -/
theorem support_of_round (battle : Battle) (rules : RuleSet) (supportRules : List SupportRule)
    (side : Side) (hids : ((battle.offense ++ battle.defense).map (·.id)).Nodup) :
    (∀ pass bonusType id, (battle.roundSupport rules supportRules side).countP
      (fun grant => grant.isOf pass && grant.gives supportRules bonusType id) ≤ 1) ∧
    ∀ (pass : SupportPass) index rule, supportRules[index]? = some rule →
      ∀ supporter ∈ battle.units (SupportRule.supporterSide pass.source side),
        battle.served rules supportRules side pass index supporter.id ≤
          (battle.stepsWithSupported rules side rule).length *
            rule.capacityFor supporter.owner ∧
        (battle.stepsWithSupported rules side rule).length ≤ 2 := by
  refine ⟨fun pass bonusType id => ?_, fun pass index rule hrule supporter hsupporter => ⟨?_, ?_⟩⟩
  · have hroster : ((side.pick battle.offense battle.defense).map (·.id)).Nodup :=
      ((sublist_units battle side).map (·.id)).nodup hids
    refine Nat.le_trans (countP_flatMap_le fun step hstep =>
      countP_gives_step_le hids hstep pass bonusType id) ?_
    rw [Nat.mul_one]
    exact FirePlan.countP_selects_le_one battle.offense battle.defense rules hroster id
  · rw [stepsWithSupported, ← List.countP_eq_length_filter]
    exact countP_flatMap_le fun step hstep => countP_isFrom_step_le hids hstep hrule hsupporter
  · exact Nat.le_trans (List.length_filter_le ..)
      ((FirePlan.laid_planRound battle.offense battle.defense rules).length_stepsBy_le side)

def carrier : Combatant := ⟨0, { name := "carrier", attack := 1 }, { name := "Germans" }⟩

/-- A submarine makes a sneak attack and a cruiser fires in the main exchange, with one carrier
behind both. -/
def carrierGroup : Battle where
  attacker := { name := "Germans" }
  defender := { name := "Russians" }
  offense :=
    [carrier, ⟨1, { name := "submarine", attack := 2, isFirstStrike := true }, { name := "Germans" }⟩,
      ⟨2, { name := "cruiser", attack := 3 }, { name := "Germans" }⟩]
  defense := [⟨3, { name := "battleship", defense := 4 }, { name := "Russians" }⟩]
  context := { territory := "Baltic Sea" }

def airCover : SupportRule := .strength "air cover" "carrier" ["submarine", "cruiser"] 1 1

/-- The carrier serves one unit in each of two steps. -/
theorem support_of_carrierGroup :
    let grants := carrierGroup.roundSupport {} [airCover] .offense
    ((carrierGroup.offense ++ carrierGroup.defense).map (·.id)).Nodup ∧
      grants = [⟨0, 0, 1, .strength, .allied, 1⟩, ⟨0, 0, 2, .strength, .allied, 1⟩] ∧
      grants.countP (fun grant =>
        grant.isOf ⟨.strength, .allied⟩ && grant.gives [airCover] "default" 2) ≤ 1 ∧
      carrierGroup.served {} [airCover] .offense ⟨.strength, .allied⟩ 0 carrier.id ≤
        (carrierGroup.stepsWithSupported {} .offense airCover).length *
          airCover.capacityFor carrier.owner := by
  intro grants
  have hids : ((carrierGroup.offense ++ carrierGroup.defense).map (·.id)).Nodup := by decide
  obtain ⟨hreceived, hserved⟩ := support_of_round carrierGroup {} [airCover] .offense hids
  exact ⟨hids, by rfl, hreceived _ _ _, (hserved _ _ airCover rfl carrier (by decide)).1⟩

/-- A supporter may serve more units in a round than its rule has capacity. -/
theorem not_served_le_capacity :
    ¬ ∀ (battle : Battle) (rules : RuleSet) (supportRules : List SupportRule) (side : Side)
      (pass : SupportPass) (index : Nat) (rule : SupportRule) (supporter : Combatant),
      ((battle.offense ++ battle.defense).map (·.id)).Nodup →
      supportRules[index]? = some rule →
      supporter ∈ battle.units (SupportRule.supporterSide pass.source side) →
      battle.served rules supportRules side pass index supporter.id ≤
        rule.capacityFor supporter.owner := by
  intro h
  have hle := h carrierGroup {} [airCover] .offense ⟨.strength, .allied⟩ 0 airCover carrier
    (by decide) rfl (by decide)
  have htwo : carrierGroup.served {} [airCover] .offense ⟨.strength, .allied⟩ 0 carrier.id = 2 := by
    rfl
  have hone : airCover.capacityFor carrier.owner = 1 := rfl
  omega

end Battle

end Salvo
