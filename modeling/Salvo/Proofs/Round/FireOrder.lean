import Salvo.Round.FirePlan

/-! # Phases, return fire and casualties of a plan

A plan has two phases, and in each of them a side has at most one step. `FirePlan.Planned` says
which steps these are, as the states of both sides decide them: a sneak attack, the answer that the
second edition gives to the victims of one, and the step of the main exchange.

The return fire of a sneak attack is settled by a rule of its own, and a step that answers it may
have been laid out before. The two agree (`returnFireOf_eq`): whoever may answer has a step, and
whoever has one may answer. So the casualties of a step leave just when the victims who may answer
it have fired (`wellTimed_planRound`). -/

namespace Salvo

/-- Whether victims with this return fire still fire a step of theirs. -/
def ReturnFire.admits : ReturnFire → FireStep → Bool
  | none, _ => false
  | firstStrikeOnly, step => step.isFirstStrike
  | all, _ => true

namespace FirePlan

/-- The step of a side in the first-strike phase, as the states of both sides decide it. -/
def strike? (plan : FirePlan) (rules : RuleSet) (side : Side) : Option FireStep :=
  firstStrikeStep? side (plan.state side) (plan.state side.opposite) rules

/-- The step of a side in the main exchange. -/
def exchange (plan : FirePlan) (rules : RuleSet) (side : Side) : FireStep :=
  generalStep side (plan.state side) (plan.state side.opposite) rules

theorem group_exchange (plan : FirePlan) (rules : RuleSet) (side : Side) :
    (plan.exchange rules side).group =
      .general (plan.state side = .regular && !(plan.strike? rules side).isSome) := rfl

/-- The plan has the steps that the states of its sides call for. -/
def Laid (plan : FirePlan) (rules : RuleSet) : Prop :=
  plan.steps = Side.both.filterMap (plan.strike? rules) ++ Side.both.map (plan.exchange rules)

theorem laid_planRound (offense defense : List Combatant) (rules : RuleSet) :
    (planRound offense defense rules).Laid rules := rfl

/-- The steps that a side may have. -/
inductive Planned (plan : FirePlan) (rules : RuleSet) (step : FireStep) : Prop
  | sneakAttack (hfirst : step.isFirstStrike) (hown : plan.state step.firing = .firstStrike)
      (hreturn : step.returnFire = returnFireOf (plan.state step.firing.opposite) rules)
  | answer (hfirst : step.isFirstStrike) (hown : plan.state step.firing = .regular)
      (hrules : rules.secondEdition) (hother : plan.state step.firing.opposite = .firstStrike)
      (hreturn : step.returnFire = .all)
  | exchange (hgeneral : ¬ step.isFirstStrike) (hreturn : step.returnFire = .all)

/-- The side has a step in the first-strike phase. -/
def FiresFirst (plan : FirePlan) (side : Side) : Prop :=
  ∃ step ∈ plan.firstStrikeSteps, step.firing = side

/-- How many steps have been fired when the casualties of the step at place `index` leave. -/
def departure (plan : FirePlan) (index : Nat) : CasualtyTiming → Nat
  | .immediate => index + 1
  | .afterFirstStrike => plan.firstStrikeSteps.length
  | .endOfRound => plan.steps.length

end FirePlan

/-! ## First-strike steps and return fire -/

theorem isSome_firstStrikeStep?_iff {side : Side} {own other : FirstStrikeState}
    {rules : RuleSet} :
    (firstStrikeStep? side own other rules).isSome ↔
      own = .firstStrike ∨ own = .regular ∧ rules.secondEdition ∧ other = .firstStrike := by
  cases own with
  | notApplicable => simp [firstStrikeStep?]
  | firstStrike => simp [firstStrikeStep?]
  | regular =>
    by_cases hanswer : rules.secondEdition ∧ other = .firstStrike
    · simp [firstStrikeStep?, hanswer]
    · simp only [firstStrikeStep?, if_neg hanswer]
      simpa using hanswer

/-- A sneak attack is answered just when its victims have a step in the first-strike phase. -/
theorem returnFireOf_eq (side : Side) (victim : FirstStrikeState) (rules : RuleSet) :
    returnFireOf victim rules =
      if (firstStrikeStep? side victim .firstStrike rules).isSome then .firstStrikeOnly
      else .none := by
  simp only [isSome_firstStrikeStep?_iff]
  cases victim <;> simp [returnFireOf]

theorem returnFireOf_ne_all (victim : FirstStrikeState) (rules : RuleSet) :
    returnFireOf victim rules ≠ .all := by
  rw [returnFireOf_eq .offense]
  split <;> decide

/-! ## The steps of a plan -/

namespace FirePlan

variable {plan : FirePlan} {rules : RuleSet} {side : Side} {step : FireStep}

theorem firing_of_strike? (h : plan.strike? rules side = some step) : step.firing = side := by
  unfold strike? firstStrikeStep? at h
  split at h
  · cases h
    rfl
  · split at h
    · cases h
      rfl
    · cases h
  · cases h

theorem planned_of_strike? (h : plan.strike? rules side = some step) :
    step.isFirstStrike ∧ plan.Planned rules step ∧ step.casualties = step.returnFire.timing := by
  unfold strike? firstStrikeStep? at h
  split at h
  · rename_i hown
    cases h
    exact ⟨rfl, .sneakAttack rfl hown rfl, rfl⟩
  · rename_i hown
    split at h
    · rename_i hanswer
      cases h
      exact ⟨rfl, .answer rfl hown hanswer.1 hanswer.2 rfl, rfl⟩
    · cases h
  · cases h

theorem sublist_map_firing (plan : FirePlan) (rules : RuleSet) (sides : List Side) :
    ((sides.filterMap (plan.strike? rules)).map (·.firing)).Sublist sides := by
  induction sides with
  | nil => exact .refl []
  | cons side sides ih =>
    cases hside : plan.strike? rules side with
    | none =>
      rw [List.filterMap_cons_none hside]
      exact ih.cons side
    | some step =>
      rw [List.filterMap_cons_some hside, List.map_cons, firing_of_strike? hside]
      exact ih.cons_cons side

namespace Laid

variable (h : plan.Laid rules)
include h

theorem planned_of_mem (hstep : step ∈ plan.steps) :
    plan.Planned rules step ∧ step.casualties = step.returnFire.timing := by
  rw [h] at hstep
  rcases List.mem_append.mp hstep with hstep | hstep
  · obtain ⟨side, _, hside⟩ := List.mem_filterMap.mp hstep
    exact (planned_of_strike? hside).2
  · obtain ⟨side, _, rfl⟩ := List.mem_map.mp hstep
    exact ⟨.exchange Bool.false_ne_true rfl, rfl⟩

theorem firstStrikeSteps_eq : plan.firstStrikeSteps = Side.both.filterMap (plan.strike? rules) := by
  have hstrikes : ∀ step ∈ Side.both.filterMap (plan.strike? rules), step.isFirstStrike := by
    intro step hstep
    obtain ⟨side, _, hside⟩ := List.mem_filterMap.mp hstep
    exact (planned_of_strike? hside).1
  have hexchanges : ∀ step ∈ Side.both.map (plan.exchange rules), ¬ step.isFirstStrike := by
    intro step hstep
    obtain ⟨side, _, rfl⟩ := List.mem_map.mp hstep
    exact Bool.false_ne_true
  rw [firstStrikeSteps, h, List.filter_append, List.filter_eq_self.mpr hstrikes,
    List.filter_eq_nil_iff.mpr hexchanges, List.append_nil]

theorem generalSteps_eq : plan.generalSteps = Side.both.map (plan.exchange rules) := by
  have hstrikes : ∀ step ∈ Side.both.filterMap (plan.strike? rules), ¬ !step.isFirstStrike := by
    intro step hstep
    obtain ⟨side, _, hside⟩ := List.mem_filterMap.mp hstep
    simp [(planned_of_strike? hside).1]
  have hexchanges : ∀ step ∈ Side.both.map (plan.exchange rules), !step.isFirstStrike := by
    intro step hstep
    obtain ⟨side, _, rfl⟩ := List.mem_map.mp hstep
    rfl
  rw [generalSteps, h, List.filter_append, List.filter_eq_self.mpr hexchanges,
    List.filter_eq_nil_iff.mpr hstrikes, List.nil_append]

theorem steps_eq : plan.steps = plan.firstStrikeSteps ++ plan.generalSteps := by
  rw [h.firstStrikeSteps_eq, h.generalSteps_eq]
  exact h

theorem firesFirst_iff (side : Side) : plan.FiresFirst side ↔ (plan.strike? rules side).isSome := by
  rw [FiresFirst, h.firstStrikeSteps_eq]
  constructor
  · rintro ⟨step, hstep, rfl⟩
    obtain ⟨side, _, hside⟩ := List.mem_filterMap.mp hstep
    rw [firing_of_strike? hside, hside]
    rfl
  · intro hsome
    obtain ⟨step, hside⟩ := Option.isSome_iff_exists.mp hsome
    exact ⟨step, List.mem_filterMap.mpr ⟨side, side.mem_both, hside⟩, firing_of_strike? hside⟩

/-- The first-strike phase lasts as long as its steps are fired. -/
theorem lt_length_firstStrikeSteps_iff {index : Nat} (hstep : plan.steps[index]? = some step) :
    index < plan.firstStrikeSteps.length ↔ step.isFirstStrike := by
  rw [h.steps_eq] at hstep
  by_cases hlt : index < plan.firstStrikeSteps.length
  · rw [List.getElem?_append_left hlt] at hstep
    have hmem := List.mem_of_getElem? hstep
    exact iff_of_true hlt (List.mem_filter.mp hmem).2
  · rw [List.getElem?_append_right (by omega)] at hstep
    have hmem := List.mem_of_getElem? hstep
    refine iff_of_false hlt ?_
    simpa using (List.mem_filter.mp hmem).2

/-! ## Sneak attacks and answers -/

/-- A sneak attack meets the return fire that its victims have a step for. -/
theorem returnFireOf_opposite (hown : plan.state side = .firstStrike) :
    (plan.FiresFirst side.opposite →
      returnFireOf (plan.state side.opposite) rules = .firstStrikeOnly) ∧
    (¬ plan.FiresFirst side.opposite →
      returnFireOf (plan.state side.opposite) rules = .none) := by
  have hiff := h.firesFirst_iff side.opposite
  rw [strike?, Side.opposite_opposite, hown] at hiff
  rw [returnFireOf_eq side.opposite]
  exact ⟨fun hfires => if_pos (hiff.mp hfires), fun hnot => if_neg (mt hiff.mpr hnot)⟩

theorem sneakAttack_of_mem (hstep : step ∈ plan.firstStrikeSteps)
    (hown : plan.state step.firing = .firstStrike) :
    (plan.FiresFirst step.firing.opposite →
      step.returnFire = .firstStrikeOnly ∧ step.casualties = .afterFirstStrike) ∧
    (¬ plan.FiresFirst step.firing.opposite →
      step.returnFire = .none ∧ step.casualties = .immediate) := by
  obtain ⟨hmem, hfirst⟩ := List.mem_filter.mp hstep
  obtain ⟨hplanned, htiming⟩ := h.planned_of_mem hmem
  obtain ⟨hanswered, halone⟩ := h.returnFireOf_opposite hown
  cases hplanned with
  | sneakAttack _ _ hreturn =>
    rw [htiming, hreturn]
    constructor
    · intro hfires
      rw [hanswered hfires]
      exact ⟨rfl, rfl⟩
    · intro hnot
      rw [halone hnot]
      exact ⟨rfl, rfl⟩
  | answer _ hregular => cases hown.symm.trans hregular
  | exchange hgeneral => exact absurd hfirst hgeneral

/-- The victims of a sneak attack who answer it in the first-strike phase are answered to by all
units of the other side. -/
theorem answer_of_mem (hstep : step ∈ plan.firstStrikeSteps)
    (hown : plan.state step.firing = .regular) :
    step.returnFire = .all ∧ step.casualties = .endOfRound ∧
      plan.FiresFirst step.firing.opposite := by
  obtain ⟨hmem, hfirst⟩ := List.mem_filter.mp hstep
  obtain ⟨hplanned, htiming⟩ := h.planned_of_mem hmem
  cases hplanned with
  | sneakAttack _ hsneak => cases hown.symm.trans hsneak
  | answer _ _ _ hother hreturn =>
    rw [htiming, hreturn, h.firesFirst_iff, strike?, isSome_firstStrikeStep?_iff]
    exact ⟨rfl, rfl, .inl hother⟩
  | exchange hgeneral => exact absurd hfirst hgeneral

theorem exchange_of_mem (hstep : step ∈ plan.generalSteps) :
    step.returnFire = .all ∧ step.casualties = .endOfRound := by
  rw [h.generalSteps_eq] at hstep
  obtain ⟨side, _, rfl⟩ := List.mem_map.mp hstep
  exact ⟨rfl, rfl⟩

/-- First strikes are sneak attacks or answers. -/
theorem state_of_mem (hstep : step ∈ plan.firstStrikeSteps) :
    plan.state step.firing = .firstStrike ∨ plan.state step.firing = .regular := by
  obtain ⟨hmem, hfirst⟩ := List.mem_filter.mp hstep
  cases (h.planned_of_mem hmem).1 with
  | sneakAttack _ hown => exact .inl hown
  | answer _ hown => exact .inr hown
  | exchange hgeneral => exact absurd hfirst hgeneral

/-- Who may answer a first strike has a step in the first-strike phase, and the other way round. -/
theorem returnFire_ne_none_iff (hstep : step ∈ plan.firstStrikeSteps) :
    step.returnFire ≠ .none ↔ plan.FiresFirst step.firing.opposite := by
  rcases h.state_of_mem hstep with hown | hown
  · obtain ⟨hanswered, halone⟩ := h.sneakAttack_of_mem hstep hown
    by_cases hfires : plan.FiresFirst step.firing.opposite
    · simp [hanswered hfires, hfires]
    · simp [halone hfires, hfires]
  · obtain ⟨hreturn, _, hfires⟩ := h.answer_of_mem hstep hown
    simp [hreturn, hfires]

/-- Only sneak attacks have casualties before the main exchange. -/
theorem returnFire_ne_all_iff (hstep : step ∈ plan.steps) :
    step.returnFire ≠ .all ↔ step.isFirstStrike ∧ plan.state step.firing = .firstStrike := by
  cases (h.planned_of_mem hstep).1 with
  | sneakAttack hfirst hown hreturn =>
    refine iff_of_true ?_ ⟨hfirst, hown⟩
    rw [hreturn]
    exact returnFireOf_ne_all _ rules
  | answer _ hown _ _ hreturn => simp [hown, hreturn]
  | exchange hgeneral hreturn => simp [hgeneral, hreturn]

/-! ## When casualties leave -/

variable {index other : Nat} {victims : FireStep}

/-- Victims fire a step before they leave just when the return fire admits it, whether their step
comes before or after the one that hit them. -/
theorem lt_departure_iff (hstep : plan.steps[index]? = some step)
    (hvictims : plan.steps[other]? = some victims)
    (hside : victims.firing = step.firing.opposite) :
    other < plan.departure index step.casualties ↔ step.returnFire.admits victims := by
  have hmem := List.mem_of_getElem? hstep
  rw [(h.planned_of_mem hmem).2]
  cases hreturn : step.returnFire with
  | none =>
    -- A sneak attack that no step answers: all steps of the victims are in the main exchange.
    have hfirst : step.isFirstStrike :=
      ((h.returnFire_ne_all_iff hmem).mp (by simp [hreturn])).1
    have halone : ¬ plan.FiresFirst step.firing.opposite := fun hfires =>
      (h.returnFire_ne_none_iff (List.mem_filter.mpr ⟨hmem, hfirst⟩)).mpr hfires hreturn
    have hlate : ¬ victims.isFirstStrike := fun hvictim =>
      halone ⟨victims, List.mem_filter.mpr ⟨List.mem_of_getElem? hvictims, hvictim⟩, hside⟩
    have hindex := (h.lt_length_firstStrikeSteps_iff hstep).mpr hfirst
    have hother := mt (h.lt_length_firstStrikeSteps_iff hvictims).mp hlate
    refine iff_of_false ?_ Bool.false_ne_true
    show ¬ other < index + 1
    omega
  | firstStrikeOnly => exact h.lt_length_firstStrikeSteps_iff hvictims
  | all => exact iff_of_true (List.getElem?_eq_some_iff.mp hvictims).1 rfl

/-- Casualties leave before the main exchange of the victims just when they are those of a sneak
attack. -/
theorem departure_le_iff (hstep : plan.steps[index]? = some step)
    (hvictims : plan.steps[other]? = some victims)
    (hside : victims.firing = step.firing.opposite) (hgeneral : ¬ victims.isFirstStrike) :
    plan.departure index step.casualties ≤ other ↔
      step.isFirstStrike ∧ plan.state step.firing = .firstStrike := by
  rw [← h.returnFire_ne_all_iff (List.mem_of_getElem? hstep), ← Nat.not_lt,
    h.lt_departure_iff hstep hvictims hside]
  cases step.returnFire <;> simp [ReturnFire.admits, hgeneral]

end Laid

/-- Return fire and casualties agree with the steps that follow. -/
structure WellTimed (plan : FirePlan) (rules : RuleSet) : Prop where
  /-- First strikes come before the main exchange. -/
  steps_eq : plan.steps = plan.firstStrikeSteps ++ plan.generalSteps
  /-- A side has at most one first strike, offense before defense. -/
  firstStrikes : (plan.firstStrikeSteps.map (·.firing)).Sublist Side.both
  exchanges : plan.generalSteps.map (·.firing) = Side.both
  /-- A sneak attack meets no return fire just when the other side has no first strike at all. -/
  unanswered : ∀ step ∈ plan.firstStrikeSteps, plan.state step.firing = .firstStrike →
    (step.returnFire = .none ∧ step.casualties = .immediate ↔
      ¬ plan.FiresFirst step.firing.opposite)
  answered : ∀ step ∈ plan.firstStrikeSteps, plan.state step.firing = .firstStrike →
    plan.FiresFirst step.firing.opposite →
      step.returnFire = .firstStrikeOnly ∧ step.casualties = .afterFirstStrike
  /-- A side that was denied its sneak attack answers one in the second edition only. -/
  answers_iff : ∀ side, plan.state side = .regular →
    (plan.FiresFirst side ↔ rules.secondEdition ∧ plan.state side.opposite = .firstStrike)
  answers : ∀ step ∈ plan.firstStrikeSteps, plan.state step.firing = .regular →
    step.returnFire = .all ∧ step.casualties = .endOfRound
  mainExchange : ∀ step ∈ plan.generalSteps,
    step.returnFire = .all ∧ step.casualties = .endOfRound
  /-- Casualties leave before the main exchange of the victims just when they are those of a sneak
  attack. -/
  leave_early_iff : ∀ index other step victims, plan.steps[index]? = some step →
    plan.steps[other]? = some victims → victims.firing = step.firing.opposite →
    ¬ victims.isFirstStrike →
      (plan.departure index step.casualties ≤ other ↔
        step.isFirstStrike ∧ plan.state step.firing = .firstStrike)
  /-- The victims of a step fire the steps that its return fire admits, and no others. -/
  fire_back_iff : ∀ index other step victims, plan.steps[index]? = some step →
    plan.steps[other]? = some victims → victims.firing = step.firing.opposite →
      (other < plan.departure index step.casualties ↔ step.returnFire.admits victims)
  /-- A first strike allows return fire just when the plan has a first strike of the victims. -/
  returnFire_iff : ∀ step ∈ plan.firstStrikeSteps,
    (step.returnFire ≠ .none ↔ plan.FiresFirst step.firing.opposite)

theorem wellTimed_planRound (offense defense : List Combatant) (rules : RuleSet) :
    (planRound offense defense rules).WellTimed rules := by
  have h := laid_planRound offense defense rules
  constructor
  case steps_eq => exact h.steps_eq
  case firstStrikes =>
    rw [h.firstStrikeSteps_eq]
    exact sublist_map_firing _ rules Side.both
  case exchanges =>
    rw [h.generalSteps_eq]
    rfl
  case unanswered =>
    intro step hstep hown
    obtain ⟨hanswered, halone⟩ := h.sneakAttack_of_mem hstep hown
    constructor
    · rintro ⟨hnone, _⟩ hfires
      cases hnone.symm.trans (hanswered hfires).1
    · exact halone
  case answered =>
    intro step hstep hown
    exact (h.sneakAttack_of_mem hstep hown).1
  case answers_iff =>
    intro side hown
    rw [h.firesFirst_iff, strike?, isSome_firstStrikeStep?_iff, hown]
    simp
  case answers =>
    intro step hstep hown
    obtain ⟨hreturn, htiming, _⟩ := h.answer_of_mem hstep hown
    exact ⟨hreturn, htiming⟩
  case mainExchange =>
    intro step hstep
    exact h.exchange_of_mem hstep
  case leave_early_iff =>
    intro index other step victims hstep hvictims hside hgeneral
    exact h.departure_le_iff hstep hvictims hside hgeneral
  case fire_back_iff =>
    intro index other step victims hstep hvictims hside
    exact h.lt_departure_iff hstep hvictims hside
  case returnFire_iff =>
    intro step hstep
    exact h.returnFire_ne_none_iff hstep

/-- The attackers answer a sneak attack that is laid out after their step. -/
example :
    let unit (id : Nat) (type : UnitType) : Combatant := ⟨id, type, { name := "British" }⟩
    let submarine : UnitType := { name := "submarine", isFirstStrike := true }
    let destroyer : UnitType := { name := "destroyer", isDestroyer := true }
    (planRound [unit 0 submarine] [unit 1 submarine, unit 2 destroyer]
      { secondEdition := true }).firstStrikeSteps.map
        (fun step => (step.firing, step.returnFire, step.casualties)) =
      [(.offense, .all, .endOfRound), (.defense, .firstStrikeOnly, .afterFirstStrike)] := by
  decide

end FirePlan

end Salvo
