import Salvo.Proofs.Support.Lawful

/-! # The power of supported units

The power of a firing group in the main exchange is read off the profiles of its units and the
grants that they received (`MainCombat.build?_calculator`). The grants of all passes are added to
the profile before anything is clamped, so a penalty may outweigh a bonus and the other way round;
a sum out of the range of amounts wraps around. The units roll in the order of their profiles,
whatever support they have.

Everything in between is kept by unit id. With distinct ids a table holds what was put in for each
unit (`ByUnit.get?_ofUnits`), and adding grants changes the records of their recipients and no
others (`Grant.get?_applyAll`). -/

namespace Salvo

/-- What the grants of one kind add up to for a unit. -/
def Grant.bonus (grants : List Grant) (kind : BonusKind) (id : Nat) : Int :=
  ((grants.filter fun grant => grant.recipient == id && grant.kind = kind).map (·.amount)).sum

/-- The power of a unit of this profile whose strength and rolls have come to be these. -/
def Profile.record (profile : Profile) (sides raisedStrength raisedRolls : Int) (unit : Combatant) :
    PowerRecord :=
  let strength := max 0 (min sides raisedStrength)
  let rolls := max 0 raisedRolls
  { unit, strength, rolls
    power := unitPower strength rolls profile.traits.keepsBest sides
    keepsBest := profile.traits.keepsBest }

structure Might.InRange (might : Might) : Prop where
  strength : Amount.InRange might.strength
  rolls : Amount.InRange might.rolls

/-- The record with all of some bonuses added. -/
def Might.raise (might : Might) (strengthBonus rollsBonus : Int) : Might where
  strength := Amount.wrap (might.strength + strengthBonus)
  rolls := Amount.wrap (might.rolls + rollsBonus)

/-! ## Adding grants -/

namespace Might

variable {might : Might}

theorem InRange.add (h : might.InRange) (kind : BonusKind) (amount : Int) :
    (might.add kind amount).InRange := by
  cases kind with
  | strength => exact ⟨Amount.inRange_wrap _, h.rolls⟩
  | rolls => exact ⟨h.strength, Amount.inRange_wrap _⟩

theorem InRange.raise_zero (h : might.InRange) : might.raise 0 0 = might := by
  simp only [raise, Int.add_zero, Amount.wrap_of_inRange h.strength, Amount.wrap_of_inRange h.rolls]

theorem raise_of_inRange {strengthBonus rollsBonus : Int}
    (hstrength : Amount.InRange (might.strength + strengthBonus))
    (hrolls : Amount.InRange (might.rolls + rollsBonus)) :
    might.raise strengthBonus rollsBonus =
      { strength := might.strength + strengthBonus, rolls := might.rolls + rollsBonus } := by
  rw [raise, Amount.wrap_of_inRange hstrength, Amount.wrap_of_inRange hrolls]

theorem raise_add (might : Might) (kind : BonusKind) (amount strengthBonus rollsBonus : Int) :
    (might.add kind amount).raise strengthBonus rollsBonus =
      might.raise ((if kind = .strength then amount else 0) + strengthBonus)
        ((if kind = .rolls then amount else 0) + rollsBonus) := by
  cases kind <;> simp [add, raise, Amount.wrap_wrap_add, Int.add_assoc]

end Might

namespace Grant

@[simp] theorem bonus_nil (kind : BonusKind) (id : Nat) : bonus [] kind id = 0 := rfl

theorem bonus_cons (grant : Grant) (grants : List Grant) (kind : BonusKind) (id : Nat) :
    bonus (grant :: grants) kind id =
      (if grant.recipient = id ∧ grant.kind = kind then grant.amount else 0) +
        bonus grants kind id := by
  unfold bonus
  rw [List.filter_cons]
  by_cases hgrant : grant.recipient = id ∧ grant.kind = kind
  · rw [if_pos (by simpa using hgrant), if_pos hgrant, List.map_cons, List.sum_cons]
  · rw [if_neg (by simpa using hgrant), if_neg hgrant, Int.zero_add]

theorem get?_applyTo (grant : Grant) (records : ByUnit Might) (id : Nat) :
    (grant.applyTo records).get? id =
      (records.get? id).map fun might =>
        if grant.recipient = id then might.add grant.kind grant.amount else might := by
  rw [applyTo, ByUnit.get?_modify]
  by_cases hid : id = grant.recipient
  · simp [hid]
  · simp [hid, Ne.symm hid]

/-- Grants change the record of a unit by what they add up to. -/
theorem get?_applyAll {grants : List Grant} {records : ByUnit Might} {id : Nat} {might : Might}
    (h : records.get? id = some might) (hrange : might.InRange) :
    (applyAll grants records).get? id =
      some (might.raise (bonus grants .strength id) (bonus grants .rolls id)) := by
  induction grants generalizing records might with
  | nil => rw [applyAll_nil, h, bonus_nil, bonus_nil, hrange.raise_zero]
  | cons grant grants ih =>
    show (applyAll grants (grant.applyTo records)).get? id = _
    have hfirst := get?_applyTo grant records id
    rw [h, Option.map_some] at hfirst
    simp only [bonus_cons]
    by_cases hid : grant.recipient = id
    · rw [if_pos hid] at hfirst
      rw [ih hfirst (hrange.add ..), Might.raise_add]
      simp only [hid, true_and]
    · rw [if_neg hid] at hfirst
      rw [ih hfirst hrange]
      simp only [hid, false_and, if_false, Int.zero_add]

end Grant

/-! ## All passes -/

section

variable {recipients allies enemies : List Combatant} {rules : List SupportRule} {side : Side}

theorem SupportPass.records_run (passes : List SupportPass) (outcome : SupportOutcome) :
    (run recipients allies enemies rules side passes outcome).records =
      Grant.applyAll (passes.flatMap fun pass =>
        pass.allocate recipients (pass.supporters allies enemies) rules side) outcome.records := by
  induction passes generalizing outcome with
  | nil => rfl
  | cons pass passes ih => rw [run, ih, List.flatMap_cons, Grant.applyAll_append]

/-- The records that support leaves are the base records with all its grants added. -/
theorem records_runSupportPasses (base : ByUnit Might) :
    (runSupportPasses recipients allies enemies rules side base).records =
      Grant.applyAll (runSupportPasses recipients allies enemies rules side base).grants base := by
  rw [grants_runSupportPasses]
  exact SupportPass.records_run SupportPass.all { records := base }

theorem grants_runSupportPasses_nil (base : ByUnit Might) :
    (runSupportPasses recipients allies enemies [] side base).grants = [] := by
  rw [grants_runSupportPasses]
  exact List.flatMap_eq_nil_iff.mpr fun pass _ => rfl

end

/-! ## The values of a firing group -/

namespace MainCombat

variable {firing allies enemies : List Combatant} {side : Side} {rules : RuleSet}
  {supportRules : List SupportRule} {context : BattleContext}

theorem inRange_profile (unit : Combatant) (side : Side) (rules : RuleSet)
    (context : BattleContext) :
    Might.InRange { strength := (unit.profile side rules context).strength
                    rolls := (unit.profile side rules context).rolls } where
  strength := Amount.inRange_wrap _
  rolls := unit.type.inRange_rollsFor unit.owner side

/-- The values of a firing unit are those of its profile, raised by its grants. -/
theorem values_of_mem (hids : (firing.map (·.id)).Nodup) {unit : Combatant}
    (hunit : unit ∈ firing) :
    let combat := MainCombat.of firing allies enemies side rules supportRules context
    let profile := unit.profile side rules context
    combat.calculator.values unit =
      { base := profile.strength
        strength :=
          Amount.wrap (profile.strength + Grant.bonus combat.support.grants .strength unit.id)
        rolls := Amount.wrap (profile.rolls + Grant.bonus combat.support.grants .rolls unit.id)
        keepsBest := profile.traits.keepsBest } := by
  intro combat profile
  have hprofile : (ByUnit.ofUnits firing (·.profile side rules context)).get? unit.id =
      some profile := ByUnit.get?_ofUnits hids hunit _
  have hrecord : combat.support.records.get? unit.id =
      some (Might.raise { strength := profile.strength, rolls := profile.rolls }
        (Grant.bonus combat.support.grants .strength unit.id)
        (Grant.bonus combat.support.grants .rolls unit.id)) := by
    show (runSupportPasses ..).records.get? unit.id = _
    rw [records_runSupportPasses]
    refine Grant.get?_applyAll ?_ (inRange_profile unit side rules context)
    rw [ByUnit.get?_mapValues, hprofile]
    rfl
  simp only [combat, of] at hrecord ⊢
  rw [hprofile, hrecord]
  rfl

theorem build_calculator (hids : (firing.map (·.id)).Nodup) :
    let profile (unit : Combatant) := unit.profile side rules context
    let combat := MainCombat.of firing allies enemies side rules supportRules context
    PowerTable.build firing combat.calculator =
      { diceSides := rules.diceSides
        records := (sortStrongestFirst (fun unit => (profile unit).strength) firing).map fun unit =>
          (profile unit).record rules.diceSides
            (Amount.wrap ((profile unit).strength +
              Grant.bonus combat.support.grants .strength unit.id))
            (Amount.wrap ((profile unit).rolls +
              Grant.bonus combat.support.grants .rolls unit.id)) unit } := by
  intro profile combat
  have hvalues (unit : Combatant) (hunit : unit ∈ firing) : combat.calculator.values unit =
      { base := (profile unit).strength
        strength := Amount.wrap ((profile unit).strength +
          Grant.bonus combat.support.grants .strength unit.id)
        rolls := Amount.wrap ((profile unit).rolls +
          Grant.bonus combat.support.grants .rolls unit.id)
        keepsBest := (profile unit).traits.keepsBest } := values_of_mem hids hunit
  have horder : sortStrongestFirst (fun unit => (combat.calculator.values unit).base) firing =
      sortStrongestFirst (fun unit => (profile unit).strength) firing := by
    apply sortOn_congr
    intro unit hunit
    show -(combat.calculator.values unit).base = -(profile unit).strength
    rw [hvalues unit hunit]
  unfold PowerTable.build
  rw [horder]
  refine congrArg (PowerTable.mk · rules.diceSides) (List.map_congr_left fun unit hunit => ?_)
  rw [hvalues unit (mem_sortOn.mp hunit)]
  rfl

end MainCombat

end Salvo
