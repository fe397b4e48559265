import Salvo.Proofs.Support.Slots
import Salvo.Round.Volley

/-! # Lawful support

The support of a fire step is handed out in four passes. Every grant is lawful
(`Battle.support_lawful`): it goes to a firing unit of a type that the rule supports, it is worth
what the rule says, and it comes from a unit that may give it, on the firing side for support by
allies and on the other for support by enemies. In one pass no unit gets two grants of one bonus
type, and no supporter serves more units under a rule than the rule has capacity. -/

namespace Salvo

/-- The grant was made in the pass. -/
def Grant.isOf (grant : Grant) (pass : SupportPass) : Bool :=
  grant.kind == pass.kind && grant.source == pass.source

/-- The grant is made under the rule, by a unit that may give it to a unit that may receive it. The
supporter fights on `side` if it is an ally of the firing units and else on the opposite side. -/
structure Grant.Lawful (grant : Grant) (battle : Battle) (firing : List Combatant) (side : Side)
    (rule : SupportRule) (supporter recipient : Combatant) : Prop where
  recipient_eq : grant.recipient = recipient.id
  recipient_mem : recipient ∈ firing
  supports : rule.supports recipient.typeName
  amount_eq : grant.amount = rule.bonus
  kind_eq : grant.kind = rule.kind
  supporter_eq : grant.supporter = supporter.id
  supporter_mem : supporter ∈ battle.units (SupportRule.supporterSide grant.source side)
  supporter_type : supporter.typeName = rule.supporter
  owner : rule.canBeGivenBy supporter.owner
  allied : grant.source = .allied → rule.allied
  enemy : grant.source = .enemy → rule.enemy
  active : (SupportRule.supporterSide grant.source side).pick rule.offense rule.defense = true

variable {recipients supporters allies enemies : List Combatant} {rules : List SupportRule}
  {side : Side} {pass : SupportPass}

theorem SupportRule.appliesTo_iff {rule : SupportRule} {kind : BonusKind} {source : SupportSource} :
    rule.appliesTo kind source side ↔
      rule.kind = kind ∧ (source = .allied → rule.allied) ∧ (source = .enemy → rule.enemy) ∧
        (supporterSide source side).pick rule.offense rule.defense := by
  cases source <;> simp [appliesTo, and_assoc]

/-! ## One pass -/

theorem WaitingRoom.exists_of_mem_handOut {room : WaitingRoom} {slots : List SupportSlot}
    {grant : Grant} (h : grant ∈ room.handOut pass recipients slots) :
    ∃ (slot : SupportSlot) (id : Nat), grant = slot.grantTo pass id := by
  induction slots generalizing room with
  | nil => cases h
  | cons slot slots ih =>
    unfold handOut at h
    split at h
    · exact ih h
    · rename_i id next _
      rcases List.mem_cons.mp h with rfl | h
      · exact ⟨slot, id, rfl⟩
      · exact ih h

namespace SupportPass

theorem mem_allocate (hids : (recipients.map (·.id)).Nodup) {grant : Grant}
    (h : grant ∈ pass.allocate recipients supporters rules side) :
    ∃ slot ∈ SupportSlot.ofRules recipients supporters rules side pass, ∃ unit ∈ recipients,
      slot.rule.supports unit.typeName ∧ grant = slot.grantTo pass unit.id := by
  rw [allocate_eq_greedy hids] at h
  rcases mem_foldl_give h with hnone | hserved
  · exact absurd hnone List.not_mem_nil
  · exact hserved

/-- Every grant of a pass says which pass it was made in. -/
theorem isOf_of_mem_allocate {grant : Grant}
    (h : grant ∈ pass.allocate recipients supporters rules side) (other : SupportPass) :
    grant.isOf other ↔ pass = other := by
  obtain ⟨slot, id, rfl⟩ := WaitingRoom.exists_of_mem_handOut h
  cases pass
  cases other
  simp [Grant.isOf, SupportSlot.grantTo]

theorem filter_isOf_allocate (pass other : SupportPass) :
    (pass.allocate recipients supporters rules side).filter (·.isOf other) =
      if pass = other then pass.allocate recipients supporters rules side else [] := by
  split
  · rename_i heq
    exact List.filter_eq_self.mpr fun grant hgrant => (isOf_of_mem_allocate hgrant other).mpr heq
  · rename_i hne
    exact List.filter_eq_nil_iff.mpr fun grant hgrant hof =>
      hne ((isOf_of_mem_allocate hgrant other).mp hof)

/-- In one pass a unit gets one grant of a bonus type at most. -/
theorem countP_gives_allocate_le_one (hids : (recipients.map (·.id)).Nodup) (bonusType : String)
    (id : Nat) :
    (pass.allocate recipients supporters rules side).countP (·.gives rules bonusType id) ≤ 1 := by
  rw [allocate_eq_greedy hids]
  exact countP_gives_foldl_give_le_one (fun _ => getElem?_of_mem_ofRules) (by simp) bonusType id

/-- In one pass a supporter serves no more units than the rule has capacity for its owner. -/
theorem countP_isFrom_allocate_le (hids : (recipients.map (·.id)).Nodup)
    (hsupporters : (supporters.map (·.id)).Nodup) {supporter : Combatant}
    (hsupporter : supporter ∈ supporters) {index : Nat} {rule : SupportRule}
    (hrule : rules[index]? = some rule) :
    (pass.allocate recipients supporters rules side).countP (·.isFrom index supporter.id) ≤
      rule.capacityFor supporter.owner := by
  have hslots : (SupportSlot.ofRules recipients supporters rules side pass).countP
      (·.isFrom index supporter.id) ≤ rule.capacityFor supporter.owner := by
    rw [countP_isFrom_ofRules hsupporters hsupporter hrule]
    split <;> omega
  rw [allocate_eq_greedy hids]
  refine Nat.le_trans (countP_isFrom_foldl_give_le ..) ?_
  rwa [List.countP_nil, Nat.zero_add]

/-- A unit that is none of the supporters gives nothing. -/
theorem countP_isFrom_allocate_eq_zero (hids : (recipients.map (·.id)).Nodup) {id : Nat}
    (hnone : ∀ unit ∈ supporters, unit.id ≠ id) (index : Nat) :
    (pass.allocate recipients supporters rules side).countP (·.isFrom index id) = 0 := by
  refine List.countP_eq_zero.mpr fun grant hgrant hfrom => ?_
  obtain ⟨slot, hslot, unit, -, -, rfl⟩ := mem_allocate hids hgrant
  obtain ⟨-, -, supporter, hsupporter, -, -, heq⟩ := mem_ofRules hslot
  refine hnone supporter hsupporter (heq.symm.trans ?_)
  exact (by simpa [SupportSlot.isFrom] using hfrom : _ ∧ _).2

/-! ## All passes -/

theorem mem_all (pass : SupportPass) : pass ∈ all := by
  obtain ⟨kind, source⟩ := pass
  cases kind <;> cases source <;> decide

theorem grants_run (passes : List SupportPass) (outcome : SupportOutcome) :
    (run recipients allies enemies rules side passes outcome).grants =
      outcome.grants ++ passes.flatMap fun pass =>
        pass.allocate recipients (pass.supporters allies enemies) rules side := by
  induction passes generalizing outcome with
  | nil => rw [run, List.flatMap_nil, List.append_nil]
  | cons pass passes ih => rw [run, ih, List.flatMap_cons, List.append_assoc]

end SupportPass

theorem grants_runSupportPasses (base : ByUnit Might) :
    (runSupportPasses recipients allies enemies rules side base).grants =
      SupportPass.all.flatMap fun pass =>
        pass.allocate recipients (pass.supporters allies enemies) rules side :=
  SupportPass.grants_run SupportPass.all { records := base }

/-- Among the grants of several passes those of one pass are told by their kind and source. -/
theorem SupportPass.filter_isOf_flatMap {supportersOf : SupportPass → List Combatant}
    {passes : List SupportPass} (hnodup : passes.Nodup) {pass : SupportPass}
    (hpass : pass ∈ passes) :
    (passes.flatMap fun pass => pass.allocate recipients (supportersOf pass) rules side).filter
        (·.isOf pass) =
      pass.allocate recipients (supportersOf pass) rules side := by
  induction passes with
  | nil => cases hpass
  | cons first passes ih =>
    obtain ⟨hfirst, hrest⟩ := List.nodup_cons.mp hnodup
    rw [List.flatMap_cons, List.filter_append, filter_isOf_allocate]
    rcases List.mem_cons.mp hpass with rfl | hpass
    · have hnone : (passes.flatMap fun pass =>
          pass.allocate recipients (supportersOf pass) rules side).filter (·.isOf pass) = [] := by
        rw [List.filter_flatMap]
        refine List.flatMap_eq_nil_iff.mpr fun other hother => ?_
        rw [filter_isOf_allocate, if_neg]
        rintro rfl
        exact hfirst hother
      rw [if_pos rfl, hnone, List.append_nil]
    · have hne : first ≠ pass := by
        rintro rfl
        exact hfirst hpass
      rw [if_neg hne, List.nil_append, ih hrest hpass]

theorem filter_isOf_runSupportPasses (base : ByUnit Might) (pass : SupportPass) :
    (runSupportPasses recipients allies enemies rules side base).grants.filter (·.isOf pass) =
      pass.allocate recipients (pass.supporters allies enemies) rules side := by
  rw [grants_runSupportPasses]
  exact SupportPass.filter_isOf_flatMap (by decide) pass.mem_all

theorem countP_isOf_runSupportPasses (base : ByUnit Might) (pass : SupportPass)
    (p : Grant → Bool) :
    (runSupportPasses recipients allies enemies rules side base).grants.countP
        (fun grant => grant.isOf pass && p grant) =
      (pass.allocate recipients (pass.supporters allies enemies) rules side).countP p := by
  rw [← filter_isOf_runSupportPasses base, List.countP_filter]
  exact List.countP_congr fun grant _ => by rw [Bool.and_comm]

/-! ## The support of a fire step -/

namespace Battle

variable {battle : Battle} {ruleSet : RuleSet} {step : FireStep}

theorem supporters_eq (pass : SupportPass) (battle : Battle) (side : Side) :
    pass.supporters (battle.units side) (battle.units side.opposite) =
      battle.units (SupportRule.supporterSide pass.source side) := by
  cases hsource : pass.source <;> simp [SupportPass.supporters, SupportRule.supporterSide, hsource]

theorem sublist_units (battle : Battle) (side : Side) :
    (battle.units side).Sublist (battle.offense ++ battle.defense) := by
  cases side
  · exact List.sublist_append_left ..
  · exact List.sublist_append_right ..

/-- Support for a step is handed out to its units in the order of their strength. -/
theorem exists_support_eq (battle : Battle) (ruleSet : RuleSet) (rules : List SupportRule)
    (step : FireStep) :
    ∃ recipients base, recipients.Perm (step.select (battle.units step.firing) ruleSet) ∧
      (battle.stepCombat ruleSet rules step).support =
        runSupportPasses recipients (battle.units step.firing) (battle.units step.firing.opposite)
          rules step.firing base :=
  ⟨_, _, perm_sortOn .., rfl⟩

/-- What a slot of a pass gives to a firing unit of its types is lawful. -/
theorem exists_lawful_grantTo {firing : List Combatant} {slot : SupportSlot}
    (hslot : slot ∈ SupportSlot.ofRules recipients
      (pass.supporters (battle.units side) (battle.units side.opposite)) rules side pass)
    {recipient : Combatant} (hrecipient : recipient ∈ firing)
    (hsupports : slot.rule.supports recipient.typeName) :
    ∃ supporter, (slot.grantTo pass recipient.id).Lawful battle firing side slot.rule supporter
      recipient := by
  obtain ⟨-, happlies, supporter, hsupporter, htype, howner, heq⟩ := SupportPass.mem_ofRules hslot
  obtain ⟨hkind, hallied, henemy, hactive⟩ := SupportRule.appliesTo_iff.mp happlies
  rw [supporters_eq] at hsupporter
  exact ⟨supporter,
    { recipient_eq := rfl
      recipient_mem := hrecipient
      supports := hsupports
      amount_eq := rfl
      kind_eq := hkind.symm
      supporter_eq := heq
      supporter_mem := hsupporter
      supporter_type := htype
      owner := howner
      allied := hallied
      enemy := henemy
      active := hactive }⟩

/-- Whatever a step is supported with is lawful: who receives it, what it is worth and who gives it
are as its rule says, in one pass nobody receives two bonuses of one bonus type, and no unit
supports more units under a rule than the rule has capacity for its owner. -/
theorem support_lawful (battle : Battle) (ruleSet : RuleSet) (rules : List SupportRule)
    (step : FireStep) (hids : ((battle.offense ++ battle.defense).map (·.id)).Nodup) :
    let grants := (battle.stepCombat ruleSet rules step).support.grants
    (∀ grant ∈ grants, ∃ rule supporter recipient, rules[grant.rule]? = some rule ∧
      grant.Lawful battle (step.select (battle.units step.firing) ruleSet) step.firing rule
        supporter recipient) ∧
    (∀ pass bonusType id,
      grants.countP (fun grant => grant.isOf pass && grant.gives rules bonusType id) ≤ 1) ∧
    (∀ pass index rule, rules[index]? = some rule →
      ∀ supporter ∈ battle.offense ++ battle.defense,
        grants.countP (fun grant => grant.isOf pass && grant.isFrom index supporter.id) ≤
          rule.capacityFor supporter.owner) := by
  obtain ⟨recipients, base, hperm, hsupport⟩ := exists_support_eq battle ruleSet rules step
  have hrecipients : (recipients.map (·.id)).Nodup := by
    refine (hperm.map (·.id)).nodup_iff.mpr ?_
    exact ((List.filter_sublist.trans (sublist_units battle step.firing)).map (·.id)).nodup hids
  have hsupporters (side : Side) : ((battle.units side).map (·.id)).Nodup :=
    ((sublist_units battle side).map (·.id)).nodup hids
  dsimp only
  rw [hsupport]
  refine ⟨fun grant hgrant => ?_, fun pass bonusType id => ?_, ?_⟩
  · rw [grants_runSupportPasses] at hgrant
    obtain ⟨pass, -, hgrant⟩ := List.mem_flatMap.mp hgrant
    obtain ⟨slot, hslot, recipient, hrecipient, hsupports, rfl⟩ :=
      SupportPass.mem_allocate hrecipients hgrant
    have hfiring := hperm.mem_iff.mp hrecipient
    have hrule := SupportPass.getElem?_of_mem_ofRules hslot
    obtain ⟨supporter, hlawful⟩ := exists_lawful_grantTo hslot hfiring hsupports
    exact ⟨slot.rule, supporter, recipient, hrule, hlawful⟩
  · rw [countP_isOf_runSupportPasses]
    exact SupportPass.countP_gives_allocate_le_one hrecipients bonusType id
  · intro pass index rule hrule supporter hsupporter
    rw [countP_isOf_runSupportPasses, supporters_eq]
    by_cases hside : supporter ∈ battle.units (SupportRule.supporterSide pass.source step.firing)
    · exact SupportPass.countP_isFrom_allocate_le hrecipients (hsupporters _) hside hrule
    · rw [SupportPass.countP_isFrom_allocate_eq_zero hrecipients]
      · exact Nat.zero_le _
      · -- Ids are distinct over both sides, so no supporter shares the id of a unit of the other.
        intro unit hunit heq
        have hmem := (sublist_units battle _).subset hunit
        exact hside (List.inj_on_of_nodup_map hids hmem hsupporter heq ▸ hunit)

/-- Attacking infantry with one artillery behind it and a bunker in front of it. -/
theorem support_at_bunker :
    let unit (id : Nat) (name player : String) : Combatant := ⟨id, { name }, { name := player }⟩
    let battle : Battle :=
      { attacker := { name := "Germans" }
        defender := { name := "Russians" }
        offense := [unit 0 "infantry" "Germans", unit 1 "artillery" "Germans",
          unit 2 "infantry" "Germans"]
        defense := [unit 3 "bunker" "Russians"]
        context := { territory := "Ukraine" } }
    let rules := [(SupportRule.strength "guns" "artillery" ["infantry"] 1 1).offenseOnly,
      (SupportRule.strength "cover" "bunker" ["infantry", "artillery"] (-1) 2).againstEnemies]
    let step : FireStep := .answeredBy .offense (.general false) .all
    let grants := (battle.stepCombat {} rules step).support.grants
    ((battle.offense ++ battle.defense).map (·.id)).Nodup ∧
      grants = [⟨0, 1, 0, .strength, .allied, 1⟩, ⟨1, 3, 0, .strength, .enemy, -1⟩,
        ⟨1, 3, 2, .strength, .enemy, -1⟩] ∧
      ∀ grant ∈ grants, ∃ rule supporter recipient, rules[grant.rule]? = some rule ∧
        grant.Lawful battle (step.select (battle.units step.firing) {}) step.firing rule supporter
          recipient :=
  ⟨by decide, by rfl, (support_lawful _ _ _ _ (by decide)).1⟩

end Battle

end Salvo
