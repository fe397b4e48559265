import Mathlib.Data.List.Induction
import Salvo.Proofs.Power.SupportedPower
import Salvo.Proofs.Support.MoreSupporters

/-! # The strongest first

Of two firing units of one type the stronger one is supported first, and no worse than the other
(`MainCombat.support_of_stronger`). The units of a type wait with the strongest in front, and those
of equal strength in the order of the roster.

A slot that serves a unit passes over the units of its type in front of it, so all of them hold a
bonus of the bonus type already (`SupportSlot.holdsGrant_of_recipient?`). Their bonuses came from
earlier slots, which are worth no less. -/

namespace Salvo

/-- Whatever is found has nothing of the kind in front of it. -/
theorem not_of_find?_eq_some {α : Type} {p : α → Bool} {x y : α} {xs : List α} (hnodup : xs.Nodup)
    (hpair : [x, y].Sublist xs) (h : xs.find? p = some y) : p x = false := by
  obtain ⟨-, before, after, rfl, hbefore⟩ := List.find?_eq_some_iff_append.mp h
  obtain ⟨-, hrest, -⟩ := List.nodup_append.mp hnodup
  obtain ⟨hfirst, -⟩ := List.nodup_cons.mp hrest
  obtain ⟨front, back, hsplit, hfront, hback⟩ := List.sublist_append_iff.mp hpair
  cases front with
  | nil =>
    rw [List.nil_append] at hsplit
    rw [← hsplit] at hback
    exact absurd (hback.of_cons_cons.subset List.mem_cons_self) hfirst
  | cons z front =>
    obtain rfl := (List.cons.inj hsplit).1
    simpa using hbefore x (hfront.subset List.mem_cons_self)

variable {recipients supporters firing : List Combatant} {rules : List SupportRule}
  {side : Side} {pass : SupportPass} {slot : SupportSlot} {slots : List SupportSlot}
  {given : List Grant} {unit other : Combatant}

/-! ## Who is passed over -/

/-- A slot serves a unit only if the units of its type in front of it have been served. -/
theorem SupportSlot.holdsGrant_of_recipient? (hids : (recipients.map (·.id)).Nodup)
    (hpair : [unit, other].Sublist recipients) (htype : unit.typeName = other.typeName)
    (h : slot.recipient? recipients rules given = some other) :
    holdsGrant rules given slot.rule.bonusType unit.id := by
  unfold recipient? at h
  generalize slot.rule.supported = typeNames at h
  induction typeNames with
  | nil => cases h
  | cons typeName typeNames ih =>
    rw [unitsOfTypes, List.flatMap_cons, List.find?_append] at h
    rcases Option.or_eq_some_iff.mp h with hfound | ⟨-, hrest⟩
    · have hother : (other.typeName == typeName) = true :=
        (List.mem_filter.mp (List.mem_of_find?_eq_some hfound)).2
      have hboth : [unit, other].filter (·.typeName == typeName) = [unit, other] := by
        simp [htype, hother]
      have hpair' := hpair.filter (·.typeName == typeName)
      rw [hboth] at hpair'
      have hnodup : (recipients.filter (·.typeName == typeName)).Nodup :=
        (List.Nodup.of_map _ hids).filter _
      simpa using not_of_find?_eq_some hnodup hpair' hfound
    · exact ih hrest

namespace SupportPass

/-- Each grant was given by a slot in its turn. -/
theorem exists_turn_of_mem_greedy {grant : Grant} (h : grant ∈ pass.greedy recipients rules slots) :
    ∃ earlier slot later unit, slots = earlier ++ slot :: later ∧
      slot.recipient? recipients rules (pass.greedy recipients rules earlier) = some unit ∧
      grant = slot.grantTo pass unit.id := by
  induction slots using List.reverseRecOn with
  | nil => cases h
  | append_singleton slots last ih =>
    rw [greedy, List.foldl_append, List.foldl_cons, List.foldl_nil, ← greedy, give] at h
    cases hserved : last.recipient? recipients rules (pass.greedy recipients rules slots) with
    | none =>
      rw [hserved] at h
      obtain ⟨earlier, slot, later, unit, rfl, hturn⟩ := ih h
      exact ⟨earlier, slot, later ++ [last], unit, by simp, hturn⟩
    | some unit =>
      rw [hserved] at h
      rcases List.mem_append.mp h with hearlier | hlast
      · obtain ⟨earlier, slot, later, unit, rfl, hturn⟩ := ih hearlier
        exact ⟨earlier, slot, later ++ [last], unit, by simp, hturn⟩
      · exact ⟨slots, last, [], unit, rfl, hserved, List.mem_singleton.mp hlast⟩

/-- Whoever waits in front of a unit of its type that was served has been served too, at no higher
cost. -/
theorem exists_served_before (hids : (recipients.map (·.id)).Nodup)
    (hpair : [unit, other].Sublist recipients) (htype : unit.typeName = other.typeName)
    {grant : Grant} (hgrant : grant ∈ pass.allocate recipients supporters rules side)
    {bonusType : String} (hgives : grant.gives rules bonusType other.id) :
    ∃ better ∈ pass.allocate recipients supporters rules side,
      better.gives rules bonusType unit.id ∧
        pass.source.cost better.amount ≤ pass.source.cost grant.amount := by
  rw [allocate_eq_greedy hids] at hgrant ⊢
  obtain ⟨earlier, slot, later, served, hsplit, hserved, rfl⟩ := exists_turn_of_mem_greedy hgrant
  have hturn : slot ∈ SupportSlot.ofRules recipients supporters rules side pass := by
    rw [hsplit]
    exact List.mem_append_right _ List.mem_cons_self
  have hslot : rules[slot.index]? = some slot.rule := getElem?_of_mem_ofRules hturn
  obtain ⟨hid, rfl⟩ := (gives_grantTo_iff hslot).mp hgives
  have hsame : served = other :=
    List.inj_on_of_nodup_map hids (SupportSlot.of_recipient?_eq_some hserved).1
      (hpair.subset (by simp)) hid
  rw [hsame] at hserved
  obtain ⟨better, hbetter, hholds⟩ :=
    List.any_eq_true.mp (SupportSlot.holdsGrant_of_recipient? hids hpair htype hserved)
  have hsorted : (earlier ++ slot :: later).Pairwise fun slot later =>
      pass.source.cost slot.rule.bonus ≤ pass.source.cost later.rule.bonus :=
    hsplit ▸ pairwise_ofRules
  rw [hsplit]
  refine ⟨better, (prefix_greedy_append earlier (slot :: later)).subset hbetter, hholds, ?_⟩
  rcases mem_foldl_give hbetter with hnone | ⟨first, hfirst, _, -, -, rfl⟩
  · exact absurd hnone List.not_mem_nil
  · exact (List.pairwise_append.mp hsorted).2.2 first hfirst slot List.mem_cons_self

end SupportPass

/-! ## The order of a firing group -/

theorem pair_sublist_sortStrongestFirst {strength : Combatant → Int} (hunit : unit ∈ firing)
    (hother : other ∈ firing)
    (h : strength other < strength unit ∨
      strength unit = strength other ∧ [unit, other].Sublist firing) :
    [unit, other].Sublist (sortStrongestFirst strength firing) := by
  rcases h with hlt | ⟨heq, hpair⟩
  · exact pair_sublist_sortOn_of_lt hunit hother (Int.neg_lt_neg hlt)
  · exact pair_sublist_sortOn_of_eq hpair (congrArg Neg.neg heq)

namespace MainCombat

/-- The units wait for support in the order of their profiles. -/
theorem exists_support_eq (firing allies enemies : List Combatant) (side : Side)
    (ruleSet : RuleSet) (rules : List SupportRule) (context : BattleContext)
    (hids : (firing.map (·.id)).Nodup) :
    ∃ base, (MainCombat.of firing allies enemies side ruleSet rules context).support =
      runSupportPasses
        (sortStrongestFirst (fun unit => (unit.profile side ruleSet context).strength) firing)
        allies enemies rules side base := by
  let base := (ByUnit.ofUnits firing (·.profile side ruleSet context)).mapValues fun profile =>
    ({ strength := profile.strength, rolls := profile.rolls } : Might)
  have horder : sortStrongestFirst (fun unit => ((base.get? unit.id).map (·.strength)).getD 0)
      firing = sortStrongestFirst (fun unit => (unit.profile side ruleSet context).strength)
        firing := by
    apply sortOn_congr
    intro unit hunit
    have hbase : base.get? unit.id = some
        { strength := (unit.profile side ruleSet context).strength
          rolls := (unit.profile side ruleSet context).rolls } :=
      (ByUnit.get?_mapValues ..).trans (congrArg _ (ByUnit.get?_ofUnits hids hunit _))
    dsimp only
    rw [hbase]
    rfl
  exact ⟨base, congrArg (runSupportPasses · allies enemies rules side base) horder⟩

/-- If a firing unit is supported, then so is every unit of its type that is stronger without
support, or as strong and in front of it on the roster: in the same pass, under the same bonus type
and with a bonus that is no worse. -/
theorem support_of_stronger (firing allies enemies : List Combatant) (side : Side)
    (ruleSet : RuleSet) (rules : List SupportRule) (context : BattleContext)
    (hids : (firing.map (·.id)).Nodup) {unit other : Combatant} (hunit : unit ∈ firing)
    (hother : other ∈ firing) (htype : unit.typeName = other.typeName)
    (hstronger : (other.profile side ruleSet context).strength <
        (unit.profile side ruleSet context).strength ∨
      (unit.profile side ruleSet context).strength =
        (other.profile side ruleSet context).strength ∧ [unit, other].Sublist firing) :
    let grants := (MainCombat.of firing allies enemies side ruleSet rules context).support.grants
    ∀ (pass : SupportPass) (bonusType : String), ∀ grant ∈ grants, grant.isOf pass →
      grant.gives rules bonusType other.id →
        ∃ better ∈ grants, better.isOf pass ∧ better.gives rules bonusType unit.id ∧
          (pass.source = .allied → grant.amount ≤ better.amount) ∧
          (pass.source = .enemy → better.amount ≤ grant.amount) := by
  intro grants pass bonusType grant hgrant hof hgives
  obtain ⟨base, hsupport⟩ := exists_support_eq firing allies enemies side ruleSet rules context hids
  let line := sortStrongestFirst (fun unit => (unit.profile side ruleSet context).strength) firing
  have hline : (line.map (·.id)).Nodup := ((perm_sortOn _ firing).map (·.id)).nodup_iff.mpr hids
  have hpair : [unit, other].Sublist line :=
    pair_sublist_sortStrongestFirst hunit hother hstronger
  have hpass : grants.filter (·.isOf pass) =
      pass.allocate line (pass.supporters allies enemies) rules side := by
    simp only [grants, hsupport]
    exact filter_isOf_runSupportPasses base pass
  have hmem : grant ∈ pass.allocate line (pass.supporters allies enemies) rules side :=
    hpass ▸ List.mem_filter.mpr ⟨hgrant, hof⟩
  obtain ⟨better, hbetter, hserved, hcost⟩ :=
    SupportPass.exists_served_before hline hpair htype hmem hgives
  obtain ⟨hbetter, hof'⟩ := List.mem_filter.mp (hpass ▸ hbetter)
  refine ⟨better, hbetter, hof', hserved, fun hsource => ?_, fun hsource => ?_⟩
  · rw [hsource] at hcost
    exact Int.neg_le_neg_iff.mp hcost
  · rw [hsource] at hcost
    exact hcost

/-- The second infantry is the stronger one. It takes the bonus of the armour and leaves the smaller
one of the artillery to the first; the third, as strong as the first, goes without. -/
theorem support_of_veterans :
    let unit (id : Nat) (name : String) (attack : Int) : Combatant :=
      ⟨id, { name, attack }, { name := "Germans" }⟩
    let firing := [unit 0 "infantry" 1, unit 1 "infantry" 2, unit 2 "infantry" 1,
      unit 3 "artillery" 2, unit 4 "armour" 3]
    let rules := [SupportRule.strength "guns" "artillery" ["infantry"] 1 1,
      SupportRule.strength "tanks" "armour" ["marine", "infantry"] 2 1]
    let context : BattleContext := { territory := "Ukraine" }
    let grants := (MainCombat.of firing firing [] .offense {} rules context).support.grants
    (firing.map (·.id)).Nodup ∧
      grants = [⟨1, 4, 1, .strength, .allied, 2⟩, ⟨0, 3, 0, .strength, .allied, 1⟩] ∧
      ∃ better ∈ grants, better.gives rules "default" 1 ∧ 1 ≤ better.amount := by
  intro unit firing rules context grants
  have hids : (firing.map (·.id)).Nodup := by decide
  have hgrants : grants = [⟨1, 4, 1, .strength, .allied, 2⟩, ⟨0, 3, 0, .strength, .allied, 1⟩] := by
    decide +kernel
  have hgrant : (⟨0, 3, 0, .strength, .allied, 1⟩ : Grant) ∈ grants := by simp [hgrants]
  have hveteran : unit 1 "infantry" 2 ∈ firing := by decide
  have hrecruit : unit 0 "infantry" 1 ∈ firing := by decide
  obtain ⟨better, hbetter, -, hgives, hallied, -⟩ :=
    support_of_stronger firing firing [] .offense {} rules context hids hveteran hrecruit rfl
      (.inl (by decide)) ⟨.strength, .allied⟩ "default" _ hgrant rfl rfl
  exact ⟨hids, hgrants, better, hbetter, hgives, hallied rfl⟩

end MainCombat

end Salvo
