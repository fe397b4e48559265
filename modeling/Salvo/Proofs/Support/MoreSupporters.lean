import Mathlib.Data.List.Flatten
import Salvo.Proofs.Support.Greedy

/-! # One supporter more

A further supporter never takes a bonus from anyone. Its slots come between those of the others
and may take recipients from them, but every unit that is served without it is served with it as
well, under the same bonus type and with a bonus that is no worse
(`SupportPass.gives_insert_supporter`).

Two runs are compared slot by slot. The grants of the run with more slots cover those of the other
(`Covers`): a common slot serves the same unit in both runs, or one that the longer run has served
already, from a slot that came no later in the order of use. -/

namespace Salvo

/-- Bonuses of low cost are given first: large ones by allies, small ones by enemies. -/
def SupportSource.cost (source : SupportSource) (amount : Int) : Int :=
  match source with
  | .allied => -amount
  | .enemy => amount

theorem SupportSlot.rank_eq_cost (source : SupportSource) (rule : SupportRule) :
    SupportSlot.rank source rule = source.cost rule.bonus := by
  cases source <;> rfl

/-- Every bonus of `given` is matched in `other`: the same unit has one of the same bonus type at no
higher cost. -/
def Covers (source : SupportSource) (rules : List SupportRule) (given other : List Grant) : Prop :=
  ∀ grant ∈ given, ∀ bonusType id, grant.gives rules bonusType id →
    ∃ better ∈ other, better.gives rules bonusType id ∧
      source.cost better.amount ≤ source.cost grant.amount

variable {recipients supporters : List Combatant} {rules : List SupportRule} {side : Side}
  {pass : SupportPass} {source : SupportSource} {given other : List Grant} {slot : SupportSlot}

namespace Covers

theorem nil (other : List Grant) : Covers source rules [] other := by simp [Covers]

theorem append_right (h : Covers source rules given other) (more : List Grant) :
    Covers source rules given (other ++ more) := by
  intro grant hgrant bonusType id hgives
  obtain ⟨better, hbetter, hsame⟩ := h grant hgrant bonusType id hgives
  exact ⟨better, List.mem_append_left more hbetter, hsame⟩

theorem append {more : List Grant} (h : Covers source rules given other)
    (hmore : Covers source rules more other) : Covers source rules (given ++ more) other := by
  intro grant hgrant
  rcases List.mem_append.mp hgrant with hgrant | hgrant
  · exact h grant hgrant
  · exact hmore grant hgrant

theorem of_mem {grant : Grant} (h : grant ∈ other) : Covers source rules [grant] other := by
  intro same hsame bonusType id hgives
  cases List.mem_singleton.mp hsame
  exact ⟨_, h, hgives, Int.le_refl _⟩

theorem holds (h : Covers source rules given other) {bonusType : String} {id : Nat}
    (hholds : holdsGrant rules given bonusType id) : holdsGrant rules other bonusType id := by
  obtain ⟨grant, hgrant, hgives⟩ := List.any_eq_true.mp hholds
  obtain ⟨better, hbetter, hsame, _⟩ := h grant hgrant bonusType id hgives
  exact List.any_eq_true.mpr ⟨better, hbetter, hsame⟩

/-- A slot of the longer run alone. -/
theorem give_right (h : Covers source rules given other) (slot : SupportSlot) :
    Covers source rules given (pass.give recipients rules other slot) := by
  unfold SupportPass.give
  cases slot.recipient? recipients rules other with
  | none => exact h
  | some unit => exact h.append_right _

end Covers

/-- Whoever is the first without a grant is so after more grants, unless they went to it too. -/
theorem SupportSlot.recipient?_of_covers (h : Covers source rules given other) {unit : Combatant}
    (hunit : slot.recipient? recipients rules given = some unit)
    (hfree : holdsGrant rules other slot.rule.bonusType unit.id = false) :
    slot.recipient? recipients rules other = some unit := by
  obtain ⟨_, earlier, later, hsplit, hearlier⟩ := List.find?_eq_some_iff_append.mp hunit
  refine List.find?_eq_some_iff_append.mpr ⟨by simpa using hfree, earlier, later, hsplit, ?_⟩
  intro passed hpassed
  have hholds : holdsGrant rules given slot.rule.bonusType passed.id := by
    simpa using hearlier passed hpassed
  simp [h.holds hholds]

/-- A slot of both runs. The grants of the longer run cost no more than the slot, which comes after
those that gave them. -/
theorem Covers.give (h : Covers pass.source rules given other)
    (hslot : rules[slot.index]? = some slot.rule)
    (hcost : ∀ grant ∈ other, pass.source.cost grant.amount ≤ pass.source.cost slot.rule.bonus) :
    Covers pass.source rules (pass.give recipients rules given slot)
      (pass.give recipients rules other slot) := by
  cases hunit : slot.recipient? recipients rules given with
  | none =>
    rw [SupportPass.give, hunit]
    exact h.give_right slot
  | some unit =>
    have hgiven : pass.give recipients rules given slot = given ++ [slot.grantTo pass unit.id] := by
      rw [SupportPass.give, hunit]
    rw [hgiven]
    refine (h.give_right slot).append ?_
    cases hholds : holdsGrant rules other slot.rule.bonusType unit.id with
    | false =>
      rw [SupportPass.give, SupportSlot.recipient?_of_covers h hunit hholds]
      exact Covers.of_mem (by simp)
    | true =>
      refine Covers.give_right ?_ slot
      obtain ⟨better, hbetter, hsame⟩ := List.any_eq_true.mp hholds
      intro grant hgrant bonusType id hgives
      cases List.mem_singleton.mp hgrant
      obtain ⟨rfl, rfl⟩ := (gives_grantTo_iff hslot).mp hgives
      exact ⟨better, hbetter, hsame, hcost better hbetter⟩

namespace SupportPass

theorem cost_of_mem_give
    (h : ∀ grant ∈ given, source.cost grant.amount ≤ source.cost slot.rule.bonus) :
    ∀ grant ∈ pass.give recipients rules given slot,
      source.cost grant.amount ≤ source.cost slot.rule.bonus := by
  unfold give
  cases slot.recipient? recipients rules given with
  | none => exact h
  | some unit =>
    intro grant hgrant
    rcases List.mem_append.mp hgrant with hgrant | hgrant
    · exact h grant hgrant
    · cases List.mem_singleton.mp hgrant
      exact Int.le_refl _

/-- The grants given so far cost no more than the slots that are left; the order of use keeps
this. -/
theorem cost_le_of_mem_give {more : List SupportSlot}
    (hslot : ∀ later ∈ more, source.cost slot.rule.bonus ≤ source.cost later.rule.bonus)
    (hcost : ∀ next ∈ slot :: more, ∀ grant ∈ given,
      source.cost grant.amount ≤ source.cost next.rule.bonus) :
    ∀ later ∈ more, ∀ grant ∈ pass.give recipients rules given slot,
      source.cost grant.amount ≤ source.cost later.rule.bonus := by
  intro later hlater grant hgrant
  have hgiven := cost_of_mem_give (hcost slot List.mem_cons_self) grant hgrant
  exact Int.le_trans hgiven (hslot later hlater)

/-- More slots, used in their order, cover what fewer of them give. -/
theorem covers_foldl_give {slots more : List SupportSlot} (hsub : slots.Sublist more)
    (hsorted : more.Pairwise fun slot later =>
      pass.source.cost slot.rule.bonus ≤ pass.source.cost later.rule.bonus)
    (hmore : ∀ slot ∈ more, rules[slot.index]? = some slot.rule)
    (hcover : Covers pass.source rules given other)
    (hcost : ∀ slot ∈ more, ∀ grant ∈ other,
      pass.source.cost grant.amount ≤ pass.source.cost slot.rule.bonus) :
    Covers pass.source rules (slots.foldl (pass.give recipients rules) given)
      (more.foldl (pass.give recipients rules) other) := by
  induction hsub generalizing given other with
  | slnil => exact hcover
  | cons slot _ ih =>
    obtain ⟨hslot, hsorted⟩ := List.pairwise_cons.mp hsorted
    obtain ⟨_, hmore⟩ := List.forall_mem_cons.mp hmore
    exact ih hsorted hmore (hcover.give_right slot) (cost_le_of_mem_give hslot hcost)
  | cons_cons slot _ ih =>
    obtain ⟨hslot, hsorted⟩ := List.pairwise_cons.mp hsorted
    obtain ⟨hrule, hmore⟩ := List.forall_mem_cons.mp hmore
    have hnext := hcost slot List.mem_cons_self
    exact ih hsorted hmore (hcover.give hrule hnext) (cost_le_of_mem_give hslot hcost)

/-! ## The slots of more supporters -/

theorem sublist_ofRules {fewer : List Combatant} (h : fewer.Sublist supporters) :
    (SupportSlot.ofRules recipients fewer rules side pass).Sublist
      (SupportSlot.ofRules recipients supporters rules side pass) := by
  refine List.Sublist.flatMap_right _ fun ⟨rule, index⟩ _ => ?_
  dsimp only [SupportSlot.ofRule]
  split
  · exact (h.filter _).flatMap _
  · exact List.Sublist.refl _

theorem pairwise_ofRules :
    (SupportSlot.ofRules recipients supporters rules side pass).Pairwise fun slot later =>
      pass.source.cost slot.rule.bonus ≤ pass.source.cost later.rule.bonus := by
  rw [SupportSlot.ofRules_eq_sortOn]
  simp only [SupportSlot.rank_eq_cost]
  exact pairwise_sortOn (fun slot : SupportSlot => pass.source.cost slot.rule.bonus) _

theorem covers_allocate (hids : (recipients.map (·.id)).Nodup) {fewer : List Combatant}
    (h : fewer.Sublist supporters) :
    Covers pass.source rules (pass.allocate recipients fewer rules side)
      (pass.allocate recipients supporters rules side) := by
  rw [allocate_eq_greedy hids, allocate_eq_greedy hids]
  exact covers_foldl_give (sublist_ofRules h) pairwise_ofRules
    (fun _ => getElem?_of_mem_ofRules) (Covers.nil _) (by simp)

/-- Whether the pass gives a unit a bonus of the amount under the bonus type. -/
def Gives (pass : SupportPass) (recipients supporters : List Combatant) (rules : List SupportRule)
    (side : Side) (bonusType : String) (id : Nat) (amount : Int) : Prop :=
  ∃ grant ∈ pass.allocate recipients supporters rules side,
    grant.gives rules bonusType id ∧ grant.amount = amount

/-- With one supporter more, wherever it stands, a unit keeps its bonus or has a better one: no
smaller from allies, no larger from enemies. -/
theorem gives_insert_supporter (pass : SupportPass) (recipients before after : List Combatant)
    (unit : Combatant) (rules : List SupportRule) (side : Side)
    (hids : (recipients.map (·.id)).Nodup) (bonusType : String) (id : Nat) (amount : Int)
    (h : pass.Gives recipients (before ++ after) rules side bonusType id amount) :
    ∃ amount', pass.Gives recipients (before ++ unit :: after) rules side bonusType id amount' ∧
      (pass.source = .allied → amount ≤ amount') ∧ (pass.source = .enemy → amount' ≤ amount) := by
  obtain ⟨grant, hgrant, hgives, rfl⟩ := h
  have hsub : (before ++ after).Sublist (before ++ unit :: after) :=
    (List.Sublist.refl before).append (List.sublist_cons_self unit after)
  obtain ⟨better, hbetter, hsame, hcost⟩ :=
    covers_allocate hids hsub grant hgrant bonusType id hgives
  refine ⟨better.amount, ⟨better, hbetter, hsame, rfl⟩, fun hsource => ?_, fun hsource => ?_⟩
  · rw [hsource] at hcost
    exact Int.neg_le_neg_iff.mp hcost
  · rw [hsource] at hcost
    exact hcost

/-- Armour that joins the artillery takes its infantry, with a larger bonus. -/
theorem gives_insert_armour :
    let unit (id : Nat) (name : String) : Combatant := ⟨id, { name }, { name := "Germans" }⟩
    let recipients := [unit 0 "infantry", unit 1 "marine"]
    let rules := [SupportRule.strength "guns" "artillery" ["infantry", "marine"] 1 1,
      SupportRule.strength "tanks" "armour" ["infantry"] 2 1]
    let pass : SupportPass := ⟨.strength, .allied⟩
    (recipients.map (·.id)).Nodup ∧
      pass.Gives recipients [unit 2 "artillery"] rules .offense "default" 0 1 ∧
      ∃ amount, pass.Gives recipients [unit 3 "armour", unit 2 "artillery"] rules .offense
        "default" 0 amount ∧ 1 ≤ amount := by
  intro unit recipients rules pass
  have hids : (recipients.map (·.id)).Nodup := by decide
  have hgives : pass.Gives recipients [unit 2 "artillery"] rules .offense "default" 0 1 :=
    ⟨⟨0, 2, 0, .strength, .allied, 1⟩, by decide, by decide, rfl⟩
  obtain ⟨amount, hmore, hallied, _⟩ := gives_insert_supporter pass recipients []
    [unit 2 "artillery"] (unit 3 "armour") rules .offense hids "default" 0 1 hgives
  exact ⟨hids, hgives, amount, hmore, hallied rfl⟩

end SupportPass

end Salvo
