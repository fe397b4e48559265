import Salvo.Proofs.Support.Slots

/-! # Priority of bonuses

A supporter whose slots are not all used has nobody left to support: every unit that its rule
supports holds a bonus of the bonus type already, from a slot that came before
(`SupportPass.holds_of_unused_slot`).

Slots are used by the worth of their bonuses, then in the order of the rules and then in that of the
supporters (`SupportPass.pairwise_precedes_ofRules`), so what a unit held when the slot was lost
came from a slot of higher priority. Grants are never taken back. -/

namespace Salvo

namespace SupportPass

/-- The grant has priority over the slot. It is worth more, or it is worth the same and comes from
an earlier rule, or from the same rule and from a supporter that is not listed later. -/
def Precedes (pass : SupportPass) (supporters : List Combatant) (grant : Grant)
    (slot : SupportSlot) : Prop :=
  (match pass.source with
    | .allied => slot.rule.bonus < grant.amount
    | .enemy => grant.amount < slot.rule.bonus) ∨
  grant.amount = slot.rule.bonus ∧
    (grant.rule < slot.index ∨
      grant.rule = slot.index ∧
        (supporters.map (·.id)).idxOf grant.supporter ≤
          (supporters.map (·.id)).idxOf slot.supporter)

variable {recipients supporters : List Combatant} {rules : List SupportRule} {side : Side}
  {pass : SupportPass}

/-! ## The order of slots -/

theorem pairwise_idxOf_le (hids : (supporters.map (·.id)).Nodup) :
    supporters.Pairwise fun unit later =>
      (supporters.map (·.id)).idxOf unit.id ≤ (supporters.map (·.id)).idxOf later.id := by
  refine List.pairwise_iff_getElem.mpr fun i j hi hj hij => ?_
  have hindex (k : Nat) (hk : k < supporters.length) :
      (supporters.map (·.id)).idxOf supporters[k].id = k := by
    have hnth := hids.idxOf_getElem k (by rwa [List.length_map])
    rwa [List.getElem_map] at hnth
  rw [hindex i hi, hindex j hj]
  exact Nat.le_of_lt hij

theorem pairwise_precedes_ofRule (hids : (supporters.map (·.id)).Nodup) (rule : SupportRule)
    (index : Nat) :
    (SupportSlot.ofRule recipients supporters side pass rule index).Pairwise fun slot later =>
      ∀ id, pass.Precedes supporters (slot.grantTo pass id) later := by
  unfold SupportSlot.ofRule
  split
  · refine List.pairwise_flatMap.mpr ⟨fun unit _ => ?_, ?_⟩
    · exact List.pairwise_replicate.mpr (.inr fun _ => .inr ⟨rfl, .inr ⟨rfl, Nat.le_refl _⟩⟩)
    · refine ((pairwise_idxOf_le hids).filter _).imp fun hle slot hslot later hlater _ => ?_
      rw [List.eq_of_mem_replicate hslot, List.eq_of_mem_replicate hlater]
      exact .inr ⟨rfl, .inr ⟨rfl, hle⟩⟩
  · exact .nil

/-- What a slot gives has priority over all slots after it. -/
theorem pairwise_precedes_ofRules (hids : (supporters.map (·.id)).Nodup) :
    (SupportSlot.ofRules recipients supporters rules side pass).Pairwise fun slot later =>
      ∀ id, pass.Precedes supporters (slot.grantTo pass id) later := by
  -- The sort is stable, so that rules of one worth stay in the order of their indices.
  have hindices : rules.zipIdx.Pairwise fun entry later => entry.2 < later.2 := by
    refine List.pairwise_map.mp (?_ : (rules.zipIdx.map (·.2)).Pairwise (· < ·))
    rw [List.zipIdx_map_snd]
    exact List.pairwise_lt_range' ..
  refine List.pairwise_flatMap.mpr ⟨fun entry _ => pairwise_precedes_ofRule hids _ _, ?_⟩
  refine (pairwise_sortOn_of_pairwise (fun entry : SupportRule × Nat =>
    SupportSlot.rank pass.source entry.1) hindices).imp ?_
  rintro ⟨rule, index⟩ ⟨laterRule, laterIndex⟩ horder slot hslot later hlater id
  obtain ⟨-, _, -, -, -, rfl⟩ := mem_ofRule hslot
  obtain ⟨-, _, -, -, -, rfl⟩ := mem_ofRule hlater
  rcases horder with hlt | ⟨heq, hlt⟩
  · refine .inl ?_
    cases hsource : pass.source <;> simp only [hsource, SupportSlot.rank] at hlt
    · exact Int.neg_lt_neg_iff.mp hlt
    · exact hlt
  · refine .inr ⟨?_, .inl hlt⟩
    cases hsource : pass.source <;> simp only [hsource, SupportSlot.rank] at heq
    · exact Int.neg_inj.mp heq
    · exact heq

/-! ## Lost slots -/

/-- When a slot is lost each unit of its types holds a grant that has priority over it. -/
theorem exists_precedes_of_lost {earlier later : List SupportSlot} {slot : SupportSlot}
    (hsorted : (earlier ++ slot :: later).Pairwise fun slot later =>
      ∀ id, pass.Precedes supporters (slot.grantTo pass id) later)
    (hlost : slot.recipient? recipients rules (pass.greedy recipients rules earlier) = none)
    {unit : Combatant} (hunit : unit ∈ recipients)
    (hsupports : slot.rule.supports unit.typeName) :
    ∃ grant ∈ pass.greedy recipients rules (earlier ++ slot :: later),
      grant.gives rules slot.rule.bonusType unit.id ∧ pass.Precedes supporters grant slot := by
  have hholds := SupportSlot.recipient?_eq_none_iff.mp hlost unit hunit hsupports
  obtain ⟨grant, hgrant, hgives⟩ := List.any_eq_true.mp hholds
  refine ⟨grant, (prefix_greedy_append earlier (slot :: later)).subset hgrant, hgives, ?_⟩
  rcases mem_foldl_give hgrant with hnone | ⟨first, hfirst, served, -, -, rfl⟩
  · exact absurd hnone List.not_mem_nil
  · exact (List.pairwise_append.mp hsorted).2.2 first hfirst slot List.mem_cons_self served.id

/-- No use of a rule goes to waste. If a supporter has given the support of a rule less often than
it could, then every unit that the rule supports holds a bonus of the bonus type, and it is one that
has priority over what the supporter could give. -/
theorem holds_of_unused_slot (pass : SupportPass) (recipients supporters : List Combatant)
    (rules : List SupportRule) (side : Side) (hrecipients : (recipients.map (·.id)).Nodup)
    (hsupporters : (supporters.map (·.id)).Nodup) {index : Nat} {rule : SupportRule}
    (hrule : rules[index]? = some rule) (happlies : rule.appliesTo pass.kind pass.source side)
    {supporter : Combatant} (hsupporter : supporter ∈ supporters)
    (htype : supporter.typeName = rule.supporter) (howner : rule.canBeGivenBy supporter.owner)
    (hunused : (pass.allocate recipients supporters rules side).countP
      (·.isFrom index supporter.id) < rule.capacityFor supporter.owner)
    {unit : Combatant} (hunit : unit ∈ recipients) (hsupports : rule.supports unit.typeName) :
    ∃ grant ∈ pass.allocate recipients supporters rules side,
      grant.gives rules rule.bonusType unit.id ∧
        pass.Precedes supporters grant { index, rule, supporter := supporter.id } := by
  rw [allocate_eq_greedy hrecipients] at hunused ⊢
  have hslots : (SupportSlot.ofRules recipients supporters rules side pass).countP
      (·.isFrom index supporter.id) = rule.capacityFor supporter.owner := by
    rw [countP_isFrom_ofRules hsupporters hsupporter hrule, if_pos]
    have hany : recipients.any fun other => rule.supports other.typeName :=
      List.any_eq_true.mpr ⟨unit, hunit, hsupports⟩
    simp only [happlies, hany, htype, howner, BEq.rfl, Bool.and_self]
  obtain ⟨earlier, slot, later, hsplit, hfrom, hlost⟩ :=
    exists_lost_of_countP_lt_greedy (hslots.symm ▸ hunused)
  have hslot : slot = { index, rule, supporter := supporter.id } := by
    have hmem : slot ∈ SupportSlot.ofRules recipients supporters rules side pass := by
      rw [hsplit]
      exact List.mem_append_right _ List.mem_cons_self
    obtain ⟨slotIndex, slotRule, slotSupporter⟩ := slot
    obtain ⟨rfl, rfl⟩ : slotIndex = index ∧ slotSupporter = supporter.id := by
      simpa [SupportSlot.isFrom] using hfrom
    have hsame := getElem?_of_mem_ofRules hmem
    rw [hrule] at hsame
    cases hsame
    rfl
  subst hslot
  rw [hsplit]
  refine exists_precedes_of_lost ?_ hlost hunit hsupports
  rw [← hsplit]
  exact pairwise_precedes_ofRules hsupporters

/-- The second artillery is left without a use. The infantry holds the bonus of the first, and the
marine the larger one of the armour. -/
theorem holds_of_second_artillery :
    let unit (id : Nat) (name : String) : Combatant := ⟨id, { name }, { name := "Germans" }⟩
    let recipients := [unit 0 "marine", unit 1 "infantry"]
    let supporters := [unit 2 "artillery", unit 3 "armour", unit 4 "artillery"]
    let rule := SupportRule.strength "guns" "artillery" ["infantry", "marine"] 1 1
    let rules := [rule, SupportRule.strength "tanks" "armour" ["marine"] 2 1]
    let pass : SupportPass := ⟨.strength, .allied⟩
    (recipients.map (·.id)).Nodup ∧ (supporters.map (·.id)).Nodup ∧
      (pass.allocate recipients supporters rules .offense).countP (·.isFrom 0 4) < rule.capacity ∧
      ∀ recipient ∈ recipients, ∃ grant ∈ pass.allocate recipients supporters rules .offense,
        grant.gives rules "default" recipient.id ∧
          pass.Precedes supporters grant { index := 0, rule, supporter := 4 } := by
  intro unit recipients supporters rule rules pass
  have hrecipients : (recipients.map (·.id)).Nodup := by decide
  have hsupporters : (supporters.map (·.id)).Nodup := by decide
  have hunused : (pass.allocate recipients supporters rules .offense).countP (·.isFrom 0 4) <
      rule.capacity := by decide
  have hmem : unit 4 "artillery" ∈ supporters := by decide
  have hrule : rules[0]? = some rule := rfl
  have hsupports : ∀ recipient ∈ recipients, rule.supports recipient.typeName := by decide
  refine ⟨hrecipients, hsupporters, hunused, fun recipient hrecipient => ?_⟩
  exact holds_of_unused_slot pass recipients supporters rules .offense hrecipients hsupporters hrule
    rfl hmem rfl rfl hunused hrecipient (hsupports recipient hrecipient)

end SupportPass

end Salvo
