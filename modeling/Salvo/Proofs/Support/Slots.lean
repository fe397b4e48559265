import Salvo.Proofs.Support.Greedy

/-! # What slots give

A slot in its turn serves a unit of its types that has no grant of its bonus type yet, or it is lost
because all of them have one (`SupportPass.give_cases`). All that a run of slots gives follows from
this: each grant is that of a slot, no unit has two grants of one bonus type, and a supporter has no
more grants from a rule than slots. If it has fewer, then one of its slots was lost.

Every supporter has as many slots from a rule as the rule has capacity for its owner
(`SupportPass.countP_isFrom_ofRules`). -/

namespace Salvo

/-- The grant was made by the supporter under the rule with the index. -/
def Grant.isFrom (grant : Grant) (index supporter : Nat) : Bool :=
  grant.rule == index && grant.supporter == supporter

def SupportSlot.isFrom (slot : SupportSlot) (index supporter : Nat) : Bool :=
  slot.index == index && slot.supporter == supporter

variable {recipients supporters : List Combatant} {rules : List SupportRule} {side : Side}
  {pass : SupportPass} {slot : SupportSlot} {slots : List SupportSlot} {given : List Grant}

namespace SupportSlot

@[simp] theorem isFrom_grantTo (slot : SupportSlot) (pass : SupportPass)
    (id index supporter : Nat) :
    (slot.grantTo pass id).isFrom index supporter = slot.isFrom index supporter := rfl

theorem of_recipient?_eq_some {unit : Combatant}
    (h : slot.recipient? recipients rules given = some unit) :
    unit ∈ recipients ∧ slot.rule.supports unit.typeName ∧
      holdsGrant rules given slot.rule.bonusType unit.id = false := by
  obtain ⟨hunit, htype⟩ := mem_unitsOfTypes.mp (List.mem_of_find?_eq_some h)
  have hfree := List.find?_some h
  exact ⟨hunit, by simpa [SupportRule.supports] using htype, by simpa using hfree⟩

end SupportSlot

namespace SupportPass

/-! ## One slot -/

/-- A slot is lost, or it serves a unit that has no grant of the bonus type yet. -/
theorem give_cases (pass : SupportPass) (recipients : List Combatant) (rules : List SupportRule)
    (given : List Grant) (slot : SupportSlot) :
    (slot.recipient? recipients rules given = none ∧
      pass.give recipients rules given slot = given) ∨
    ∃ unit ∈ recipients, slot.rule.supports unit.typeName ∧
      holdsGrant rules given slot.rule.bonusType unit.id = false ∧
      pass.give recipients rules given slot = given ++ [slot.grantTo pass unit.id] := by
  cases hunit : slot.recipient? recipients rules given with
  | none => exact .inl ⟨rfl, by rw [give, hunit]⟩
  | some unit =>
    obtain ⟨hmem, hsupports, hfree⟩ := SupportSlot.of_recipient?_eq_some hunit
    exact .inr ⟨unit, hmem, hsupports, hfree, by rw [give, hunit]⟩

theorem prefix_give (given : List Grant) (slot : SupportSlot) :
    given <+: pass.give recipients rules given slot := by
  obtain ⟨-, hgive⟩ | ⟨unit, -, -, -, hgive⟩ := pass.give_cases recipients rules given slot
  · exact ⟨[], by rw [hgive, List.append_nil]⟩
  · exact ⟨_, hgive.symm⟩

/-- No unit gets a second grant of a bonus type. -/
theorem countP_gives_give_le_one (hslot : rules[slot.index]? = some slot.rule)
    (h : ∀ bonusType id, given.countP (·.gives rules bonusType id) ≤ 1) (bonusType : String)
    (id : Nat) :
    (pass.give recipients rules given slot).countP (·.gives rules bonusType id) ≤ 1 := by
  obtain ⟨-, hgive⟩ | ⟨unit, -, -, hfree, hgive⟩ := pass.give_cases recipients rules given slot
  · rw [hgive]
    exact h bonusType id
  · rw [hgive, List.countP_append, List.countP_singleton]
    split
    · rename_i hgives
      obtain ⟨rfl, rfl⟩ := (gives_grantTo_iff hslot).mp hgives
      have hnone : given.countP (·.gives rules slot.rule.bonusType unit.id) = 0 :=
        List.countP_eq_zero.mpr fun grant hgrant =>
          List.any_eq_false.mp hfree grant hgrant
      omega
    · exact h bonusType id

/-! ## A run of slots -/

theorem prefix_foldl_give (given : List Grant) (slots : List SupportSlot) :
    given <+: slots.foldl (pass.give recipients rules) given := by
  induction slots generalizing given with
  | nil => exact List.prefix_rfl
  | cons slot slots ih => exact (prefix_give given slot).trans (ih _)

/-- Later slots take nothing back. -/
theorem prefix_greedy_append (earlier later : List SupportSlot) :
    pass.greedy recipients rules earlier <+: pass.greedy recipients rules (earlier ++ later) := by
  rw [greedy, greedy, List.foldl_append]
  exact prefix_foldl_give ..

/-- Each grant is that of a slot, to a unit of the types that the rule supports. -/
theorem mem_foldl_give {grant : Grant}
    (h : grant ∈ slots.foldl (pass.give recipients rules) given) :
    grant ∈ given ∨ ∃ slot ∈ slots, ∃ unit ∈ recipients, slot.rule.supports unit.typeName ∧
      grant = slot.grantTo pass unit.id := by
  induction slots generalizing given with
  | nil => exact .inl h
  | cons slot slots ih =>
    rcases ih h with hgrant | ⟨later, hlater, hserved⟩
    · obtain ⟨-, hgive⟩ | ⟨unit, hunit, hsupports, -, hgive⟩ :=
        pass.give_cases recipients rules given slot
      · rw [hgive] at hgrant
        exact .inl hgrant
      · rw [hgive] at hgrant
        rcases List.mem_append.mp hgrant with hgrant | hgrant
        · exact .inl hgrant
        · have heq := List.mem_singleton.mp hgrant
          exact .inr ⟨slot, List.mem_cons_self, unit, hunit, hsupports, heq⟩
    · exact .inr ⟨later, List.mem_cons_of_mem _ hlater, hserved⟩

theorem countP_gives_foldl_give_le_one
    (hslots : ∀ slot ∈ slots, rules[slot.index]? = some slot.rule)
    (h : ∀ bonusType id, given.countP (·.gives rules bonusType id) ≤ 1) (bonusType : String)
    (id : Nat) :
    (slots.foldl (pass.give recipients rules) given).countP (·.gives rules bonusType id) ≤ 1 := by
  induction slots generalizing given with
  | nil => exact h bonusType id
  | cons slot slots ih =>
    obtain ⟨hslot, hslots⟩ := List.forall_mem_cons.mp hslots
    exact ih hslots (countP_gives_give_le_one hslot h)

/-- A supporter has no more grants from a rule than it had slots. -/
theorem countP_isFrom_foldl_give_le (given : List Grant) (slots : List SupportSlot)
    (index supporter : Nat) :
    (slots.foldl (pass.give recipients rules) given).countP (·.isFrom index supporter) ≤
      given.countP (·.isFrom index supporter) + slots.countP (·.isFrom index supporter) := by
  induction slots generalizing given with
  | nil => exact Nat.le_refl _
  | cons slot slots ih =>
    refine Nat.le_trans (ih _) ?_
    rw [List.countP_cons]
    obtain ⟨-, hgive⟩ | ⟨unit, -, -, -, hgive⟩ := pass.give_cases recipients rules given slot
    · rw [hgive]
      omega
    · rw [hgive, List.countP_append, List.countP_singleton, SupportSlot.isFrom_grantTo]
      omega

/-- A supporter that has fewer grants from a rule than slots has lost one of the slots. -/
theorem exists_lost_of_countP_lt {index supporter : Nat}
    (h : (slots.foldl (pass.give recipients rules) given).countP (·.isFrom index supporter) <
      given.countP (·.isFrom index supporter) + slots.countP (·.isFrom index supporter)) :
    ∃ earlier slot later, slots = earlier ++ slot :: later ∧ slot.isFrom index supporter ∧
      slot.recipient? recipients rules (earlier.foldl (pass.give recipients rules) given) =
        none := by
  induction slots generalizing given with
  | nil => exact absurd h (Nat.lt_irrefl _)
  | cons slot slots ih =>
    rw [List.foldl_cons, List.countP_cons] at h
    by_cases hlost : slot.isFrom index supporter ∧ slot.recipient? recipients rules given = none
    · exact ⟨[], slot, slots, rfl, hlost.1, hlost.2⟩
    · -- What this slot lacks in grants it lacks in use too, so the rest is short as well.
      have hnext : (slots.foldl (pass.give recipients rules)
            (pass.give recipients rules given slot)).countP (·.isFrom index supporter) <
          (pass.give recipients rules given slot).countP (·.isFrom index supporter) +
            slots.countP (·.isFrom index supporter) := by
        obtain ⟨hnone, hgive⟩ | ⟨unit, -, -, -, hgive⟩ :=
          pass.give_cases recipients rules given slot
        · rw [hgive] at h ⊢
          rw [if_neg fun hfrom => hlost ⟨hfrom, hnone⟩] at h
          omega
        · rw [hgive] at h ⊢
          rw [List.countP_append, List.countP_singleton, SupportSlot.isFrom_grantTo]
          omega
      obtain ⟨earlier, lost, later, rfl, hfrom, hnone⟩ := ih hnext
      exact ⟨slot :: earlier, lost, later, rfl, hfrom, hnone⟩

theorem exists_lost_of_countP_lt_greedy {index supporter : Nat}
    (h : (pass.greedy recipients rules slots).countP (·.isFrom index supporter) <
      slots.countP (·.isFrom index supporter)) :
    ∃ earlier slot later, slots = earlier ++ slot :: later ∧ slot.isFrom index supporter ∧
      slot.recipient? recipients rules (pass.greedy recipients rules earlier) = none :=
  exists_lost_of_countP_lt (Nat.lt_of_lt_of_eq h (Nat.zero_add _).symm)

/-! ## The slots of a pass -/

/-- Of blocks that are told apart by a key only one counts. -/
theorem countP_flatMap_of_nodup {α β κ : Type} (key : α → κ) {f : α → List β} {p : β → Bool}
    {xs : List α} (hkeys : (xs.map key).Nodup) {x : α} (hx : x ∈ xs)
    (hother : ∀ y ∈ xs, key y ≠ key x → (f y).countP p = 0) :
    (xs.flatMap f).countP p = (f x).countP p := by
  obtain ⟨before, after, rfl⟩ := List.append_of_mem hx
  rw [List.map_append, List.map_cons, List.nodup_middle, List.nodup_cons,
    ← List.map_append] at hkeys
  have hrest : ∀ y ∈ before ++ after, (f y).countP p = 0 := by
    intro y hy
    refine hother y ?_ fun heq => hkeys.1 (heq ▸ List.mem_map_of_mem hy)
    exact List.perm_middle.mem_iff.mpr (List.mem_cons_of_mem x hy)
  have hnone : ((before ++ after).flatMap f).countP p = 0 := by
    rw [List.countP_eq_zero]
    intro z hz
    obtain ⟨y, hy, hz⟩ := List.mem_flatMap.mp hz
    exact List.countP_eq_zero.mp (hrest y hy) z hz
  rw [List.flatMap_append, List.countP_append] at hnone
  rw [List.flatMap_append, List.flatMap_cons, List.countP_append, List.countP_append]
  omega

theorem mem_ofRule {rule : SupportRule} {index : Nat}
    (h : slot ∈ SupportSlot.ofRule recipients supporters side pass rule index) :
    rule.appliesTo pass.kind pass.source side ∧ ∃ unit ∈ supporters,
      unit.typeName = rule.supporter ∧ rule.canBeGivenBy unit.owner ∧
      slot = { index, rule, supporter := unit.id } := by
  unfold SupportSlot.ofRule at h
  split at h
  · rename_i happlies
    obtain ⟨unit, hunit, hslot⟩ := List.mem_flatMap.mp h
    obtain ⟨hmem, hgiver⟩ := List.mem_filter.mp hunit
    obtain ⟨htype, howner⟩ := Bool.and_eq_true_iff.mp hgiver
    exact ⟨(Bool.and_eq_true_iff.mp happlies).1, unit, hmem, beq_iff_eq.mp htype, howner,
      List.eq_of_mem_replicate hslot⟩
  · simp at h

/-- The slots of a pass are those of rules that take part, given by units that may give them. -/
theorem mem_ofRules (h : slot ∈ SupportSlot.ofRules recipients supporters rules side pass) :
    rules[slot.index]? = some slot.rule ∧ slot.rule.appliesTo pass.kind pass.source side ∧
      ∃ unit ∈ supporters, unit.typeName = slot.rule.supporter ∧
        slot.rule.canBeGivenBy unit.owner ∧ slot.supporter = unit.id := by
  refine ⟨getElem?_of_mem_ofRules h, ?_⟩
  obtain ⟨⟨rule, index⟩, -, hslot⟩ := List.mem_flatMap.mp h
  obtain ⟨happlies, unit, hunit, htype, howner, rfl⟩ := mem_ofRule hslot
  exact ⟨happlies, unit, hunit, htype, howner, rfl⟩

variable {rule : SupportRule} {index : Nat} {supporter : Combatant}

/-- The slots of a supporter from one rule. -/
theorem countP_isFrom_ofRule (hids : (supporters.map (·.id)).Nodup)
    (hsupporter : supporter ∈ supporters) :
    (SupportSlot.ofRule recipients supporters side pass rule index).countP
        (·.isFrom index supporter.id) =
      if rule.appliesTo pass.kind pass.source side &&
          recipients.any (fun unit => rule.supports unit.typeName) &&
          (supporter.typeName == rule.supporter && rule.canBeGivenBy supporter.owner) then
        rule.capacityFor supporter.owner
      else 0 := by
  have hblock (unit : Combatant) : (List.replicate (rule.capacityFor unit.owner)
        ({ index, rule, supporter := unit.id } : SupportSlot)).countP
        (·.isFrom index supporter.id) =
      if unit.id = supporter.id then rule.capacityFor unit.owner else 0 := by
    rw [List.countP_replicate]
    simp [SupportSlot.isFrom]
  have hother : ∀ unit ∈ supporters, unit.id = supporter.id → unit = supporter :=
    fun unit hunit heq => List.inj_on_of_nodup_map hids hunit hsupporter heq
  unfold SupportSlot.ofRule
  split
  · rename_i happlies
    rw [happlies, Bool.true_and]
    split
    · rename_i hgiver
      have hsub := (List.filter_sublist (p := fun unit : Combatant =>
        unit.typeName == rule.supporter && rule.canBeGivenBy unit.owner) (l := supporters)).map
          (·.id)
      refine (countP_flatMap_of_nodup (·.id) (hsub.nodup hids)
        (List.mem_filter.mpr ⟨hsupporter, hgiver⟩) fun unit _ hne => ?_).trans ?_
      · rw [hblock, if_neg hne]
      · rw [hblock, if_pos rfl]
    · rename_i hgiver
      refine List.countP_eq_zero.mpr fun slot hslot hfrom => ?_
      obtain ⟨unit, hunit, hslot⟩ := List.mem_flatMap.mp hslot
      obtain ⟨hmem, hgives⟩ := List.mem_filter.mp hunit
      rw [List.eq_of_mem_replicate hslot] at hfrom
      have heq : unit.id = supporter.id := by simpa [SupportSlot.isFrom] using hfrom
      exact hgiver (hother unit hmem heq ▸ hgives)
  · rename_i happlies
    simp only [(Bool.not_eq_true _).mp happlies, Bool.false_and, Bool.false_eq_true, if_false,
      List.countP_nil]

theorem nodup_snd_sortOn_zipIdx (key : SupportRule × Nat → Int) :
    ((sortOn key rules.zipIdx).map (·.2)).Nodup := by
  refine ((perm_sortOn key rules.zipIdx).map (·.2)).nodup_iff.mpr ?_
  rw [List.zipIdx_map_snd]
  exact List.nodup_range' ..

/-- A supporter has as many slots from a rule as the rule has capacity for its owner, if the rule
takes part and the supporter may give its support. -/
theorem countP_isFrom_ofRules (hids : (supporters.map (·.id)).Nodup)
    (hsupporter : supporter ∈ supporters) (hrule : rules[index]? = some rule) :
    (SupportSlot.ofRules recipients supporters rules side pass).countP
        (·.isFrom index supporter.id) =
      if rule.appliesTo pass.kind pass.source side &&
          recipients.any (fun unit => rule.supports unit.typeName) &&
          (supporter.typeName == rule.supporter && rule.canBeGivenBy supporter.owner) then
        rule.capacityFor supporter.owner
      else 0 := by
  rw [← countP_isFrom_ofRule hids hsupporter]
  have hmem : (rule, index) ∈ sortOn (fun entry : SupportRule × Nat =>
      SupportSlot.rank pass.source entry.1) rules.zipIdx :=
    mem_sortOn.mpr (List.mem_zipIdx_iff_getElem?.mpr hrule)
  refine countP_flatMap_of_nodup (·.2) (nodup_snd_sortOn_zipIdx _) hmem fun ⟨_, _⟩ _ hne => ?_
  refine List.countP_eq_zero.mpr fun slot hslot hfrom => hne ?_
  obtain ⟨-, _, -, -, -, rfl⟩ := mem_ofRule hslot
  exact (by simpa [SupportSlot.isFrom] using hfrom : _ ∧ _).1

end SupportPass

end Salvo
