import Mathlib.Data.List.Forall2
import Salvo.Proofs.Power.SupportedPower
import Salvo.Proofs.Roster.Groups
import Salvo.Proofs.Support.BonusTypes

/-! # The order of rosters

Support does not depend on the order in which supporters are listed, nor on how recipients of
different types are mixed, as long as those of one type keep their order. The grants are the same
one by one, but for the units that give them (`allocate_of_interleaved`).

A line holds recipients of one type only, so that mixing the types changes no line. Other orders of
the supporters change who offers a slot; which rules the slots belong to stays as it is, since every
rule has as many slots as before and slots are sorted by their rules. -/

namespace Salvo

/-- The grants give the same unit the same bonus. Their supporters may differ. -/
structure Grant.SameBonus (grant other : Grant) : Prop where
  rule_eq : grant.rule = other.rule
  recipient_eq : grant.recipient = other.recipient
  kind_eq : grant.kind = other.kind
  source_eq : grant.source = other.source
  amount_eq : grant.amount = other.amount

/-- The rosters have the same units of each type, and in the same order. -/
def SameByType (roster other : List Combatant) : Prop :=
  ∀ name, Combatant.ofType name roster = Combatant.ofType name other

/-- The slots belong to the same rule of a list. -/
structure SupportSlot.SameRule (slot other : SupportSlot) : Prop where
  index_eq : slot.index = other.index
  rule_eq : slot.rule = other.rule

variable {recipients recipients' supporters supporters' : List Combatant}
  {rules : List SupportRule} {side : Side} {pass : SupportPass}

theorem SupportSlot.SameRule.sameBonus {slot other : SupportSlot} (h : slot.SameRule other)
    (id : Nat) : (slot.grantTo pass id).SameBonus (other.grantTo pass id) where
  rule_eq := h.index_eq
  recipient_eq := rfl
  kind_eq := rfl
  source_eq := rfl
  amount_eq := congrArg SupportRule.bonus h.rule_eq

/-! ## The lines -/

namespace WaitingRoom

variable {room room' : WaitingRoom}

theorem agrees_empty (h : SameByType recipients' recipients) (bonusType : String) :
    Agrees {} recipients' {} recipients bonusType := fun typeName =>
  congrArg (List.map fun unit : Combatant => unit.id) (h typeName)

/-- Slots of the same rules serve the same units from rooms with the same lines. -/
theorem forall₂_handOut (h : ∀ bonusType, room.Agrees recipients room' recipients' bonusType)
    {slots slots' : List SupportSlot} (hslots : List.Forall₂ SupportSlot.SameRule slots slots') :
    List.Forall₂ Grant.SameBonus (room.handOut pass recipients slots)
      (room'.handOut pass recipients' slots') := by
  induction hslots generalizing room room' with
  | nil => exact .nil
  | @cons slot slot' slots slots' hsame _ ih =>
    obtain ⟨hserved, hafter⟩ := (h slot.rule.bonusType).serve slot.rule.supported
    rw [handOut_cons, handOut_cons, ← hsame.rule_eq, ← hserved]
    apply List.rel_append _ (ih fun bonusType => hafter bonusType (h bonusType))
    cases (room.serve recipients slot.rule.bonusType slot.rule.supported).1 with
    | none => exact .nil
    | some id => exact .cons (hsame.sameBonus id) .nil

end WaitingRoom

/-! ## The slots -/

theorem SameByType.mem_iff (h : SameByType recipients' recipients) {unit : Combatant} :
    unit ∈ recipients' ↔ unit ∈ recipients := by
  have hmem (roster : List Combatant) :
      unit ∈ roster ↔ unit ∈ Combatant.ofType unit.typeName roster := by
    rw [Combatant.ofType, List.mem_filter, and_iff_left BEq.rfl]
  rw [hmem recipients', hmem recipients, h]

theorem SameByType.any_eq (h : SameByType recipients' recipients) (p : Combatant → Bool) :
    recipients'.any p = recipients.any p := by
  rw [Bool.eq_iff_iff, List.any_eq_true, List.any_eq_true]
  simp only [h.mem_iff]

namespace SupportPass

/-- A rule has as many slots as before, in whatever order its supporters are listed. -/
theorem forall₂_ofRule (h : SameByType recipients' recipients) (hperm : supporters'.Perm supporters)
    (rule : SupportRule) (index : Nat) :
    List.Forall₂ SupportSlot.SameRule
      (SupportSlot.ofRule recipients' supporters' side pass rule index)
      (SupportSlot.ofRule recipients supporters side pass rule index) := by
  have hlength : (SupportSlot.ofRule recipients' supporters' side pass rule index).length =
      (SupportSlot.ofRule recipients supporters side pass rule index).length := by
    unfold SupportSlot.ofRule
    rw [h.any_eq]
    split
    · exact ((hperm.filter _).flatMap_right _).length_eq
    · rfl
  apply List.forall₂_iff_get.mpr
  refine ⟨hlength, fun i hi hi' => ?_⟩
  obtain ⟨-, _, -, -, -, hslot⟩ := mem_ofRule (List.get_mem _ ⟨i, hi⟩)
  obtain ⟨-, _, -, -, -, hslot'⟩ := mem_ofRule (List.get_mem _ ⟨i, hi'⟩)
  rw [hslot, hslot']
  exact ⟨rfl, rfl⟩

theorem forall₂_ofRules (h : SameByType recipients' recipients)
    (hperm : supporters'.Perm supporters) :
    List.Forall₂ SupportSlot.SameRule
      (SupportSlot.ofRules recipients' supporters' rules side pass)
      (SupportSlot.ofRules recipients supporters rules side pass) := by
  apply List.rel_flatMap (List.forall₂_same.mpr fun _ _ => rfl)
  rintro ⟨rule, index⟩ _ rfl
  exact forall₂_ofRule h hperm rule index

theorem forall₂_allocate (h : SameByType recipients' recipients)
    (hperm : supporters'.Perm supporters) :
    List.Forall₂ Grant.SameBonus (pass.allocate recipients' supporters' rules side)
      (pass.allocate recipients supporters rules side) :=
  WaitingRoom.forall₂_handOut (WaitingRoom.agrees_empty h) (forall₂_ofRules h hperm)

end SupportPass

/-! ## The records -/

theorem Grant.applyAll_eq_of_forall₂ {grants others : List Grant}
    (h : List.Forall₂ SameBonus grants others) (records : ByUnit Might) :
    applyAll grants records = applyAll others records := by
  induction h generalizing records with
  | nil => rfl
  | @cons grant other grants others hsame _ ih =>
    have hfirst : grant.applyTo records = other.applyTo records := by
      rw [applyTo, applyTo, hsame.recipient_eq, hsame.kind_eq, hsame.amount_eq]
    calc applyAll (grant :: grants) records
        = applyAll grants (other.applyTo records) := congrArg (applyAll grants) hfirst
      _ = applyAll (other :: others) records := ih _

theorem SupportPass.perm_supporters {allies allies' enemies enemies' : List Combatant}
    (hallies : allies'.Perm allies) (henemies : enemies'.Perm enemies) (pass : SupportPass) :
    (pass.supporters allies' enemies').Perm (pass.supporters allies enemies) := by
  unfold supporters
  cases pass.source with
  | allied => exact hallies
  | enemy => exact henemies

/-- However the supporters are listed and recipients of different types are mixed, a pass gives the
same bonuses in the same order, and support leaves the same records. -/
theorem allocate_of_interleaved (recipients recipients' : List Combatant)
    (rules : List SupportRule) (side : Side) (hrecipients : SameByType recipients' recipients) :
    (∀ (pass : SupportPass) (supporters supporters' : List Combatant),
      supporters'.Perm supporters →
        List.Forall₂ Grant.SameBonus (pass.allocate recipients' supporters' rules side)
          (pass.allocate recipients supporters rules side)) ∧
    ∀ (allies allies' enemies enemies' : List Combatant) (base : ByUnit Might),
      allies'.Perm allies → enemies'.Perm enemies →
        (runSupportPasses recipients' allies' enemies' rules side base).records =
          (runSupportPasses recipients allies enemies rules side base).records := by
  constructor
  · intro pass supporters supporters' hperm
    exact SupportPass.forall₂_allocate hrecipients hperm
  · intro allies allies' enemies enemies' base hallies henemies
    rw [records_runSupportPasses, records_runSupportPasses]
    apply Grant.applyAll_eq_of_forall₂
    rw [grants_runSupportPasses, grants_runSupportPasses]
    apply List.rel_flatMap (List.forall₂_same.mpr fun _ _ => rfl)
    rintro pass _ rfl
    exact SupportPass.forall₂_allocate hrecipients (pass.perm_supporters hallies henemies)

/-- Two artillery on a beach, listed the other way round, and marines among the infantry. The
artillery changes places, and the bonuses stay where they are. -/
theorem allocate_of_shuffled_landing :
    let unit (id : Nat) (name : String) : Combatant := ⟨id, { name }, { name := "Germans" }⟩
    let recipients := [unit 0 "infantry", unit 1 "infantry", unit 2 "marine"]
    let recipients' := [unit 0 "infantry", unit 2 "marine", unit 1 "infantry"]
    let allies := [unit 3 "artillery", unit 4 "artillery"]
    let enemies := [unit 5 "bunker"]
    let rules := [SupportRule.strength "guns" "artillery" ["marine", "infantry"] 1 1,
      (SupportRule.rolls "cover" "bunker" ["infantry", "marine"] (-1) 2).againstEnemies]
    let pass : SupportPass := ⟨.strength, .allied⟩
    let base : ByUnit Might := ByUnit.ofUnits recipients fun _ => { strength := 1, rolls := 1 }
    SameByType recipients' recipients ∧
      pass.allocate recipients' allies.reverse rules .offense =
        [⟨0, 4, 2, .strength, .allied, 1⟩, ⟨0, 3, 0, .strength, .allied, 1⟩] ∧
      List.Forall₂ Grant.SameBonus (pass.allocate recipients' allies.reverse rules .offense)
        (pass.allocate recipients allies rules .offense) ∧
      (runSupportPasses recipients' allies.reverse enemies rules .offense base).records =
        (runSupportPasses recipients allies enemies rules .offense base).records := by
  intro unit recipients recipients' allies enemies rules pass base
  have hrecipients : SameByType recipients' recipients := by
    intro name
    by_cases hmarine : "marine" = name
    · subst hmarine
      rfl
    · simp [Combatant.ofType, recipients, recipients', unit, Combatant.typeName, List.filter_cons,
        hmarine]
  obtain ⟨hgrants, hrecords⟩ := allocate_of_interleaved recipients recipients' rules .offense
    hrecipients
  have hallies : allies.reverse.Perm allies := List.reverse_perm allies
  exact ⟨hrecipients, by decide, hgrants pass allies allies.reverse hallies,
    hrecords allies allies.reverse enemies enemies base hallies (.refl _)⟩

end Salvo
