import Mathlib.Data.List.Nodup
import Salvo.Support.Allocation

/-! # The greedy rule

Support goes by a plain rule: each slot in turn serves the first unit, seeking the supported types
in their order and inside a type the recipients in theirs, that holds no grant of the bonus type
yet. `SupportPass.give` is this rule for one slot, with a look through all earlier grants for each
unit; `SupportPass.greedyAllocate` applies it to the slots of all rules, sorted by the merge sort
of the standard library.

The waiting lines follow the rule (`SupportPass.allocate_eq_greedyAllocate`). At every moment the
line of a type, for a bonus type, holds the units of the type without a grant of the bonus type, and
where no line has formed all of them are without one (`WaitingRoom.Follows`). -/

namespace Salvo

/-! ## The rule -/

/-- Whether the grant gives a unit a bonus of the bonus type. -/
def Grant.gives (grant : Grant) (rules : List SupportRule) (bonusType : String) (id : Nat) : Bool :=
  grant.recipient == id && (rules[grant.rule]?).any (·.bonusType == bonusType)

/-- Whether a unit holds one of the grants under the bonus type. -/
def holdsGrant (rules : List SupportRule) (given : List Grant) (bonusType : String) (id : Nat) :
    Bool :=
  given.any (·.gives rules bonusType id)

/-- The units of the named types, type by type. -/
def unitsOfTypes (recipients : List Combatant) (typeNames : List String) : List Combatant :=
  typeNames.flatMap fun typeName => recipients.filter (·.typeName == typeName)

namespace SupportSlot

def grantTo (slot : SupportSlot) (pass : SupportPass) (id : Nat) : Grant where
  rule := slot.index
  supporter := slot.supporter
  recipient := id
  kind := pass.kind
  source := pass.source
  amount := slot.rule.bonus

/-- The unit that the slot serves after the given grants. -/
def recipient? (slot : SupportSlot) (recipients : List Combatant) (rules : List SupportRule)
    (given : List Grant) : Option Combatant :=
  (unitsOfTypes recipients slot.rule.supported).find? fun unit =>
    !holdsGrant rules given slot.rule.bonusType unit.id

/-- One slot for each use that the supporters of a rule have of it. -/
def offered (supporters : List Combatant) (rule : SupportRule) (index : Nat) : List SupportSlot :=
  (supporters.filter fun unit =>
      unit.typeName == rule.supporter && rule.canBeGivenBy unit.owner).flatMap fun unit =>
    List.replicate (rule.capacityFor unit.owner) { index, rule, supporter := unit.id }

end SupportSlot

namespace SupportPass

/-- All slots of the rules that take part, in the order of the rules and then of the supporters. -/
def offers (pass : SupportPass) (supporters : List Combatant) (rules : List SupportRule)
    (side : Side) : List SupportSlot :=
  rules.zipIdx.flatMap fun (rule, index) =>
    if rule.appliesTo pass.kind pass.source side then SupportSlot.offered supporters rule index
    else []

/-- Allies give their large bonuses first, enemies their small ones. -/
def notAfter (pass : SupportPass) (slot other : SupportSlot) : Bool :=
  match pass.source with
  | .allied => other.rule.bonus ≤ slot.rule.bonus
  | .enemy => slot.rule.bonus ≤ other.rule.bonus

/-- The grants once the slot has served a unit, if there is one for it. -/
def give (pass : SupportPass) (recipients : List Combatant) (rules : List SupportRule)
    (given : List Grant) (slot : SupportSlot) : List Grant :=
  match slot.recipient? recipients rules given with
  | none => given
  | some unit => given ++ [slot.grantTo pass unit.id]

/-- The grants of slots that serve one after the other. -/
def greedy (pass : SupportPass) (recipients : List Combatant) (rules : List SupportRule)
    (slots : List SupportSlot) : List Grant :=
  slots.foldl (pass.give recipients rules) []

def greedyAllocate (pass : SupportPass) (recipients supporters : List Combatant)
    (rules : List SupportRule) (side : Side) : List Grant :=
  pass.greedy recipients rules ((pass.offers supporters rules side).mergeSort pass.notAfter)

end SupportPass

variable {recipients supporters : List Combatant} {rules : List SupportRule} {side : Side}
  {pass : SupportPass}

@[simp] theorem holdsGrant_nil (bonusType : String) (id : Nat) :
    holdsGrant rules [] bonusType id = false := rfl

theorem gives_grantTo_iff {slot : SupportSlot} (hslot : rules[slot.index]? = some slot.rule)
    {recipient : Nat} {bonusType : String} {id : Nat} :
    (slot.grantTo pass recipient).gives rules bonusType id ↔
      recipient = id ∧ slot.rule.bonusType = bonusType := by
  simp [Grant.gives, SupportSlot.grantTo, hslot]

theorem holdsGrant_append_grantTo {slot : SupportSlot} (hslot : rules[slot.index]? = some slot.rule)
    (given : List Grant) (recipient : Nat) (bonusType : String) (id : Nat) :
    holdsGrant rules (given ++ [slot.grantTo pass recipient]) bonusType id =
      (holdsGrant rules given bonusType id ||
        (id == recipient && slot.rule.bonusType == bonusType)) := by
  simp [holdsGrant, Grant.gives, SupportSlot.grantTo, hslot, BEq.comm (a := recipient)]

theorem mem_unitsOfTypes {typeNames : List String} {unit : Combatant} :
    unit ∈ unitsOfTypes recipients typeNames ↔ unit ∈ recipients ∧ unit.typeName ∈ typeNames := by
  simp only [unitsOfTypes, List.mem_flatMap, List.mem_filter, beq_iff_eq]
  constructor
  · rintro ⟨_, htype, hunit, rfl⟩
    exact ⟨hunit, htype⟩
  · rintro ⟨hunit, htype⟩
    exact ⟨_, htype, hunit, rfl⟩

theorem SupportSlot.recipient?_eq_none_iff {slot : SupportSlot} {given : List Grant} :
    slot.recipient? recipients rules given = none ↔
      ∀ unit ∈ recipients, slot.rule.supports unit.typeName →
        holdsGrant rules given slot.rule.bonusType unit.id := by
  simp only [recipient?, List.find?_eq_none, mem_unitsOfTypes, SupportRule.supports,
    List.contains_iff_mem, and_imp, Bool.not_eq_true', Bool.not_eq_false]

/-- Of selected units the others are left when the first is struck out by its id. -/
theorem filter_ne_of_filter_eq_cons (hids : (recipients.map (·.id)).Nodup)
    {selected : Combatant → Bool} {unit : Combatant} {rest : List Combatant}
    (h : recipients.filter selected = unit :: rest) :
    recipients.filter (fun other => selected other && other.id != unit.id) = rest := by
  have hrest : ∀ other ∈ rest, other.id ≠ unit.id := by
    have hsub : (unit :: rest).Sublist recipients := h ▸ List.filter_sublist
    have hnodup := (hsub.map (·.id)).nodup hids
    intro other hother heq
    exact (List.nodup_cons.mp hnodup).1 (List.mem_map.mpr ⟨other, hother, heq⟩)
  have hsplit : recipients.filter (fun other => selected other && other.id != unit.id) =
      (recipients.filter selected).filter fun other => other.id != unit.id := by
    rw [List.filter_filter]
    exact List.filter_congr fun _ _ => Bool.and_comm ..
  rw [hsplit, h, List.filter_cons_of_neg (by simp), List.filter_eq_self.mpr]
  intro other hother
  simpa using hrest other hother

/-! ## Rooms follow the rule -/

/-- Each line holds the units of its type that have no grant of its bonus type. Where no line has
formed, none of the units has one. -/
def WaitingRoom.Follows (room : WaitingRoom) (recipients : List Combatant)
    (rules : List SupportRule) (given : List Grant) : Prop :=
  ∀ bonusType typeName, room.line recipients bonusType typeName =
    (recipients.filter fun unit =>
      unit.typeName == typeName && !holdsGrant rules given bonusType unit.id).map (·.id)

namespace WaitingRoom

variable {room : WaitingRoom} {given : List Grant}

theorem follows_empty : WaitingRoom.Follows {} recipients rules [] := by
  intro bonusType typeName
  show (recipients.filter (·.typeName == typeName)).map (·.id) = _
  simp

/-- Looking at a line only lets it form. -/
theorem Follows.setLine_self (h : room.Follows recipients rules given) {bonusType typeName : String}
    {line : List Nat} (hline : room.line recipients bonusType typeName = line) :
    (room.setLine bonusType typeName line).Follows recipients rules given := by
  intro otherBonus otherType
  rw [line_setLine, ← h otherBonus otherType]
  split
  · rename_i hsame
    obtain ⟨rfl, rfl⟩ := hsame
    exact hline.symm
  · rfl

/-- When the head of a line leaves with a grant, the others of its type wait in their order. -/
theorem Follows.setLine_tail (hids : (recipients.map (·.id)).Nodup)
    (h : room.Follows recipients rules given) {slot : SupportSlot}
    (hslot : rules[slot.index]? = some slot.rule) {unit : Combatant} {rest : List Combatant}
    (hfree : (recipients.filter fun other => other.typeName == unit.typeName &&
      !holdsGrant rules given slot.rule.bonusType other.id) = unit :: rest) :
    (room.setLine slot.rule.bonusType unit.typeName (rest.map (·.id))).Follows recipients rules
      (given ++ [slot.grantTo pass unit.id]) := by
  have hmem : unit ∈ recipients := by
    have : unit ∈ recipients.filter _ := hfree ▸ List.mem_cons_self
    exact (List.mem_filter.mp this).1
  intro bonusType typeName
  rw [line_setLine]
  simp only [holdsGrant_append_grantTo hslot]
  split
  · rename_i hsame
    obtain ⟨rfl, rfl⟩ := hsame
    rw [← filter_ne_of_filter_eq_cons hids hfree]
    congr 1
    refine List.filter_congr fun other _ => ?_
    simp [bne, Bool.and_assoc]
  · rename_i hother
    rw [h bonusType typeName]
    congr 1
    -- A unit of another type is another unit, as its id shows.
    refine List.filter_congr fun other hmem' => ?_
    by_cases htype : other.typeName = typeName
    · have hne : (other.id == unit.id && slot.rule.bonusType == bonusType) = false := by
        rw [Bool.and_eq_false_iff]
        by_cases hbonus : bonusType = slot.rule.bonusType
        · refine .inl (beq_false_of_ne fun heq => hother ⟨hbonus, ?_⟩)
          rw [← htype, List.inj_on_of_nodup_map hids hmem' hmem heq]
        · exact .inr (beq_false_of_ne fun heq => hbonus heq.symm)
      rw [hne, Bool.or_false]
    · simp only [beq_false_of_ne htype, Bool.false_and]

/-- The lines serve the unit that the rule gives the slot to. -/
theorem Follows.serve (pass : SupportPass) (hids : (recipients.map (·.id)).Nodup)
    (h : room.Follows recipients rules given) {slot : SupportSlot}
    (hslot : rules[slot.index]? = some slot.rule) (typeNames : List String) :
    match (unitsOfTypes recipients typeNames).find? fun unit =>
        !holdsGrant rules given slot.rule.bonusType unit.id with
    | none => ∃ left, room.serve recipients slot.rule.bonusType typeNames = (none, left) ∧
        left.Follows recipients rules given
    | some unit => ∃ left,
        room.serve recipients slot.rule.bonusType typeNames = (some unit.id, left) ∧
          left.Follows recipients rules (given ++ [slot.grantTo pass unit.id]) := by
  induction typeNames generalizing room with
  | nil => exact ⟨room, rfl, h⟩
  | cons typeName typeNames ih =>
    have hhead : (recipients.filter (·.typeName == typeName)).find?
          (fun unit => !holdsGrant rules given slot.rule.bonusType unit.id) =
        (recipients.filter fun unit => unit.typeName == typeName &&
          !holdsGrant rules given slot.rule.bonusType unit.id).head? := by
      simp only [List.find?_filter, List.head?_filter, Bool.decide_and, Bool.decide_eq_true]
    have hline := h slot.rule.bonusType typeName
    rw [unitsOfTypes, List.flatMap_cons, List.find?_append, hhead, WaitingRoom.serve, hline]
    cases hfree : recipients.filter fun unit => unit.typeName == typeName &&
        !holdsGrant rules given slot.rule.bonusType unit.id with
    | nil =>
      rw [hfree] at hline
      exact ih (h.setLine_self hline)
    | cons unit rest =>
      have hmem : unit ∈ recipients.filter _ := hfree ▸ List.mem_cons_self
      have htype : unit.typeName = typeName := by
        simpa using (Bool.and_eq_true_iff.mp (List.mem_filter.mp hmem).2).1
      subst htype
      exact ⟨_, rfl, h.setLine_tail hids hslot hfree⟩

/-- Handing out adds the grants of the greedy rule. -/
theorem Follows.handOut (hids : (recipients.map (·.id)).Nodup)
    (h : room.Follows recipients rules given) {slots : List SupportSlot}
    (hslots : ∀ slot ∈ slots, rules[slot.index]? = some slot.rule) :
    given ++ room.handOut pass recipients slots =
      slots.foldl (pass.give recipients rules) given := by
  induction slots generalizing room given with
  | nil => simp [WaitingRoom.handOut]
  | cons slot slots ih =>
    obtain ⟨hslot, hslots⟩ := List.forall_mem_cons.mp hslots
    have hserve := h.serve pass hids hslot slot.rule.supported
    rw [WaitingRoom.handOut, List.foldl_cons, SupportPass.give, SupportSlot.recipient?]
    cases hfind : (unitsOfTypes recipients slot.rule.supported).find? fun unit =>
        !holdsGrant rules given slot.rule.bonusType unit.id with
    | none =>
      rw [hfind] at hserve
      obtain ⟨left, hserve, hleft⟩ := hserve
      rw [hserve]
      exact ih hleft hslots
    | some unit =>
      rw [hfind] at hserve
      obtain ⟨left, hserve, hleft⟩ := hserve
      have hnext := ih hleft hslots
      rw [List.append_assoc] at hnext
      rw [hserve]
      exact hnext

end WaitingRoom

namespace SupportPass

/-! ## The slots of a pass -/

theorem rule_of_mem_offered {rule : SupportRule} {index : Nat} {slot : SupportSlot}
    (h : slot ∈ SupportSlot.offered supporters rule index) :
    slot.rule = rule ∧ slot.index = index := by
  obtain ⟨_, _, h⟩ := List.mem_flatMap.mp h
  rw [List.eq_of_mem_replicate h]
  exact ⟨rfl, rfl⟩

theorem getElem?_of_mem_offers {slot : SupportSlot}
    (h : slot ∈ pass.offers supporters rules side) : rules[slot.index]? = some slot.rule := by
  obtain ⟨⟨rule, index⟩, hrule, h⟩ := List.mem_flatMap.mp h
  dsimp only at h
  split at h
  · obtain ⟨rfl, rfl⟩ := rule_of_mem_offered h
    exact List.mem_zipIdx_iff_getElem?.mp hrule
  · simp at h

/-- Whether the recipients have a unit that the slot could serve. -/
def useful (recipients : List Combatant) (slot : SupportSlot) : Bool :=
  recipients.any fun unit => slot.rule.supports unit.typeName

theorem filter_offers (recipients : List Combatant) :
    (pass.offers supporters rules side).filter (useful recipients) =
      rules.zipIdx.flatMap fun (rule, index) =>
        SupportSlot.ofRule recipients supporters side pass rule index := by
  rw [offers, List.filter_flatMap]
  refine List.flatMap_congr fun ⟨rule, index⟩ _ => ?_
  have huseful : ∀ slot ∈ SupportSlot.offered supporters rule index,
      useful recipients slot = recipients.any fun unit => rule.supports unit.typeName := by
    intro slot hslot
    rw [useful, (rule_of_mem_offered hslot).1]
  dsimp only
  rw [SupportSlot.ofRule, ← SupportSlot.offered]
  cases rule.appliesTo pass.kind pass.source side with
  | false => rfl
  | true =>
    rw [if_pos rfl, List.filter_congr huseful]
    cases recipients.any fun unit => rule.supports unit.typeName <;> simp

theorem notAfter_eq (slot other : SupportSlot) :
    pass.notAfter slot other =
      decide (SupportSlot.rank pass.source slot.rule ≤
        SupportSlot.rank pass.source other.rule) := by
  unfold notAfter SupportSlot.rank
  cases pass.source <;> simp

/-- The slots in the order of use are the useful ones of the sorted slots. -/
theorem ofRules_eq_filter (recipients : List Combatant) :
    SupportSlot.ofRules recipients supporters rules side pass =
      ((pass.offers supporters rules side).mergeSort pass.notAfter).filter (useful recipients) := by
  have hsort := sortOn_eq_mergeSort (fun slot => SupportSlot.rank pass.source slot.rule)
    (pass.offers supporters rules side)
  have hle : pass.notAfter = fun slot other : SupportSlot =>
      decide (SupportSlot.rank pass.source slot.rule ≤ SupportSlot.rank pass.source other.rule) :=
    funext fun slot => funext fun other => notAfter_eq slot other
  rw [SupportSlot.ofRules_eq_sortOn, ← filter_offers, ← filter_sortOn, hsort, hle]

theorem getElem?_of_mem_ofRules {slot : SupportSlot}
    (h : slot ∈ SupportSlot.ofRules recipients supporters rules side pass) :
    rules[slot.index]? = some slot.rule := by
  rw [ofRules_eq_filter] at h
  exact getElem?_of_mem_offers (List.mem_mergeSort.mp (List.mem_filter.mp h).1)

/-! ## The lines follow the rule -/

/-- A pass is the greedy rule on the slots in the order of use. -/
theorem allocate_eq_greedy (hids : (recipients.map (·.id)).Nodup) :
    pass.allocate recipients supporters rules side =
      pass.greedy recipients rules (SupportSlot.ofRules recipients supporters rules side pass) :=
  WaitingRoom.follows_empty.handOut hids fun _ => getElem?_of_mem_ofRules

/-- A slot that finds no unit of its types is lost. -/
theorem give_of_not_useful {slot : SupportSlot} (h : useful recipients slot = false)
    (given : List Grant) : pass.give recipients rules given slot = given := by
  have hnone : slot.recipient? recipients rules given = none :=
    SupportSlot.recipient?_eq_none_iff.mpr fun unit hunit hsupports =>
      absurd hsupports (List.any_eq_false.mp h unit hunit)
  rw [give, hnone]

theorem foldl_give_filter (given : List Grant) (slots : List SupportSlot) :
    (slots.filter (useful recipients)).foldl (pass.give recipients rules) given =
      slots.foldl (pass.give recipients rules) given := by
  induction slots generalizing given with
  | nil => rfl
  | cons slot slots ih =>
    cases huseful : useful recipients slot with
    | false =>
      rw [List.filter_cons_of_neg (by simp [huseful]), ih, List.foldl_cons,
        give_of_not_useful huseful]
    | true => rw [List.filter_cons_of_pos huseful, List.foldl_cons, List.foldl_cons, ih]

/-- Waiting lines give each slot to the first unit, by the order of the supported types and then
of the recipients, that has no grant of the bonus type yet; the slots come in the order of the
rules and the supporters, sorted by their bonus. -/
theorem allocate_eq_greedyAllocate (pass : SupportPass) (recipients supporters : List Combatant)
    (rules : List SupportRule) (side : Side) (hids : (recipients.map (·.id)).Nodup) :
    pass.allocate recipients supporters rules side =
      pass.greedyAllocate recipients supporters rules side := by
  rw [allocate_eq_greedy hids, ofRules_eq_filter, greedy, foldl_give_filter, greedyAllocate, greedy]

/-- Of four supporters the armour, whose bonus is the largest, takes the marine and loses its
second slot. The first artillery is left with the infantry and the second with nobody; the bomber
gives a bonus of another type. -/
theorem allocate_overlapping :
    let unit (id : Nat) (name : String) : Combatant := ⟨id, { name }, { name := "Germans" }⟩
    let recipients := [unit 0 "marine", unit 1 "infantry"]
    let supporters := [unit 2 "artillery", unit 3 "armour", unit 4 "artillery", unit 5 "bomber"]
    let rules := [SupportRule.strength "guns" "artillery" ["infantry", "marine"] 1 1,
      SupportRule.strength "tanks" "armour" ["marine"] 2 2,
      (SupportRule.strength "planes" "bomber" ["infantry"] 1 1).withBonusType "air"]
    let pass : SupportPass := ⟨.strength, .allied⟩
    (recipients.map (·.id)).Nodup ∧
      pass.greedyAllocate recipients supporters rules .offense =
        [⟨1, 3, 0, .strength, .allied, 2⟩, ⟨0, 2, 1, .strength, .allied, 1⟩,
          ⟨2, 5, 1, .strength, .allied, 1⟩] :=
  ⟨by decide, (allocate_eq_greedyAllocate _ _ _ _ _ (by decide)).symm.trans rfl⟩

end SupportPass

end Salvo
