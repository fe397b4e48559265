import Salvo.Proofs.Support.Greedy

/-! # Bonus types

Bonuses of different types do not get in each other's way. A slot looks at the lines of its own
bonus type only, and forms or shortens no others (`WaitingRoom.line_serve_of_ne`). So the grants of
one bonus type are those that would be given if all other rules had no capacity
(`SupportPass.filter_isUnder_allocate`).

Two rooms are compared line by line (`WaitingRoom.Agrees`): where they show the same lines for the
bonus type of a slot, they serve the same unit. -/

namespace Salvo

/-- Whether the grant was made under a rule of the bonus type. -/
def Grant.isUnder (grant : Grant) (rules : List SupportRule) (bonusType : String) : Bool :=
  (rules[grant.rule]?).any (·.bonusType == bonusType)

/-- The rule, without capacity if its bonuses are of another type. -/
def SupportRule.onlyFor (bonusType : String) (rule : SupportRule) : SupportRule :=
  if rule.bonusType = bonusType then rule else { rule with capacity := 0 }

namespace WaitingRoom

variable {room room' : WaitingRoom} {recipients recipients' : List Combatant}
  {pass : SupportPass} {bonusType : String}

/-- The rooms show the same lines to slots of the bonus type. -/
def Agrees (room : WaitingRoom) (recipients : List Combatant) (room' : WaitingRoom)
    (recipients' : List Combatant) (bonusType : String) : Prop :=
  ∀ typeName, room.line recipients bonusType typeName = room'.line recipients' bonusType typeName

theorem Agrees.setLine (h : room.Agrees recipients room' recipients' bonusType)
    (otherBonus typeName : String) (line : List Nat) :
    (room.setLine otherBonus typeName line).Agrees recipients
      (room'.setLine otherBonus typeName line) recipients' bonusType := by
  intro otherType
  rw [line_setLine, line_setLine, h otherType]

/-- Rooms that agree on the bonus type of a slot serve the same unit, and go on to agree where they
did. -/
theorem Agrees.serve (h : room.Agrees recipients room' recipients' bonusType)
    (typeNames : List String) :
    (room.serve recipients bonusType typeNames).1 =
        (room'.serve recipients' bonusType typeNames).1 ∧
      ∀ otherBonus, room.Agrees recipients room' recipients' otherBonus →
        (room.serve recipients bonusType typeNames).2.Agrees recipients
          (room'.serve recipients' bonusType typeNames).2 recipients' otherBonus := by
  induction typeNames generalizing room room' with
  | nil => exact ⟨rfl, fun _ hother => hother⟩
  | cons typeName typeNames ih =>
    rw [WaitingRoom.serve, WaitingRoom.serve, h typeName]
    cases room'.line recipients' bonusType typeName with
    | nil =>
      obtain ⟨hserved, hafter⟩ := ih (h.setLine bonusType typeName [])
      refine ⟨hserved, fun otherBonus hother => ?_⟩
      apply hafter
      exact hother.setLine bonusType typeName []
    | cons recipient line => exact ⟨rfl, fun _ hother => hother.setLine bonusType typeName line⟩

theorem line_setLine_of_ne {otherBonus : String} (hne : bonusType ≠ otherBonus)
    (typeName : String) (line : List Nat) (otherType : String) :
    (room.setLine otherBonus typeName line).line recipients bonusType otherType =
      room.line recipients bonusType otherType := by
  rw [line_setLine, if_neg]
  rintro ⟨heq, -⟩
  exact hne heq

/-- The lines of other bonus types stay as they are. -/
theorem line_serve_of_ne {otherBonus : String} (hne : bonusType ≠ otherBonus)
    (typeNames : List String) (otherType : String) :
    (room.serve recipients otherBonus typeNames).2.line recipients bonusType otherType =
      room.line recipients bonusType otherType := by
  induction typeNames generalizing room with
  | nil => rfl
  | cons typeName typeNames ih =>
    rw [serve]
    cases room.line recipients otherBonus typeName with
    | nil => exact ih.trans (line_setLine_of_ne hne typeName [] otherType)
    | cons recipient line => exact line_setLine_of_ne hne typeName line otherType

theorem handOut_cons (room : WaitingRoom) (slot : SupportSlot) (slots : List SupportSlot) :
    room.handOut pass recipients (slot :: slots) =
      ((room.serve recipients slot.rule.bonusType slot.rule.supported).1.map
          (slot.grantTo pass)).toList ++
        (room.serve recipients slot.rule.bonusType slot.rule.supported).2.handOut pass recipients
          slots := by
  rw [handOut]
  rcases room.serve recipients slot.rule.bonusType slot.rule.supported with ⟨_ | id, left⟩
  · rfl
  · rfl

theorem filter_isUnder_served {rules : List SupportRule} {slot : SupportSlot}
    (hslot : rules[slot.index]? = some slot.rule) (served : Option Nat) :
    (served.map (slot.grantTo pass)).toList.filter (·.isUnder rules bonusType) =
      if slot.rule.bonusType = bonusType then (served.map (slot.grantTo pass)).toList else [] := by
  cases served with
  | none => simp
  | some id =>
    have hunder : (slot.grantTo pass id).isUnder rules bonusType =
        (slot.rule.bonusType == bonusType) := by
      rw [Grant.isUnder, SupportSlot.grantTo, hslot, Option.any_some]
    simp [List.filter_cons, hunder]

/-- What is handed out under a bonus type is what the slots of the bonus type hand out alone. -/
theorem filter_handOut (h : room.Agrees recipients room' recipients' bonusType)
    {rules : List SupportRule} {slots : List SupportSlot}
    (hslots : ∀ slot ∈ slots, rules[slot.index]? = some slot.rule) :
    (room.handOut pass recipients slots).filter (·.isUnder rules bonusType) =
      room'.handOut pass recipients' (slots.filter (·.rule.bonusType = bonusType)) := by
  induction slots generalizing room room' with
  | nil => rfl
  | cons slot slots ih =>
    obtain ⟨hslot, hslots⟩ := List.forall_mem_cons.mp hslots
    rw [handOut_cons, List.filter_append, filter_isUnder_served hslot, List.filter_cons]
    by_cases hbonus : slot.rule.bonusType = bonusType
    · subst hbonus
      obtain ⟨hserved, hafter⟩ := h.serve slot.rule.supported
      rw [if_pos rfl, if_pos (decide_eq_true rfl), handOut_cons, ih (hafter _ h) hslots, hserved]
    · rw [if_neg hbonus, if_neg (by simpa using hbonus), List.nil_append]
      apply ih _ hslots
      intro typeName
      rw [line_serve_of_ne (Ne.symm hbonus), h typeName]

end WaitingRoom

/-! ## The slots of one bonus type -/

namespace SupportPass

variable {recipients supporters : List Combatant} {rules : List SupportRule} {side : Side}
  {pass : SupportPass} {bonusType : String}

theorem rank_onlyFor (source : SupportSource) (rule : SupportRule) :
    SupportSlot.rank source (rule.onlyFor bonusType) = SupportSlot.rank source rule := by
  unfold SupportRule.onlyFor
  split
  · rfl
  · cases source <;> rfl

/-- A rule of another bonus type has no slots without its capacity. -/
theorem ofRule_onlyFor (rule : SupportRule) (index : Nat) :
    SupportSlot.ofRule recipients supporters side pass (rule.onlyFor bonusType) index =
      (SupportSlot.ofRule recipients supporters side pass rule index).filter
        (·.rule.bonusType = bonusType) := by
  unfold SupportRule.onlyFor
  split
  · rename_i hbonus
    symm
    apply List.filter_eq_self.mpr
    intro slot hslot
    rw [SupportSlot.rule_of_mem_ofRule hslot]
    exact decide_eq_true hbonus
  · rename_i hbonus
    have hnone : (SupportSlot.ofRule recipients supporters side pass rule index).filter
        (·.rule.bonusType = bonusType) = [] := by
      apply List.filter_eq_nil_iff.mpr
      intro slot hslot
      rw [SupportSlot.rule_of_mem_ofRule hslot]
      exact mt of_decide_eq_true hbonus
    rw [hnone]
    unfold SupportSlot.ofRule
    split
    · apply List.flatMap_eq_nil_iff.mpr
      intro unit _
      rw [SupportRule.capacityFor_of_capacity_eq_zero rfl, List.replicate_zero]
    · rfl

theorem ofRules_onlyFor :
    SupportSlot.ofRules recipients supporters (rules.map (·.onlyFor bonusType)) side pass =
      (SupportSlot.ofRules recipients supporters rules side pass).filter
        (·.rule.bonusType = bonusType) := by
  unfold SupportSlot.ofRules
  rw [List.zipIdx_map, ← map_sortOn, List.flatMap_map, List.filter_flatMap]
  simp only [Prod.map_fst, Prod.map_snd, rank_onlyFor, ofRule_onlyFor, id_eq]

/-- The bonuses of one type are given as if all other rules had no capacity. -/
theorem filter_isUnder_allocate (pass : SupportPass) (recipients supporters : List Combatant)
    (rules : List SupportRule) (side : Side) (bonusType : String) :
    (pass.allocate recipients supporters rules side).filter (·.isUnder rules bonusType) =
      pass.allocate recipients supporters (rules.map (·.onlyFor bonusType)) side := by
  have hagrees : WaitingRoom.Agrees {} recipients {} recipients bonusType := fun _ => rfl
  rw [allocate, WaitingRoom.filter_handOut hagrees fun _ => getElem?_of_mem_ofRules, allocate,
    ofRules_onlyFor]

/-- Bonuses of two types add up on one infantry. Without the artillery rule, only that of the armour
is left. -/
example :
    let unit (id : Nat) (name : String) : Combatant := ⟨id, { name }, { name := "Germans" }⟩
    let infantry := [unit 0 "infantry"]
    let supporters := [unit 1 "artillery", unit 2 "armour"]
    let rules := [
      (SupportRule.strength "guns" "artillery" ["infantry"] 1 1).withBonusType "artillery",
      (SupportRule.strength "tanks" "armour" ["infantry"] 1 1).withBonusType "armour"]
    let pass : SupportPass := ⟨.strength, .allied⟩
    pass.allocate infantry supporters rules .offense =
        [⟨0, 1, 0, .strength, .allied, 1⟩, ⟨1, 2, 0, .strength, .allied, 1⟩] ∧
      pass.allocate infantry supporters (rules.map (·.onlyFor "armour")) .offense =
        [⟨1, 2, 0, .strength, .allied, 1⟩] := by
  decide

end SupportPass

end Salvo
