import Salvo.Proofs.DistinctElements
import Salvo.Roster.Combatant

/-! # Groups of one type

The groups of a roster are its units of each type name, in the order in which the names first stand
on the roster (`Combatant.groups_eq`). They share it out (`Combatant.perm_flatten_groups`). -/

namespace Salvo

/-- Selections of which exactly one has each element are a list shared out. -/
theorem perm_flatMap_filter {α β : Type} [DecidableEq α] {p : β → α → Bool} {xs : List α}
    {selections : List β} (h : ∀ x ∈ xs, selections.countP (p · x) = 1) :
    (selections.flatMap fun selection => xs.filter (p selection)).Perm xs := by
  have hcount (x : α) (selections : List β) :
      (selections.flatMap fun selection => xs.filter (p selection)).count x =
        selections.countP (p · x) * xs.count x := by
    induction selections with
    | nil => simp
    | cons selection selections ih =>
      rw [List.flatMap_cons, List.count_append, ih, List.countP_cons]
      by_cases hp : p selection x
      · rw [List.count_filter hp, if_pos hp, Nat.add_mul, Nat.one_mul, Nat.add_comm]
      · have hnone : (xs.filter (p selection)).count x = 0 :=
          List.count_eq_zero.mpr fun hx => hp (List.mem_filter.mp hx).2
        rw [hnone, if_neg hp, Nat.zero_add, Nat.add_zero]
  refine List.perm_iff_count.mpr fun x => ?_
  rw [hcount]
  by_cases hx : x ∈ xs
  · rw [h x hx, Nat.one_mul]
  · rw [List.count_eq_zero.mpr hx, Nat.mul_zero]

namespace Combatant

/-- The names of the types of a roster, each at its first place. -/
def typeNames (units : List Combatant) : List String := (units.map (·.typeName)).eraseDups

/-- The units of the type called `name`. -/
def ofType (name : String) (units : List Combatant) : List Combatant :=
  units.filter (·.typeName == name)

variable {unit : Combatant} {units : List Combatant} {name : String}

theorem typeNames_cons (unit : Combatant) (units : List Combatant) :
    typeNames (unit :: units) =
      unit.typeName :: (typeNames units).filter (!· == unit.typeName) := by
  rw [typeNames, List.map_cons, List.eraseDups_cons, typeNames, filter_eraseDups]

theorem ofType_cons (name : String) (unit : Combatant) (units : List Combatant) :
    ofType name (unit :: units) =
      if unit.typeName == name then unit :: ofType name units else ofType name units :=
  List.filter_cons

theorem nodup_typeNames (units : List Combatant) : (typeNames units).Nodup := nodup_eraseDups _

theorem mem_typeNames : name ∈ typeNames units ↔ ofType name units ≠ [] := by
  rw [typeNames, List.mem_eraseDups, List.mem_map, ofType, Ne, List.filter_eq_nil_iff]
  simp

/-- A group of a type that is on the roster has the name of its first unit. -/
theorem any_head?_ofType (h : name ∈ typeNames units) (other : String) :
    (ofType name units).head?.any (·.typeName == other) = (name == other) := by
  obtain ⟨first, rest, hgroup⟩ := List.exists_cons_of_ne_nil (mem_typeNames.mp h)
  have hfirst : first ∈ ofType name units := hgroup ▸ List.mem_cons_self
  have hname : first.typeName = name := eq_of_beq (List.mem_filter.mp hfirst).2
  rw [hgroup, List.head?_cons, Option.any_some, hname]

/-- The name of a type stands among the names once, if it has units. -/
theorem filter_typeNames (name : String) (units : List Combatant) :
    (typeNames units).filter (· == name) = if name ∈ typeNames units then [name] else [] := by
  rw [List.filter_beq, (nodup_typeNames units).count]
  split <;> rfl

/-- A unit in front of a grouped roster joins the group of its type, or starts it. -/
theorem addToGroups_map_ofType (unit : Combatant) (units : List Combatant) :
    addToGroups unit ((typeNames units).map (ofType · units)) =
      (unit :: ofType unit.typeName units) ::
        ((typeNames units).filter (!· == unit.typeName)).map (ofType · units) := by
  have hfind : ((((typeNames units).map (ofType · units)).find? fun group =>
      group.head?.any (·.typeName == unit.typeName)).getD []) = ofType unit.typeName units := by
    cases hgroup : ((typeNames units).map (ofType · units)).find? _ with
    | none =>
      have hall := List.find?_eq_none.mp hgroup
      refine Classical.byContradiction fun hsome => ?_
      have hmem := mem_typeNames.mpr (Ne.symm hsome)
      refine hall _ (List.mem_map_of_mem hmem) ?_
      rw [any_head?_ofType hmem, beq_self_eq_true]
    | some group =>
      obtain ⟨name, hmem, rfl⟩ := List.mem_map.mp (List.mem_of_find?_eq_some hgroup)
      have hname := List.find?_some hgroup
      rw [any_head?_ofType hmem, beq_iff_eq] at hname
      rw [Option.getD_some, hname]
  rw [addToGroups, hfind, List.filter_map]
  refine congrArg _ (congrArg _ (List.filter_congr fun name hname => ?_))
  exact congrArg (!·) (any_head?_ofType hname _)

theorem groups_eq (units : List Combatant) :
    groups units = (typeNames units).map (ofType · units) := by
  induction units with
  | nil => rfl
  | cons unit units ih =>
    rw [groups_cons, ih, addToGroups_map_ofType, typeNames_cons, List.map_cons, ofType_cons,
      if_pos (beq_self_eq_true _)]
    refine congrArg _ (List.map_congr_left fun name hname => ?_)
    have hother := (List.mem_filter.mp hname).2
    rw [Bool.not_eq_true', beq_eq_false_iff_ne] at hother
    rw [ofType_cons, if_neg fun hunit => hother (eq_of_beq hunit).symm]

/-- The groups of a roster share it out. -/
theorem perm_flatten_groups (units : List Combatant) :
    (groups units).flatten.Perm units := by
  rw [groups_eq, ← List.flatMap_def]
  refine perm_flatMap_filter (p := fun name (unit : Combatant) => unit.typeName == name) ?_
  intro unit hunit
  have hmem : unit.typeName ∈ typeNames units :=
    List.mem_eraseDups.mpr (List.mem_map_of_mem hunit)
  rw [← List.count_eq_one_of_mem (nodup_typeNames units) hmem]
  exact List.countP_congr fun name _ => by rw [BEq.comm]

end Combatant

end Salvo
