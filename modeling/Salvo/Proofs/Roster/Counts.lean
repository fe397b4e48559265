import Salvo.Proofs.Roster.Groups
import Salvo.Round.History

/-! # Grouping and counting by type

Groups and counts can both be gathered while a roster is read from its front: a unit joins the row
of its type, or starts a new row behind the others (`upsert`). The part that has been read has one
row for each of its types, and one more unit keeps this so (`upsert_map`). A roster is therefore
shown by the sizes of its groups, in their order (`Combatant.shared_out_by_type`). -/

namespace Salvo

/-! ## Rows that grow -/

section

variable {α β : Type}

/-- Lets the first row that is `isOwn` grow, or puts a new one behind the others. -/
def upsert (isOwn : β → Bool) (grow : β → β) (new : β) : List β → List β
  | [] => [new]
  | row :: rows => if isOwn row then grow row :: rows else row :: upsert isOwn grow new rows

variable [DecidableEq α] {isOwn : β → Bool} {grow : β → β} {new : β} {keys : List α} {key : α}
  {row after : α → β}

/-- With one row for each key, the row of the key in question becomes what it is `after`. -/
theorem upsert_map (hkeys : keys.Nodup) (hown : ∀ other ∈ keys, isOwn (row other) = (other == key))
    (hgrow : key ∈ keys → grow (row key) = after key) (hnew : key ∉ keys → new = after key)
    (hother : ∀ other ≠ key, row other = after other) :
    upsert isOwn grow new (keys.map row) =
      (if key ∈ keys then keys else keys ++ [key]).map after := by
  induction keys with
  | nil => simp [upsert, hnew]
  | cons first keys ih =>
    obtain ⟨hfirst, hkeys⟩ := List.nodup_cons.mp hkeys
    obtain ⟨hisOwn, hown⟩ := List.forall_mem_cons.mp hown
    rw [List.map_cons, upsert, hisOwn]
    by_cases h : first = key
    · subst h
      have hrest : keys.map row = keys.map after :=
        List.map_congr_left fun other hmem => hother other fun heq => hfirst (heq ▸ hmem)
      rw [if_pos (beq_self_eq_true _), if_pos List.mem_cons_self, List.map_cons,
        hgrow List.mem_cons_self, hrest]
    · have hmem : key ∈ first :: keys ↔ key ∈ keys := by
        rw [List.mem_cons, or_iff_right (Ne.symm h)]
      rw [hmem] at hgrow hnew
      rw [if_neg (by simpa using h), ih hkeys hown hgrow hnew, hother first h, if_congr hmem rfl rfl]
      split <;> simp

end

namespace Combatant

/-- Puts a unit behind the units of its type, or starts a group with it behind the others. -/
def joinGroups (unit : Combatant) : List (List Combatant) → List (List Combatant) :=
  upsert (·.head?.any (·.typeName == unit.typeName)) (· ++ [unit]) [unit]

theorem addToCounts_eq_upsert (name : String) (counts : List (String × Nat)) :
    addToCounts name counts =
      upsert (·.1 == name) (fun (other, count) => (other, count + 1)) (name, 1) counts := by
  induction counts with
  | nil => rfl
  | cons row counts ih => rw [addToCounts, upsert, ih]

/-! ## One more unit -/

theorem typeNames_append_singleton (units : List Combatant) (unit : Combatant) :
    typeNames (units ++ [unit]) =
      if unit.typeName ∈ typeNames units then typeNames units
      else typeNames units ++ [unit.typeName] := by
  rw [typeNames, List.map_append, List.map_singleton, eraseDups_append_singleton]
  exact if_congr List.mem_eraseDups.symm rfl rfl

theorem ofType_append_singleton (name : String) (units : List Combatant) (unit : Combatant) :
    ofType name (units ++ [unit]) =
      if unit.typeName = name then ofType name units ++ [unit] else ofType name units := by
  rw [ofType, List.filter_append, ← ofType]
  by_cases h : unit.typeName = name <;> simp [h]

theorem ofType_eq_nil {units : List Combatant} {name : String} (h : name ∉ typeNames units) :
    ofType name units = [] :=
  Classical.not_not.mp (mt mem_typeNames.mpr h)

/-- Whatever a row keeps of the group of its type, one more unit changes the row of its own type
alone. -/
theorem upsert_map_ofType {β : Type} (entry : String → List Combatant → β) {isOwn : β → Bool}
    {grow : β → β} {new : β} {units : List Combatant} {unit : Combatant}
    (hown : ∀ name ∈ typeNames units,
      isOwn (entry name (ofType name units)) = (name == unit.typeName))
    (hgrow : ∀ group, grow (entry unit.typeName group) = entry unit.typeName (group ++ [unit]))
    (hnew : new = entry unit.typeName [unit]) :
    upsert isOwn grow new ((typeNames units).map fun name => entry name (ofType name units)) =
      (typeNames (units ++ [unit])).map fun name => entry name (ofType name (units ++ [unit])) := by
  have hsame : ofType unit.typeName (units ++ [unit]) = ofType unit.typeName units ++ [unit] := by
    rw [ofType_append_singleton, if_pos rfl]
  rw [typeNames_append_singleton]
  refine upsert_map (nodup_typeNames units) hown ?_ ?_ ?_
  · intro _
    rw [hgrow, hsame]
  · intro hnone
    rw [hnew, hsame, ofType_eq_nil hnone, List.nil_append]
  · intro other hother
    rw [ofType_append_singleton, if_neg hother.symm]

theorem groups_append_singleton (units : List Combatant) (unit : Combatant) :
    groups (units ++ [unit]) = joinGroups unit (groups units) := by
  rw [groups_eq, groups_eq, joinGroups]
  exact Eq.symm (upsert_map_ofType (fun _ group => group)
    (fun _ hname => any_head?_ofType hname _) (fun _ => rfl) rfl)

/-! ## A whole roster -/

theorem groups_eq_foldl (units : List Combatant) :
    groups units = units.foldl (fun groups unit => joinGroups unit groups) [] := by
  induction units using List.reverseRecOn with
  | nil => rfl
  | append_singleton units unit ih =>
    rw [groups_append_singleton, ih, List.foldl_append, List.foldl_cons, List.foldl_nil]

theorem counts_eq (units : List Combatant) :
    counts units = (typeNames units).map fun name => (name, (ofType name units).length) := by
  induction units using List.reverseRecOn with
  | nil => rfl
  | append_singleton units unit ih =>
    rw [counts_append_singleton, ih, addToCounts_eq_upsert]
    refine upsert_map_ofType (fun name group => (name, group.length)) (fun _ _ => rfl) ?_ rfl
    exact fun group => by rw [List.length_append, List.length_singleton]

/-- A roster is shown by the sizes of its groups. -/
theorem describe_eq (units : List Combatant) :
    describe units = ", ".intercalate (List.zipWith
      (fun group name => toString group.length ++ " " ++ name) (groups units) (typeNames units)) := by
  rw [describe, counts_eq, groups_eq, List.map_map, List.zipWith_map_left, List.zipWith_self]
  rfl

/-- The groups of a roster by type, and the names of the types. -/
structure GroupedByType (units : List Combatant) (names : List String)
    (groups : List (List Combatant)) : Prop where
  /-- The names are those that stand on the roster. -/
  mem_names_iff (name : String) : name ∈ names ↔ ∃ unit ∈ units, unit.typeName = name
  /-- No name comes twice, and a name comes before all that first stand behind it. -/
  first_places : names.Pairwise fun name later =>
    (units.map (·.typeName)).idxOf name < (units.map (·.typeName)).idxOf later
  /-- The group of a name has all units of that name in the order of the roster. -/
  groups_eq : groups = names.map fun name => units.filter (·.typeName == name)

theorem groupedByType_groups (units : List Combatant) :
    GroupedByType units (typeNames units) (groups units) where
  mem_names_iff name := by rw [typeNames, List.mem_eraseDups, List.mem_map]
  first_places := pairwise_idxOf_eraseDups _
  groups_eq := groups_eq units

/-- A roster is fired and shown by type. There is one group for each type on it, in order of first
appearance, with the units of the type in roster order, as they are gathered from the front; none is
empty, and together they are the roster. A history line shows the size of each group with the name
of its type, in the same order, and these sizes add up to that of the roster. -/
theorem shared_out_by_type (units : List Combatant) :
    let shown := ", ".intercalate (List.zipWith
      (fun group name => toString group.length ++ " " ++ name) (groups units) (typeNames units))
    GroupedByType units (typeNames units) (groups units) ∧
    groups units = units.foldl (fun groups unit => joinGroups unit groups) [] ∧
    (∀ group ∈ groups units, group ≠ [] ∧ group.Sublist units) ∧
    (groups units).flatten.Perm units ∧
    describe units = shown ∧
    (∀ player territory round, rollEventText player units territory round =
      player ++ " roll dice for " ++ shown ++ " in " ++ territory ++ ", round " ++ toString round) ∧
    ((groups units).map List.length).sum = units.length := by
  intro shown
  have hperm := perm_flatten_groups units
  have hshown : describe units = shown := describe_eq units
  refine ⟨groupedByType_groups units, groups_eq_foldl units, fun group hgroup => ?_, hperm, hshown,
    fun player territory round => ?_, ?_⟩
  · rw [groups_eq] at hgroup
    obtain ⟨name, hname, rfl⟩ := List.mem_map.mp hgroup
    exact ⟨mem_typeNames.mp hname, List.filter_sublist⟩
  · rw [rollEventText, hshown]
  · rw [← List.length_flatten, hperm.length_eq]

/-- Guns of two types that take turns on the roster. -/
example :
    let gun (id : Nat) (name : String) : Combatant := { id, type := { name }, owner := default }
    let guns := [gun 0 "aaGun", gun 1 "searchlight", gun 2 "searchlight", gun 3 "aaGun"]
    (groups guns).map (·.map (·.id)) = [[0, 3], [1, 2]] ∧
      describe guns = "2 aaGun, 2 searchlight" := by
  decide +kernel

end Combatant

end Salvo
