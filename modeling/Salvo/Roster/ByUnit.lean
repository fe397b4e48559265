import Std.Data.ExtTreeMap
import Salvo.Roster.Combatant

/-! # Tables by unit id

`ByUnit α` holds one value per unit id. Setting an id that is present replaces its value. The
entries of a table are in increasing order of the ids, and a table is known by what it holds under
each id (`ByUnit.ext_get?`). -/

namespace Salvo

structure ByUnit (α : Type) where
  map : Std.ExtTreeMap Nat α := ∅
  deriving DecidableEq

namespace ByUnit

variable {α β : Type}

def empty : ByUnit α := {}

def get? (table : ByUnit α) (id : Nat) : Option α := table.map[id]?

def set (table : ByUnit α) (id : Nat) (value : α) : ByUnit α := ⟨table.map.insert id value⟩

/-- A table of pairs set from left to right, so that the last pair of an id counts. -/
def ofList (pairs : List (Nat × α)) : ByUnit α :=
  pairs.foldl (fun table (id, value) => table.set id value) empty

/-- The table of a value read off each unit. -/
def ofUnits (units : List Combatant) (value : Combatant → α) : ByUnit α :=
  ofList (units.map fun unit => (unit.id, value unit))

def mapValues (f : α → β) (table : ByUnit α) : ByUnit β := ⟨table.map.map fun _ value => f value⟩

/-- Changes the value of an id; an id that is absent stays so. -/
def modify (table : ByUnit α) (id : Nat) (f : α → α) : ByUnit α := ⟨table.map.modify id f⟩

def entries (table : ByUnit α) : List (Nat × α) := table.map.toList

def ids (table : ByUnit α) : List Nat := table.entries.map (·.1)

def values (table : ByUnit α) : List α := table.entries.map (·.2)

@[simp] theorem get?_empty (id : Nat) : (empty : ByUnit α).get? id = none := by
  simp [empty, get?]

theorem get?_set (table : ByUnit α) (id : Nat) (value : α) (other : Nat) :
    (table.set id value).get? other = if other = id then some value else table.get? other := by
  by_cases h : other = id
  · simp [get?, set, h]
  · simp [get?, set, Std.ExtTreeMap.getElem?_insert, h, Ne.symm h]

theorem get?_mapValues (f : α → β) (table : ByUnit α) (id : Nat) :
    (table.mapValues f).get? id = (table.get? id).map f := by
  simp [get?, mapValues, Std.ExtTreeMap.getElem?_map]

theorem get?_modify (table : ByUnit α) (id : Nat) (f : α → α) (other : Nat) :
    (table.modify id f).get? other =
      if other = id then (table.get? id).map f else table.get? other := by
  by_cases h : other = id
  · simp [get?, modify, h]
  · simp [get?, modify, Std.ExtTreeMap.getElem?_modify, h, Ne.symm h]

theorem get?_foldl_set {pairs : List (Nat × α)} {id : Nat} (h : id ∉ pairs.map (·.1))
    (table : ByUnit α) :
    (pairs.foldl (fun table (id, value) => table.set id value) table).get? id = table.get? id := by
  induction pairs generalizing table with
  | nil => rfl
  | cons pair pairs ih =>
    rw [List.map_cons, List.mem_cons, not_or] at h
    obtain ⟨hpair, hpairs⟩ := h
    rw [List.foldl_cons, ih hpairs, get?_set, if_neg hpair]

/-- Of pairs with distinct ids every one counts. -/
theorem get?_ofList {pairs : List (Nat × α)} (hids : (pairs.map (·.1)).Nodup) {id : Nat} {value : α}
    (h : (id, value) ∈ pairs) : (ofList pairs).get? id = some value := by
  unfold ofList
  generalize (empty : ByUnit α) = table
  induction pairs generalizing table with
  | nil => cases h
  | cons pair pairs ih =>
    obtain ⟨hpair, hpairs⟩ := List.nodup_cons.mp hids
    rcases List.mem_cons.mp h with rfl | h
    · rw [List.foldl_cons, get?_foldl_set hpair, get?_set, if_pos rfl]
    · exact ih hpairs h _

/-- A table holds nothing but what was set. -/
theorem mem_of_get?_ofList {pairs : List (Nat × α)} {id : Nat} {value : α}
    (h : (ofList pairs).get? id = some value) : (id, value) ∈ pairs := by
  have hstart : ∀ table : ByUnit α,
      (pairs.foldl (fun table (id, value) => table.set id value) table).get? id = some value →
        (id, value) ∈ pairs ∨ table.get? id = some value := by
    clear h
    induction pairs with
    | nil => exact fun table h => .inr h
    | cons pair pairs ih =>
      intro table h
      rcases ih _ h with hmem | hset
      · exact .inl (List.mem_cons_of_mem _ hmem)
      · rw [get?_set] at hset
        split at hset
        · rename_i hid
          cases hset
          exact .inl (hid ▸ List.mem_cons_self)
        · exact .inr hset
  rcases hstart empty h with hmem | hempty
  · exact hmem
  · rw [get?_empty] at hempty
    cases hempty

theorem get?_ofUnits {units : List Combatant} (hids : (units.map (·.id)).Nodup) {unit : Combatant}
    (hunit : unit ∈ units) (value : Combatant → α) :
    (ofUnits units value).get? unit.id = some (value unit) := by
  refine get?_ofList ?_ (List.mem_map_of_mem hunit)
  rwa [List.map_map]

theorem mem_entries {table : ByUnit α} {id : Nat} {value : α} :
    (id, value) ∈ table.entries ↔ table.get? id = some value :=
  Std.ExtTreeMap.mem_toList_iff_getElem?_eq_some

theorem entries_increasing (table : ByUnit α) : table.entries.Pairwise (·.1 < ·.1) := by
  refine (Std.ExtTreeMap.ordered_keys_toList (t := table.map)).imp fun h => ?_
  exact Nat.compare_eq_lt.mp h

/-- Pairs with distinct ids are the entries of their table. -/
theorem perm_entries_ofList {pairs : List (Nat × α)} (hids : (pairs.map (·.1)).Nodup) :
    (ofList pairs).entries.Perm pairs := by
  have hentries : (ofList pairs).entries.Nodup :=
    (entries_increasing _).imp fun h heq => Nat.ne_of_lt h (congrArg Prod.fst heq)
  have hpairs : pairs.Nodup :=
    List.Pairwise.of_map _ (fun _ _ hne heq => hne (congrArg Prod.fst heq)) hids
  refine (List.perm_ext_iff_of_nodup hentries hpairs).mpr fun ⟨id, value⟩ => ?_
  rw [mem_entries]
  exact ⟨mem_of_get?_ofList, get?_ofList hids⟩

/-- Tables that hold the same are equal. -/
theorem ext_get? {table other : ByUnit α} (h : ∀ id, table.get? id = other.get? id) :
    table = other := by
  cases table
  cases other
  exact congrArg ByUnit.mk (Std.ExtTreeMap.ext_getElem? h)

end ByUnit

end Salvo
