/-! # Tables by name

`ByName α` holds one value per name. Setting a name that is present replaces its value. -/

namespace Salvo

structure ByName (α : Type) where
  entries : List (String × α) := []
  deriving DecidableEq, Repr, Inhabited

namespace ByName

variable {α : Type}

def get? (table : ByName α) (name : String) : Option α := table.entries.lookup name

def erase (table : ByName α) (name : String) : ByName α :=
  ⟨table.entries.filter (·.1 != name)⟩

def set (table : ByName α) (name : String) (value : α) : ByName α :=
  ⟨(table.erase name).entries ++ [(name, value)]⟩

theorem get?_cons (key : String) (value : α) (entries : List (String × α)) (name : String) :
    (ByName.mk ((key, value) :: entries)).get? name =
      if name = key then some value else (ByName.mk entries).get? name := by
  by_cases h : name = key
  · simp [get?, h]
  · simp [get?, List.lookup_cons, h, beq_false_of_ne h]

theorem get?_erase (table : ByName α) (name other : String) :
    (table.erase name).get? other = if other = name then none else table.get? other := by
  obtain ⟨entries⟩ := table
  induction entries with
  | nil => simp [erase, get?]
  | cons entry entries ih =>
    obtain ⟨key, value⟩ := entry
    rw [erase] at ih ⊢
    rw [List.filter_cons, get?_cons]
    by_cases hkey : key = name
    · rw [if_neg (by simp [hkey]), ih]
      by_cases hother : other = name
      · simp [hother]
      · simp [hother, hkey]
    · rw [if_pos (by simp [hkey]), get?_cons, ih]
      by_cases hother : other = key
      · simp [hother, hkey]
      · simp [hother]

theorem get?_set (table : ByName α) (name : String) (value : α) (other : String) :
    (table.set name value).get? other =
      if other = name then some value else table.get? other := by
  have happend : (table.set name value).get? other =
      ((table.erase name).get? other).or ((ByName.mk [(name, value)]).get? other) :=
    List.lookup_append
  rw [happend, get?_erase, get?_cons]
  by_cases h : other = name
  · simp [h]
  · simp [h, get?]

end ByName

end Salvo
