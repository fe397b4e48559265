import Mathlib.Data.List.Nodup
import Mathlib.Tactic.MkIffOfInductiveProp
import Salvo.Proofs.FirstFailure
import Salvo.Roster.Catalog

/-! # Sound unit types

A catalog takes types in turn, and the first that it refuses decides the error. It refuses a type
whose name is in use, whatever else is wrong with it, and a type that is not sound, for the first
of its declarations that is out of bounds (`UnitType.Fault`). So a list of types makes a catalog
just when the types are sound and have distinct names (`Catalog.ofTypes_eq_ok_iff`). -/

namespace Salvo

/-! ## One type -/

namespace UnitType

/-- The sides of the dice of its guns, if the type declares them. -/
def declaredSides (type : UnitType) : Option Int := type.antiAircraft.bind (·.diceSides)

/-- A count of rolls that a type may declare. -/
def AllowsRolls (rolls : Int) : Prop := 0 ≤ rolls ∧ rolls ≤ maxDeclaredRolls

@[mk_iff]
structure Sound (type : UnitType) : Prop where
  attackRolls : AllowsRolls type.attackRolls
  defenseRolls : AllowsRolls type.defenseRolls
  maxRolls : ∀ gun, type.antiAircraft = some gun → ∀ rolls, gun.maxRolls = some rolls →
    AllowsRolls rolls
  diceSides : ∀ gun, type.antiAircraft = some gun → ∀ sides, gun.diceSides = some sides → 1 ≤ sides

/-- What is wrong with a type that is not sound. -/
@[mk_iff]
inductive Flaw (type : UnitType) : CatalogError → Prop
  | rolls {count : RollCount} {value : Int} :
      IsFirstFailing (fun declared => AllowsRolls declared.2) type.declaredRolls (count, value) →
      Flaw type (.invalidRolls type.name count value)
  | diceSides {sides : Int} :
      (∀ declared ∈ type.declaredRolls, AllowsRolls declared.2) →
      type.declaredSides = some sides → sides < 1 →
      Flaw type (.invalidAntiAircraftDice type.name sides)

/-- What is wrong with a type that is to stand in a catalog where these names are taken. -/
inductive Fault (taken : List String) (type : UnitType) : CatalogError → Prop
  | duplicate : type.name ∈ taken → Fault taken type (.duplicateUnitType type.name)
  | flaw {error : CatalogError} : type.name ∉ taken → type.Flaw error → Fault taken type error

variable {type : UnitType} {error : CatalogError}

/-- What is checked of a type, in the order in which it is checked. -/
theorem sound_iff_declared :
    type.Sound ↔ (∀ declared ∈ type.declaredRolls, AllowsRolls declared.2) ∧
      ∀ sides, type.declaredSides = some sides → 1 ≤ sides := by
  rw [sound_iff, declaredRolls, declaredSides]
  cases hgun : type.antiAircraft with
  | none => simp
  | some gun => simp [and_assoc]

theorem outOfBounds_iff (declared : RollCount × Int) :
    (!(decide (0 ≤ declared.2) && decide (declared.2 ≤ maxDeclaredRolls))) = true ↔
      ¬ AllowsRolls declared.2 := by
  simp only [AllowsRolls, Bool.not_eq_true', Bool.and_eq_false_iff, decide_eq_false_iff_not]
  omega

theorem validate_eq_error_iff : type.validate = .error error ↔ type.Flaw error := by
  unfold validate
  split
  · rename_i count value hfind
    have hfirst := (find?_eq_some_iff_isFirstFailing outOfBounds_iff).mp hfind
    constructor
    · intro h
      cases h
      exact .rolls hfirst
    · intro h
      cases h with
      | rolls hother =>
        have hsame := (find?_eq_some_iff_isFirstFailing outOfBounds_iff).mpr hother
        cases hfind.symm.trans hsame
        rfl
      | diceSides hrolls => exact absurd hrolls hfirst.not_forall
  · rename_i hfind
    have hrolls := (find?_eq_none_iff_forall outOfBounds_iff).mp hfind
    have hnot (declared : RollCount × Int) : ¬ IsFirstFailing
        (fun declared => AllowsRolls declared.2) type.declaredRolls declared :=
      fun hfirst => hfirst.not_forall hrolls
    rw [flaw_iff]
    split
    · rename_i sides hsides
      split
      · rename_i hlow
        simpa [hnot, declaredSides, hsides, hlow, eq_comm, -Prod.forall] using fun _ => hrolls
      · rename_i hhigh
        simp [hnot, declaredSides, hsides, hhigh]
    · rename_i hsides
      simp [hnot, declaredSides, hsides]

theorem validate_eq_ok_iff : type.validate = .ok () ↔ type.Sound := by
  unfold validate
  split
  · rename_i hfind
    have hfirst := (find?_eq_some_iff_isFirstFailing outOfBounds_iff).mp hfind
    exact iff_of_false (by simp) fun h => hfirst.not_forall (sound_iff_declared.mp h).1
  · rename_i hfind
    have hrolls := (find?_eq_none_iff_forall outOfBounds_iff).mp hfind
    rw [sound_iff_declared, and_iff_right hrolls, declaredSides]
    split
    · rename_i sides hsides
      split
      · rename_i hlow
        simp [hsides, hlow]
      · rename_i hhigh
        simp only [hsides, Option.some.injEq, true_iff]
        omega
    · rename_i hsides
      simp [hsides]

theorem Flaw.not_sound (h : type.Flaw error) : ¬ type.Sound := by
  intro hsound
  have hvalid := validate_eq_ok_iff.mpr hsound
  rw [validate_eq_error_iff.mpr h] at hvalid
  cases hvalid

/-- A type is not at fault but for its name or a flaw. -/
theorem Fault.not_sound {taken : List String} (h : type.Fault taken error)
    (hfree : type.name ∉ taken) : ¬ type.Sound := by
  cases h with
  | duplicate htaken => exact absurd htaken hfree
  | flaw _ hflaw => exact hflaw.not_sound

end UnitType

/-! ## Types in turn -/

namespace Catalog

variable {catalog : Catalog} {type : UnitType} {types : List UnitType} {error : CatalogError}
  {name : String}

theorem nodup_names_empty : empty.names.Nodup := List.nodup_nil

@[simp] theorem names_add : (catalog.add type).names = catalog.names ++ [type.name] := by
  simp [names, add]

@[simp] theorem types_add : (catalog.add type).types = catalog.types ++ [type] := by
  simp [Catalog.types, add]

@[simp] theorem names_listing : (listing types).names = types.map (·.name) := by
  simp [names, listing]

@[simp] theorem types_listing : (listing types).types = types := by
  simp [Catalog.types, listing, Function.comp_def]

theorem listing_types_classic : listing classic.types = classic := congrArg listing types_listing

theorem find?_eq_none_iff : catalog.find? name = none ↔ name ∉ catalog.names := by
  rw [find?, List.lookup_eq_none_iff, names, List.mem_map]
  constructor
  · rintro h ⟨entry, hentry, rfl⟩
    simpa using h entry hentry
  · intro h entry hentry
    exact bne_iff_ne.mpr fun heq => h ⟨entry, hentry, heq.symm⟩

theorem mem_entries_of_find? (h : catalog.find? name = some type) :
    (name, type) ∈ catalog.entries := by
  obtain ⟨before, after, hentries, -⟩ := List.lookup_eq_some_iff.mp h
  simp [hentries]

theorem mem_of_find?_listing (h : (listing types).find? name = some type) :
    type ∈ types ∧ type.name = name := by
  obtain ⟨other, hother, hentry⟩ := List.mem_map.mp (mem_entries_of_find? h)
  cases hentry
  exact ⟨hother, rfl⟩

theorem contains_iff : catalog.contains name = true ↔ name ∈ catalog.names := by
  rw [contains, Option.isSome_iff_ne_none, ne_eq, find?_eq_none_iff, not_not]

theorem contains_eq : catalog.contains name = decide (name ∈ catalog.names) := by
  rw [Bool.eq_iff_iff, contains_iff, decide_eq_true_iff]

theorem get_eq_ok_iff : catalog.get name = .ok type ↔ catalog.find? name = some type := by
  unfold get
  split <;> simp [*]

theorem get_eq_error_iff :
    catalog.get name = .error error ↔ name ∉ catalog.names ∧ .unknownUnitType name = error := by
  rw [← find?_eq_none_iff]
  unfold get
  split <;> simp [*]

/-- A spawn is refused, or all its units have the type of the name and the next ids. -/
theorem spawn_cases (catalog : Catalog) (name : String) (count : Nat) (owner : Player)
    (ids : UnitIds) :
    (name ∉ catalog.names ∧
        catalog.spawn name count owner ids = (.error (.unknownUnitType name), ids)) ∨
      ∃ type, catalog.find? name = some type ∧
        catalog.spawn name count owner ids =
          (.ok ((ids.drawMany count).1.map (Combatant.mk · type owner)),
            (ids.drawMany count).2) := by
  cases hget : catalog.get name with
  | error error =>
    obtain ⟨hunknown, rfl⟩ := get_eq_error_iff.mp hget
    exact .inl ⟨hunknown, by rw [spawn, hget]⟩
  | ok type => exact .inr ⟨type, get_eq_ok_iff.mp hget, by rw [spawn, hget]⟩

/-- A type is taken in or refused, and a catalog that refuses one is left as it was. -/
theorem insert_cases (catalog : Catalog) (type : UnitType) :
    (type.name ∉ catalog.names ∧ type.Sound ∧ catalog.insert type = (.ok (), catalog.add type)) ∨
      ∃ error, type.Fault catalog.names error ∧ catalog.insert type = (.error error, catalog) := by
  by_cases htaken : catalog.contains type.name = true
  · refine .inr ⟨_, .duplicate (contains_iff.mp htaken), ?_⟩
    rw [insert, if_pos htaken]
  · have hfree := mt contains_iff.mpr htaken
    rw [insert, if_neg htaken]
    cases hvalid : type.validate with
    | error error => exact .inr ⟨error, .flaw hfree (UnitType.validate_eq_error_iff.mp hvalid), rfl⟩
    | ok => exact .inl ⟨hfree, UnitType.validate_eq_ok_iff.mp hvalid, rfl⟩

theorem insert_of_fault (h : type.Fault catalog.names error) :
    catalog.insert type = (.error error, catalog) := by
  cases h with
  | duplicate htaken => rw [insert, if_pos (contains_iff.mpr htaken)]
  | flaw hfree hflaw =>
    rw [insert, if_neg (mt contains_iff.mp hfree), UnitType.validate_eq_error_iff.mpr hflaw]

theorem nodup_append_singleton_iff {names : List String} (h : names.Nodup) :
    (names ++ [name]).Nodup ↔ name ∉ names := by
  simp only [List.nodup_append, h, List.nodup_singleton, List.mem_singleton, true_and]
  exact ⟨fun hne hmem => hne _ hmem name rfl rfl, fun hfree _ hmem _ heq h => hfree (heq ▸ h ▸ hmem)⟩

/-- The types stand in a catalog as they were given. -/
theorem insertAll_eq_ok_iff {result : Catalog} (h : catalog.names.Nodup) :
    catalog.insertAll types = .ok result ↔
      (∀ type ∈ types, type.Sound) ∧ (catalog.names ++ types.map (·.name)).Nodup ∧
        types.foldl add catalog = result := by
  induction types generalizing catalog with
  | nil => simp [insertAll, h]
  | cons type types ih =>
    rw [insertAll, List.forall_mem_cons, List.map_cons, List.append_cons, ← names_add]
    rcases catalog.insert_cases type with ⟨hfree, hsound, hinsert⟩ | ⟨error, hfault, hinsert⟩
    · rw [hinsert, and_iff_right hsound]
      exact ih (names_add ▸ (nodup_append_singleton_iff h).mpr hfree)
    · rw [hinsert]
      refine iff_of_false nofun fun ⟨⟨hsound, _⟩, hnodup, _⟩ => ?_
      rw [names_add] at hnodup
      exact hfault.not_sound ((nodup_append_singleton_iff h).mp hnodup.of_append_left) hsound

theorem insertAll_eq_error_iff (h : catalog.names.Nodup) :
    catalog.insertAll types = .error error ↔
      ∃ before type after, types = before ++ type :: after ∧ (∀ type ∈ before, type.Sound) ∧
        (catalog.names ++ before.map (·.name)).Nodup ∧
        type.Fault (catalog.names ++ before.map (·.name)) error := by
  induction types generalizing catalog with
  | nil => simp [insertAll]
  | cons first types ih =>
    rw [insertAll]
    rcases catalog.insert_cases first with ⟨hfree, hsound, hinsert⟩ | ⟨cause, hfault, hinsert⟩
    · rw [hinsert]
      refine (ih (names_add ▸ (nodup_append_singleton_iff h).mpr hfree)).trans ?_
      simp only [names_add]
      constructor
      · rintro ⟨before, type, after, rfl, hsounds, hnodup, hfault⟩
        rw [List.append_assoc, List.singleton_append] at hnodup hfault
        exact ⟨first :: before, type, after, rfl, List.forall_mem_cons.mpr ⟨hsound, hsounds⟩,
          hnodup, hfault⟩
      · rintro ⟨before, type, after, htypes, hsounds, hnodup, hfault⟩
        cases before with
        | nil =>
          cases htypes
          rw [List.map_nil, List.append_nil] at hfault
          exact absurd hsound (hfault.not_sound hfree)
        | cons _ before =>
          cases htypes
          rw [List.map_cons, List.append_cons] at hnodup hfault
          exact ⟨before, type, after, rfl, (List.forall_mem_cons.mp hsounds).2, hnodup, hfault⟩
    · rw [hinsert]
      constructor
      · rintro ⟨⟩
        exact ⟨[], first, types, rfl, List.forall_mem_nil _, by simpa using h, by simpa using hfault⟩
      · rintro ⟨before, type, after, htypes, hsounds, hnodup, hother⟩
        cases before with
        | nil =>
          cases htypes
          rw [List.map_nil, List.append_nil] at hother
          rw [insert_of_fault hother] at hinsert
          cases hinsert
          rfl
        | cons _ before =>
          cases htypes
          rw [List.map_cons, List.append_cons] at hnodup
          have hfree := (nodup_append_singleton_iff h).mp hnodup.of_append_left
          exact absurd (List.forall_mem_cons.mp hsounds).1 (hfault.not_sound hfree)

theorem foldl_add (catalog : Catalog) (types : List UnitType) :
    types.foldl add catalog = ⟨catalog.entries ++ (listing types).entries⟩ := by
  induction types generalizing catalog with
  | nil => simp [listing]
  | cons type types ih => simp [ih, add, listing]

theorem ofTypes_eq_ok_iff :
    ofTypes types = .ok catalog ↔
      (∀ type ∈ types, type.Sound) ∧ (types.map (·.name)).Nodup ∧ listing types = catalog := by
  rw [ofTypes, insertAll_eq_ok_iff nodup_names_empty, foldl_add]
  rfl

theorem ofTypes_eq_error_iff :
    ofTypes types = .error error ↔
      ∃ before type after, types = before ++ type :: after ∧ (∀ type ∈ before, type.Sound) ∧
        (before.map (·.name)).Nodup ∧ type.Fault (before.map (·.name)) error :=
  insertAll_eq_error_iff nodup_names_empty

end Catalog

end Salvo
