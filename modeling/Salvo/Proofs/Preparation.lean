import Mathlib.Data.List.Flatten
import Salvo.Proofs.Roster.SoundTypes
import Salvo.Scenario

/-! # What makes a scenario a battle

A scenario is prepared in stages: the rules, the unit types, the support rules, the two rosters.
Each stage asks something of each element of a list and fails with the first that does not have
it, so that a scenario is prepared if nothing is wrong with it anywhere (`Scenario.WellFormed`),
and refused for the first fault of the first stage that finds one (`Scenario.Fault`). The rosters
are mustered entry by entry with one supply of ids (`Musters`), so no id of the battle is used
twice unless it has more units than there are ids. -/

namespace Salvo

/-! ## Support rules -/

namespace SupportRule

variable {catalog : Catalog} {rule : SupportRule} {rules : List SupportRule}
  {error : SupportRuleError}

/-- The catalog has all the types that the rule names. -/
def Fits (names : List String) (rule : SupportRule) : Prop := ∀ name ∈ rule.typeNames, name ∈ names

theorem not_contains_iff (name : String) :
    (!catalog.contains name) = true ↔ ¬ name ∈ catalog.names := by
  rw [Bool.not_eq_true', ← Bool.not_eq_true, Catalog.contains_iff]

theorem check_eq_ok_iff :
    rule.check catalog = .ok () ↔ rule.Fits catalog.names := by
  rw [Fits, ← find?_eq_none_iff_forall not_contains_iff, check]
  split <;> simp [*]

/-- A rule that does not fit is refused for the first name that it has wrong. -/
theorem check_eq_error_iff :
    rule.check catalog = .error error ↔
      ∃ name, IsFirstFailing (· ∈ catalog.names) rule.typeNames name ∧
        .unknownUnitType rule.name name = error := by
  simp only [← find?_eq_some_iff_isFirstFailing not_contains_iff, check]
  split <;> simp [*]

theorem checkAll_eq_ok_iff :
    checkAll catalog rules = .ok () ↔ ∀ rule ∈ rules, rule.Fits catalog.names := by
  induction rules with
  | nil => simp [checkAll]
  | cons rule rules ih =>
    rw [checkAll, bind_eq_ok_iff, List.forall_mem_cons, ← ih, ← check_eq_ok_iff]
    exact ⟨fun ⟨_, h⟩ => h, fun h => ⟨(), h⟩⟩

theorem checkAll_eq_error_iff :
    checkAll catalog rules = .error error ↔
      ∃ rule, IsFirstFailing (Fits catalog.names) rules rule ∧
        ∃ name, IsFirstFailing (· ∈ catalog.names) rule.typeNames name ∧
          .unknownUnitType rule.name name = error := by
  induction rules with
  | nil => simp [checkAll, not_isFirstFailing_nil]
  | cons first rules ih =>
    rw [checkAll, bind_eq_error_iff, check_eq_error_iff, ih, exists_isFirstFailing_cons,
      ← check_eq_ok_iff]
    refine or_congr ⟨fun ⟨name, hname, herror⟩ => ⟨?_, name, hname, herror⟩, fun h => h.2⟩
      ⟨fun ⟨_, h⟩ => h, fun h => ⟨(), h⟩⟩
    rw [check_eq_ok_iff]
    exact hname.not_forall

end SupportRule

/-! ## Rosters -/

/-- The number of units on a roster. -/
def headcount (entries : List RosterEntry) : Nat := (entries.map (·.count)).sum

/-- The units are those of the roster, entry by entry, with consecutive ids from `next` on. After the
last id they start again from zero. -/
structure Musters (types : List UnitType) (owner : Player) (entries : List RosterEntry)
    (next : Nat) (units : List Combatant) : Prop where
  typeNames : units.map (·.typeName) =
    entries.flatMap fun entry => List.replicate entry.count entry.unitType
  type_mem : ∀ unit ∈ units, unit.type ∈ types
  owner : ∀ unit ∈ units, unit.owner = owner
  ids : units.map (·.id) = (List.range' next (headcount entries)).map (· % 2 ^ 32)

section

variable {types : List UnitType} {owner : Player} {entry : RosterEntry}
  {entries : List RosterEntry} {next : Nat} {units : List Combatant}

theorem headcount_cons : headcount (entry :: entries) = entry.count + headcount entries := by
  simp [headcount]

theorem musters_nil (types : List UnitType) (owner : Player) (next : Nat) :
    Musters types owner [] next [] where
  typeNames := rfl
  type_mem := List.forall_mem_nil _
  owner := List.forall_mem_nil _
  ids := rfl

theorem Musters.cons {type : UnitType} (htype : type ∈ types) (hname : type.name = entry.unitType)
    (h : Musters types owner entries (next + entry.count) units) :
    Musters types owner (entry :: entries) next
      ((List.range' next entry.count).map (fun id => ⟨id % 2 ^ 32, type, owner⟩) ++ units) where
  typeNames := by
    rw [List.map_append, List.flatMap_cons, h.typeNames, ← hname]
    simp [Function.comp_def, Combatant.typeName]
  type_mem := by
    rw [List.forall_mem_append, List.forall_mem_map]
    exact ⟨fun _ _ => htype, h.type_mem⟩
  owner := by
    rw [List.forall_mem_append, List.forall_mem_map]
    exact ⟨fun _ _ => rfl, h.owner⟩
  ids := by
    rw [List.map_append, h.ids, headcount_cons, List.range'_append_1.symm, List.map_append]
    simp [Function.comp_def]

end

namespace Catalog

variable {catalog : Catalog} {types : List UnitType} {owner : Player} {entry : RosterEntry}
  {entries : List RosterEntry} {ids : UnitIds} {next : Nat} {name : String} {error : CatalogError}

theorem exists_spawn_of_mem (h : name ∈ catalog.names) (count : Nat) (owner : Player)
    (ids : UnitIds) :
    ∃ type, catalog.find? name = some type ∧
      catalog.spawn name count owner ids =
        (.ok ((ids.drawMany count).1.map (Combatant.mk · type owner)), (ids.drawMany count).2) := by
  rcases catalog.spawn_cases name count owner ids with ⟨hunknown, -⟩ | hspawn
  · exact absurd h hunknown
  · exact hspawn

theorem spawnAll_cons_of_ok {units : List Combatant} {ids after : UnitIds}
    (h : catalog.spawn entry.unitType entry.count owner ids = (.ok units, after)) :
    catalog.spawnAll owner (entry :: entries) ids =
      (catalog.spawnAll owner entries after).map fun rest => (units ++ rest.1, rest.2) := by
  rw [spawnAll, h]
  rfl

theorem spawnAll_cons_of_not_mem {ids : UnitIds} (h : entry.unitType ∉ catalog.names) :
    catalog.spawnAll owner (entry :: entries) ids = .error (.unknownUnitType entry.unitType) := by
  rcases catalog.spawn_cases entry.unitType entry.count owner ids with ⟨-, hspawn⟩ | ⟨_, htype, -⟩
  · rw [spawnAll, hspawn]
  · cases (find?_eq_none_iff.mpr h).symm.trans htype

theorem spawnAll_eq_error_iff :
    catalog.spawnAll owner entries ids = .error error ↔
      ∃ entry, IsFirstFailing (fun entry => entry.unitType ∈ catalog.names) entries entry ∧
        .unknownUnitType entry.unitType = error := by
  induction entries generalizing ids with
  | nil => simp [spawnAll, not_isFirstFailing_nil]
  | cons entry entries ih =>
    rw [exists_isFirstFailing_cons]
    by_cases hentry : entry.unitType ∈ catalog.names
    · obtain ⟨type, _, hspawn⟩ := exists_spawn_of_mem hentry entry.count owner ids
      rw [spawnAll_cons_of_ok hspawn, ← @ih (ids.drawMany entry.count).2]
      cases catalog.spawnAll owner entries (ids.drawMany entry.count).2 <;>
        simp [hentry, Except.map]
    · rw [spawnAll_cons_of_not_mem hentry]
      simp [hentry]

theorem exists_musters (h : ∀ entry ∈ entries, entry.unitType ∈ (listing types).names)
    (owner : Player) (next : Nat) :
    ∃ units, Musters types owner entries next units ∧
      (listing types).spawnAll owner entries ⟨.ofNat next⟩ =
        .ok (units, ⟨.ofNat (next + headcount entries)⟩) := by
  induction entries generalizing next with
  | nil => exact ⟨[], musters_nil .., rfl⟩
  | cons entry entries ih =>
    obtain ⟨hentry, hentries⟩ := List.forall_mem_cons.mp h
    obtain ⟨type, htype, hspawn⟩ := exists_spawn_of_mem hentry entry.count owner ⟨.ofNat next⟩
    rw [UnitIds.drawMany_ofNat, List.map_map] at hspawn
    obtain ⟨hmem, hname⟩ := mem_of_find?_listing htype
    obtain ⟨units, hunits, hrest⟩ := ih hentries (next + entry.count)
    refine ⟨_, hunits.cons hmem hname, ?_⟩
    rw [spawnAll_cons_of_ok hspawn, hrest, headcount_cons, ← Nat.add_assoc]
    rfl

theorem musters_of_spawnAll {mustered : List Combatant × UnitIds}
    (h : (listing types).spawnAll owner entries ⟨.ofNat next⟩ = .ok mustered) :
    Musters types owner entries next mustered.1 ∧
      mustered.2 = ⟨.ofNat (next + headcount entries)⟩ := by
  rcases forall_or_exists_isFirstFailing
    (fun entry => entry.unitType ∈ (listing types).names) entries with hall | ⟨entry, hentry⟩
  · obtain ⟨units, hunits, hspawn⟩ := exists_musters hall owner next
    cases h.symm.trans hspawn
    exact ⟨hunits, rfl⟩
  · cases h.symm.trans (spawnAll_eq_error_iff.mpr ⟨entry, hentry, rfl⟩)

theorem exists_spawnAll_iff (owner : Player) (ids : UnitIds) :
    (∃ mustered, (listing types).spawnAll owner entries ids = .ok mustered) ↔
      ∀ entry ∈ entries, entry.unitType ∈ (listing types).names := by
  constructor
  · rintro ⟨mustered, h⟩
    rcases forall_or_exists_isFirstFailing
      (fun entry => entry.unitType ∈ (listing types).names) entries with hall | ⟨entry, hentry⟩
    · exact hall
    · cases h.symm.trans (spawnAll_eq_error_iff.mpr ⟨entry, hentry, rfl⟩)
  · intro h
    obtain ⟨next, rfl⟩ := ids.exists_eq_ofNat
    obtain ⟨units, _, hspawn⟩ := exists_musters h owner next
    exact ⟨_, hspawn⟩

end Catalog

/-! ## Scenarios -/

theorem RuleSet.validate_eq_error_iff {rules : RuleSet} {error : RuleSetError} :
    rules.validate = .error error ↔
      rules.diceSides < 1 ∧ .invalidDiceSides rules.diceSides = error := by
  unfold validate
  split <;> simp [*]

namespace Scenario

/-- The unit types of the battle. -/
def types (scenario : Scenario) : List UnitType :=
  if scenario.unitTypes.isEmpty then Catalog.classic.types else scenario.unitTypes

def typeNames (scenario : Scenario) : List String := scenario.types.map (·.name)

/-- The support rules of the battle. -/
def rulesOfSupport (scenario : Scenario) : List SupportRule :=
  scenario.supportRules.getD SupportRule.classic

/-- The unit types that the scenario declares make a catalog. -/
structure HasCatalog (scenario : Scenario) : Prop where
  sound : ∀ type ∈ scenario.unitTypes, type.Sound
  nodup : (scenario.unitTypes.map (·.name)).Nodup

structure WellFormed (scenario : Scenario) : Prop where
  diceSides : 1 ≤ scenario.rules.diceSides
  catalog : scenario.HasCatalog
  support : ∀ rule ∈ scenario.rulesOfSupport, rule.Fits scenario.typeNames
  rosters : ∀ entry ∈ scenario.offense ++ scenario.defense, entry.unitType ∈ scenario.typeNames

/-- The first fault of the first stage that finds one. -/
inductive Fault (scenario : Scenario) : PreparationError → Prop
  | rules : scenario.rules.diceSides < 1 →
      Fault scenario (.rules (.invalidDiceSides scenario.rules.diceSides))
  | unitType {before after : List UnitType} {type : UnitType} {error : CatalogError} :
      1 ≤ scenario.rules.diceSides →
      scenario.unitTypes = before ++ type :: after → (∀ type ∈ before, type.Sound) →
      (before.map (·.name)).Nodup → type.Fault (before.map (·.name)) error →
      Fault scenario (.catalog error)
  | support {rule : SupportRule} {name : String} :
      1 ≤ scenario.rules.diceSides → scenario.HasCatalog →
      IsFirstFailing (SupportRule.Fits scenario.typeNames) scenario.rulesOfSupport rule →
      IsFirstFailing (· ∈ scenario.typeNames) rule.typeNames name →
      Fault scenario (.support (.unknownUnitType rule.name name))
  | roster {entry : RosterEntry} :
      1 ≤ scenario.rules.diceSides → scenario.HasCatalog →
      (∀ rule ∈ scenario.rulesOfSupport, rule.Fits scenario.typeNames) →
      IsFirstFailing (fun entry => entry.unitType ∈ scenario.typeNames)
        (scenario.offense ++ scenario.defense) entry →
      Fault scenario (.catalog (.unknownUnitType entry.unitType))

/-- The battle that a scenario describes. -/
structure Describes (scenario : Scenario) (setup : BattleSetup) : Prop where
  rules : setup.rules = scenario.rules
  supportRules : setup.supportRules = scenario.rulesOfSupport
  kind : setup.battle.kind = scenario.kind
  attacker : setup.battle.attacker = scenario.attacker
  defender : setup.battle.defender = scenario.defender
  context : setup.battle.context = scenario.context
  offense : Musters scenario.types scenario.attacker scenario.offense 0 setup.battle.offense
  defense : Musters scenario.types scenario.defender scenario.defense
    (headcount scenario.offense) setup.battle.defense

variable {scenario : Scenario} {setup : BattleSetup}

theorem names_listing_types : (Catalog.listing scenario.types).names = scenario.typeNames :=
  Catalog.names_listing

theorem catalog_eq_ok_iff {catalog : Catalog} :
    scenario.catalog = .ok catalog ↔
      scenario.HasCatalog ∧ Catalog.listing scenario.types = catalog := by
  have hcatalog : scenario.HasCatalog ↔
      (∀ type ∈ scenario.unitTypes, type.Sound) ∧ (scenario.unitTypes.map (·.name)).Nodup :=
    ⟨fun h => ⟨h.sound, h.nodup⟩, fun h => ⟨h.1, h.2⟩⟩
  rw [hcatalog, and_assoc, Scenario.catalog, types]
  split
  · rename_i hempty
    rw [List.isEmpty_iff.mp hempty, Catalog.listing_types_classic]
    simp
  · exact Catalog.ofTypes_eq_ok_iff

theorem catalog_eq_error_iff {error : CatalogError} :
    scenario.catalog = .error error ↔
      ∃ before type after, scenario.unitTypes = before ++ type :: after ∧
        (∀ type ∈ before, type.Sound) ∧ (before.map (·.name)).Nodup ∧
        type.Fault (before.map (·.name)) error := by
  rw [Scenario.catalog]
  split
  · rename_i hempty
    rw [List.isEmpty_iff.mp hempty]
    simp
  · exact Catalog.ofTypes_eq_error_iff

/-- The stages that a prepared scenario has passed. -/
theorem prepare_eq_ok_iff :
    scenario.prepare = .ok setup ↔
      1 ≤ scenario.rules.diceSides ∧ scenario.HasCatalog ∧
        (∀ rule ∈ scenario.rulesOfSupport, rule.Fits scenario.typeNames) ∧
        ∃ offense ids defense last,
          (Catalog.listing scenario.types).spawnAll scenario.attacker scenario.offense {} =
            .ok (offense, ids) ∧
          (Catalog.listing scenario.types).spawnAll scenario.defender scenario.defense ids =
            .ok (defense, last) ∧
          setup = {
            battle := {
              kind := scenario.kind
              attacker := scenario.attacker
              defender := scenario.defender
              offense
              defense
              context := scenario.context }
            rules := scenario.rules
            supportRules := scenario.rulesOfSupport } := by
  rw [prepare]
  simp only [bind_eq_ok_iff, mapError_eq_ok_iff, Prod.exists, Unique.exists_iff,
    PUnit.default_eq_unit, catalog_eq_ok_iff, SupportRule.checkAll_eq_ok_iff,
    RuleSet.validate_eq_ok_iff]
  constructor
  · rintro ⟨hrules, _, ⟨hcatalog, rfl⟩, hsupport, offense, ids, hoffense, defense, last, hdefense,
      hsetup⟩
    cases hsetup
    rw [names_listing_types] at hsupport
    exact ⟨hrules, hcatalog, hsupport, offense, ids, defense, last, hoffense, hdefense, rfl⟩
  · rintro ⟨hrules, hcatalog, hsupport, offense, ids, defense, last, hoffense, hdefense, rfl⟩
    rw [← names_listing_types] at hsupport
    exact ⟨hrules, _, ⟨hcatalog, rfl⟩, hsupport, offense, ids, hoffense, defense, last, hdefense,
      rfl⟩

theorem prepare_eq_error_iff {error : PreparationError} :
    scenario.prepare = .error error ↔ scenario.Fault error := by
  rw [prepare]
  simp only [bind_eq_error_iff, mapError_eq_ok_iff, mapError_eq_error_iff, Prod.exists,
    Unique.exists_iff, PUnit.default_eq_unit, catalog_eq_ok_iff, catalog_eq_error_iff,
    SupportRule.checkAll_eq_ok_iff, SupportRule.checkAll_eq_error_iff, RuleSet.validate_eq_ok_iff,
    RuleSet.validate_eq_error_iff, Catalog.spawnAll_eq_error_iff]
  constructor
  · rintro (⟨_, ⟨hlow, rfl⟩, rfl⟩ | ⟨hrules, ⟨_, ⟨_, _, _, htypes, hsound, hnodup, hfault⟩, rfl⟩ |
      ⟨_, ⟨hcatalog, rfl⟩, ⟨_, ⟨_, hrule, _, hname, rfl⟩, rfl⟩ |
      ⟨hsupport, ⟨_, ⟨_, hentry, rfl⟩, rfl⟩ |
      ⟨_, _, hoffense, ⟨_, ⟨_, hentry, rfl⟩, rfl⟩ | ⟨_, _, _, hpure⟩⟩⟩⟩⟩)
    · exact .rules hlow
    · exact .unitType hrules htypes hsound hnodup hfault
    · rw [names_listing_types] at hrule hname
      exact .support hrules hcatalog hrule hname
    · rw [names_listing_types] at hsupport hentry
      exact .roster hrules hcatalog hsupport (isFirstFailing_append.mpr (.inl hentry))
    · have hknown := (Catalog.exists_spawnAll_iff ..).mp ⟨_, hoffense⟩
      rw [names_listing_types] at hsupport hentry hknown
      exact .roster hrules hcatalog hsupport (isFirstFailing_append.mpr (.inr ⟨hknown, hentry⟩))
    · cases hpure
  · intro h
    cases h with
    | rules hlow => exact .inl ⟨_, ⟨hlow, rfl⟩, rfl⟩
    | unitType hrules htypes hsound hnodup hfault =>
      exact .inr ⟨hrules, .inl ⟨_, ⟨_, _, _, htypes, hsound, hnodup, hfault⟩, rfl⟩⟩
    | support hrules hcatalog hrule hname =>
      rw [← names_listing_types] at hrule hname
      exact .inr ⟨hrules, .inr ⟨_, ⟨hcatalog, rfl⟩, .inl ⟨_, ⟨_, hrule, _, hname, rfl⟩, rfl⟩⟩⟩
    | roster hrules hcatalog hsupport hentry =>
      rw [← names_listing_types] at hsupport hentry
      refine .inr ⟨hrules, .inr ⟨_, ⟨hcatalog, rfl⟩, .inr ⟨hsupport, ?_⟩⟩⟩
      rcases isFirstFailing_append.mp hentry with hentry | ⟨hknown, hentry⟩
      · exact .inl ⟨_, ⟨_, hentry, rfl⟩, rfl⟩
      · obtain ⟨⟨offense, ids⟩, hoffense⟩ :=
          (Catalog.exists_spawnAll_iff scenario.attacker {}).mpr hknown
        exact .inr ⟨offense, ids, hoffense, .inl ⟨_, ⟨_, hentry, rfl⟩, rfl⟩⟩

theorem exists_prepare_iff : (∃ setup, scenario.prepare = .ok setup) ↔ scenario.WellFormed := by
  simp only [prepare_eq_ok_iff]
  constructor
  · rintro ⟨_, hrules, hcatalog, hsupport, _, _, _, _, hoffense, hdefense, _⟩
    have hrosters := List.forall_mem_append.mpr
      ⟨(Catalog.exists_spawnAll_iff ..).mp ⟨_, hoffense⟩, (Catalog.exists_spawnAll_iff ..).mp ⟨_, hdefense⟩⟩
    rw [names_listing_types] at hrosters
    exact ⟨hrules, hcatalog, hsupport, hrosters⟩
  · rintro ⟨hrules, hcatalog, hsupport, hrosters⟩
    rw [← names_listing_types] at hrosters
    obtain ⟨hoffense, hdefense⟩ := List.forall_mem_append.mp hrosters
    obtain ⟨⟨offense, ids⟩, hoffense⟩ :=
      (Catalog.exists_spawnAll_iff scenario.attacker {}).mpr hoffense
    obtain ⟨⟨defense, last⟩, hdefense⟩ :=
      (Catalog.exists_spawnAll_iff scenario.defender ids).mpr hdefense
    exact ⟨_, hrules, hcatalog, hsupport, offense, ids, defense, last, hoffense, hdefense, rfl⟩

theorem describes_of_prepare (h : scenario.prepare = .ok setup) : scenario.Describes setup := by
  obtain ⟨_, _, _, offense, ids, defense, last, hoffense, hdefense, rfl⟩ := prepare_eq_ok_iff.mp h
  obtain ⟨hmusters, rfl⟩ : Musters scenario.types scenario.attacker scenario.offense 0 offense ∧
      ids = ⟨.ofNat (0 + headcount scenario.offense)⟩ := Catalog.musters_of_spawnAll hoffense
  rw [Nat.zero_add] at hdefense
  exact ⟨rfl, rfl, rfl, rfl, rfl, rfl, hmusters, (Catalog.musters_of_spawnAll hdefense).1⟩

/-- The ids of the battle count its units. -/
theorem Describes.ids (h : scenario.Describes setup) :
    (setup.battle.offense ++ setup.battle.defense).map (·.id) =
      (List.range (headcount (scenario.offense ++ scenario.defense))).map (· % 2 ^ 32) := by
  have hsum : headcount (scenario.offense ++ scenario.defense) =
      headcount scenario.offense + headcount scenario.defense := by
    simp [headcount]
  rw [List.map_append, h.offense.ids, h.defense.ids, hsum, List.range_eq_range',
    ← List.range'_append_1, Nat.zero_add, List.map_append]

/-- A scenario is prepared if it is well formed, and refused for its first fault otherwise. The
battle has the units that the rosters list, in order, and numbers them from zero on. No two have one
id unless there are more units than ids. -/
theorem prepare_spec (scenario : Scenario) :
    ((∃ setup, scenario.prepare = .ok setup) ↔ scenario.WellFormed) ∧
    (∀ error, scenario.prepare = .error error ↔ scenario.Fault error) ∧
    ∀ setup, scenario.prepare = .ok setup →
      scenario.Describes setup ∧
      (setup.battle.offense ++ setup.battle.defense).map (·.id) =
        (List.range (headcount (scenario.offense ++ scenario.defense))).map (· % 2 ^ 32) ∧
      (headcount (scenario.offense ++ scenario.defense) ≤ 2 ^ 32 →
        (setup.battle.offense ++ setup.battle.defense).map (·.id) =
          List.range (headcount (scenario.offense ++ scenario.defense)) ∧
        ((setup.battle.offense ++ setup.battle.defense).map (·.id)).Nodup) := by
  refine ⟨exists_prepare_iff, fun error => prepare_eq_error_iff, fun setup h => ?_⟩
  have hids := (describes_of_prepare h).ids
  refine ⟨describes_of_prepare h, hids, fun hcount => ?_⟩
  rw [List.range_eq_range', UnitIds.map_mod_range' (by omega), ← List.range_eq_range'] at hids
  rw [hids]
  exact ⟨rfl, List.nodup_range⟩

/-- An entry without units has to name a type all the same. -/
theorem prepare_spec_of_patrol :
    let scenario : Scenario :=
      { attacker := { name := "Germans" }
        defender := { name := "Russians" }
        context := { territory := "Ukraine" }
        offense := [⟨"infantry", 2⟩, ⟨"fighter", 0⟩]
        defense := [⟨"artillery", 1⟩] }
    let unknown : Scenario := { scenario with defense := [⟨"zeppelin", 0⟩] }
    (∃ setup, scenario.prepare = .ok setup ∧
      (setup.battle.offense ++ setup.battle.defense).map (·.id) = [0, 1, 2] ∧
      setup.battle.offense.map (·.typeName) = ["infantry", "infantry"]) ∧
    unknown.prepare = .error (.catalog (.unknownUnitType "zeppelin")) := by
  intro scenario unknown
  have hrules : 1 ≤ ({} : RuleSet).diceSides := by decide
  have hsupport : ∀ rule ∈ SupportRule.classic, rule.Fits (Catalog.classic.types.map (·.name)) := by
    unfold SupportRule.Fits
    decide +kernel
  constructor
  · have hrosters : ∀ entry ∈ scenario.offense ++ scenario.defense,
        entry.unitType ∈ scenario.typeNames := by
      decide +kernel
    obtain ⟨haccepted, _, hfaithful⟩ := prepare_spec scenario
    obtain ⟨setup, h⟩ := haccepted.mpr
      ⟨hrules, ⟨List.forall_mem_nil _, List.nodup_nil⟩, hsupport, hrosters⟩
    obtain ⟨hdescribes, _, hids⟩ := hfaithful setup h
    exact ⟨setup, h, (hids (by decide)).1, hdescribes.offense.typeNames⟩
  · obtain ⟨_, hrefused, _⟩ := prepare_spec unknown
    refine (hrefused _).mpr (@Fault.roster unknown ⟨"zeppelin", 0⟩ hrules
      ⟨List.forall_mem_nil _, List.nodup_nil⟩ hsupport ?_)
    refine ⟨unknown.offense, [], rfl, ?_, ?_⟩
    · decide +kernel
    · decide +kernel

end Scenario

end Salvo
