import Salvo.Number.Arithmetic
import Salvo.Roster.Combatant

/-! # Catalogs of unit types

A catalog finds unit types by name. It takes in valid types under names that are not in use, and is
left as it was by a type that it refuses. Units are created from it with consecutive ids, and an
unknown name uses up no id. -/

namespace Salvo

/-- The counts of rolls that a unit type declares. -/
inductive RollCount where
  | attack
  | defense
  | antiAircraft
  deriving DecidableEq, Repr

def RollCount.name : RollCount → String
  | attack => "attack_rolls"
  | defense => "defense_rolls"
  | antiAircraft => "aa max_rolls"

inductive CatalogError where
  | unknownUnitType (name : String)
  | duplicateUnitType (name : String)
  | invalidRolls (unitType : String) (count : RollCount) (value : Int)
  | invalidAntiAircraftDice (unitType : String) (sides : Int)
  deriving DecidableEq, Repr

/-- The most rolls that a unit type may declare. -/
def maxDeclaredRolls : Int := 1000

def CatalogError.message : CatalogError → String
  | unknownUnitType name => "unknown unit type: '" ++ name ++ "'"
  | duplicateUnitType name => "duplicate unit type: '" ++ name ++ "'"
  | invalidRolls unitType count value =>
    "unit type '" ++ unitType ++ "': " ++ count.name ++ " must be 0..=" ++
      toString maxDeclaredRolls ++ ", got " ++ toString value
  | invalidAntiAircraftDice unitType sides =>
    "unit type '" ++ unitType ++ "': AA dice sides must be at least 1, got " ++ toString sides

namespace UnitType

/-- The roll counts that the type declares, in the order in which they are checked. -/
def declaredRolls (type : UnitType) : List (RollCount × Int) :=
  [(.attack, type.attackRolls), (.defense, type.defenseRolls)] ++
    ((type.antiAircraft.bind (·.maxRolls)).map ((.antiAircraft, ·))).toList

def validate (type : UnitType) : Except CatalogError Unit :=
  match type.declaredRolls.find? (fun (_, value) => !(0 ≤ value && value ≤ maxDeclaredRolls)) with
  | some (count, value) => .error (.invalidRolls type.name count value)
  | none =>
    match type.antiAircraft.bind (·.diceSides) with
    | some sides =>
      if sides < 1 then .error (.invalidAntiAircraftDice type.name sides) else .ok ()
    | none => .ok ()

end UnitType

/-- A supply of ids for units. -/
structure UnitIds where
  next : UInt32 := 0
  deriving DecidableEq, Repr, Inhabited

namespace UnitIds

/-- Draws the next id. The ids start again from zero after the last one. -/
def draw (ids : UnitIds) : Nat × UnitIds := (ids.next.toNat, ⟨ids.next + 1⟩)

/-- Draws `count` ids, one after the other. -/
def drawMany (ids : UnitIds) (count : Nat) : List Nat × UnitIds :=
  ((List.range count).map fun drawn => (ids.next + .ofNat drawn).toNat, ⟨ids.next + .ofNat count⟩)

theorem drawMany_zero (ids : UnitIds) : ids.drawMany 0 = ([], ids) := by
  simp [drawMany]

theorem drawMany_succ (ids : UnitIds) (count : Nat) :
    ids.drawMany (count + 1) =
      (ids.draw.1 :: (ids.draw.2.drawMany count).1, (ids.draw.2.drawMany count).2) := by
  have hnext (drawn : Nat) : ids.next + .ofNat (drawn + 1) = ids.next + 1 + .ofNat drawn := by
    rw [UInt32.ofNat_add, UInt32.add_assoc, UInt32.add_comm (.ofNat drawn)]
    rfl
  refine Prod.ext ?_ (congrArg UnitIds.mk (hnext count))
  have hfirst : (ids.next + .ofNat 0).toNat = ids.next.toNat := by simp
  simp only [drawMany, draw, List.range_succ_eq_map, List.map_cons, List.map_map, hfirst]
  exact congrArg _ (List.map_congr_left fun drawn _ => congrArg UInt32.toNat (hnext drawn))

theorem ids_drawMany (ids : UnitIds) (count : Nat) :
    (ids.drawMany count).1 = (List.range' ids.next.toNat count).map (· % 2 ^ 32) := by
  rw [drawMany, List.range'_eq_map_range, List.map_map]
  refine List.map_congr_left fun drawn _ => ?_
  simp [UInt32.toNat_add]

theorem drawMany_add (ids : UnitIds) (first second : Nat) :
    ids.drawMany (first + second) =
      ((ids.drawMany first).1 ++ ((ids.drawMany first).2.drawMany second).1,
        ((ids.drawMany first).2.drawMany second).2) := by
  induction first generalizing ids with
  | zero => rw [drawMany_zero, Nat.zero_add, List.nil_append]
  | succ first ih => rw [Nat.succ_add, drawMany_succ, drawMany_succ, ih, List.cons_append]

theorem exists_eq_ofNat (ids : UnitIds) : ∃ next, ids = ⟨.ofNat next⟩ :=
  ⟨ids.next.toNat, congrArg UnitIds.mk UInt32.ofNat_toNat.symm⟩

theorem drawMany_ofNat (first count : Nat) :
    drawMany ⟨.ofNat first⟩ count =
      ((List.range' first count).map (· % 2 ^ 32), ⟨.ofNat (first + count)⟩) := by
  refine Prod.ext ?_ (congrArg UnitIds.mk (UInt32.ofNat_add first count).symm)
  rw [ids_drawMany, List.range'_eq_map_range, List.range'_eq_map_range, List.map_map, List.map_map]
  refine List.map_congr_left fun drawn _ => ?_
  simp [Nat.mod_add_mod]

/-- Ids do not start again before the last one. -/
theorem map_mod_range' {first count : Nat} (h : first + count ≤ 2 ^ 32) :
    (List.range' first count).map (· % 2 ^ 32) = List.range' first count := by
  refine (List.map_congr_left fun id hid => Nat.mod_eq_of_lt ?_).trans (List.map_id' _)
  have hlast := (List.mem_range'_1.mp hid).2
  omega

end UnitIds

/-- The types with their names, each under the name with which it was taken in. -/
structure Catalog where
  entries : List (String × UnitType) := []
  deriving DecidableEq, Repr, Inhabited

namespace Catalog

def empty : Catalog := {}

/-- The catalog that has the types of a list under their names. -/
def listing (types : List UnitType) : Catalog := ⟨types.map fun type => (type.name, type)⟩

def names (catalog : Catalog) : List String := catalog.entries.map (·.1)

def types (catalog : Catalog) : List UnitType := catalog.entries.map (·.2)

def find? (catalog : Catalog) (name : String) : Option UnitType := catalog.entries.lookup name

def get (catalog : Catalog) (name : String) : Except CatalogError UnitType :=
  match catalog.find? name with
  | some type => .ok type
  | none => .error (.unknownUnitType name)

def contains (catalog : Catalog) (name : String) : Bool := (catalog.find? name).isSome

/-- The catalog with one more type under its name. -/
def add (catalog : Catalog) (type : UnitType) : Catalog :=
  { entries := catalog.entries ++ [(type.name, type)] }

def size (catalog : Catalog) : Nat := catalog.entries.length

def isEmpty (catalog : Catalog) : Bool := catalog.entries.isEmpty

/-- Adds a type, and tells what is left of the catalog. A name in use is refused before the type
itself is looked at. -/
def insert (catalog : Catalog) (type : UnitType) : Except CatalogError Unit × Catalog :=
  if catalog.contains type.name then (.error (.duplicateUnitType type.name), catalog)
  else
    match type.validate with
    | .error error => (.error error, catalog)
    | .ok () => (.ok (), catalog.add type)

/-- Adds types from left to right, failing at the first that is refused. -/
def insertAll (catalog : Catalog) : List UnitType → Except CatalogError Catalog
  | [] => .ok catalog
  | type :: types =>
    match catalog.insert type with
    | (.error error, _) => .error error
    | (.ok (), catalog) => catalog.insertAll types

def ofTypes (types : List UnitType) : Except CatalogError Catalog := empty.insertAll types

/-- `count` units of the named type with the next ids, and the ids that are left. -/
def spawn (catalog : Catalog) (name : String) (count : Nat) (owner : Player) (ids : UnitIds) :
    Except CatalogError (List Combatant) × UnitIds :=
  match catalog.get name with
  | .error error => (.error error, ids)
  | .ok type =>
    let (drawn, ids) := ids.drawMany count
    (.ok (drawn.map fun id => { id, type, owner }), ids)

/-- The classic land, sea and air units. -/
def classic : Catalog :=
  listing [
    { name := "infantry", attack := 1, defense := 2 },
    { name := "marine", attack := 1, defense := 2, marineBonus := 1 },
    { name := "artillery", attack := 2, defense := 2 },
    { name := "armour", attack := 3, defense := 3 },
    { name := "fighter", attack := 3, defense := 4, airAttack := 1, airDefense := 1,
      isAir := true },
    { name := "bomber", attack := 4, defense := 1, airAttack := 1, isAir := true,
      isStrategicBomber := true },
    { name := "submarine", attack := 2, defense := 1, isFirstStrike := true },
    { name := "destroyer", attack := 2, defense := 2, isDestroyer := true },
    { name := "cruiser", attack := 3, defense := 3 },
    { name := "carrier", attack := 1, defense := 2 },
    { name := "battleship", attack := 4, defense := 4 },
    { name := "aaGun", attackRolls := 0, defenseRolls := 0,
      antiAircraft := some { defense := 1, maxRolls := some 3 } }]

end Catalog

end Salvo
