import Mathlib.Data.List.Basic
import Salvo.Proofs.Roster.SoundTypes

/-! # Catalogs in use

A depot is a catalog together with the ids that it gives to units. It is called on to take in
types, to look them up and to spawn units, in any order, and a call may be refused. What an
operation leaves of the catalog and of the ids is kept whether it went well or not.
`CatalogCall.Ends` lists all the ways in which a call can end; one that is refused leaves the depot
as it was.

After any calls the catalog has the first sound type of each name that it was given
(`Catalog.Holds`), and the units that were spawned have consecutive ids (`Depot.stock_of_calls`). -/

namespace Salvo

inductive CatalogCall where
  | insert (type : UnitType)
  | get (name : String)
  | contains (name : String)
  | spawn (name : String) (count : Nat) (owner : Player)
  deriving DecidableEq, Repr

inductive CatalogReply where
  | inserted
  | found (type : UnitType)
  | contained (known : Bool)
  | spawned (units : List Combatant)
  | refused (error : CatalogError)
  deriving DecidableEq, Repr

/-- The type that the call brings, if it brings one. -/
def CatalogCall.type? : CatalogCall → Option UnitType
  | insert type => some type
  | get _ | contains _ | spawn .. => none

/-- The units that come with a reply. -/
def CatalogReply.units : CatalogReply → List Combatant
  | spawned units => units
  | inserted | found _ | contained _ | refused _ => []

/-- The reply to a call with this answer. -/
def CatalogReply.ofAnswer {α : Type} (reply : α → CatalogReply) :
    Except CatalogError α → CatalogReply
  | .ok value => reply value
  | .error error => refused error

/-- A catalog and the ids that it gives to units. -/
structure Depot where
  catalog : Catalog := .empty
  ids : UnitIds := {}
  deriving DecidableEq, Repr

namespace Depot

def call (depot : Depot) : CatalogCall → CatalogReply × Depot
  | .insert type =>
    let (answer, catalog) := depot.catalog.insert type
    (.ofAnswer (fun () => .inserted) answer, { depot with catalog })
  | .get name => (.ofAnswer .found (depot.catalog.get name), depot)
  | .contains name => (.contained (depot.catalog.contains name), depot)
  | .spawn name count owner =>
    let (answer, ids) := depot.catalog.spawn name count owner depot.ids
    (.ofAnswer .spawned answer, { depot with ids })

/-- The replies to calls in turn, and what is left of the depot. -/
def run (depot : Depot) : List CatalogCall → List CatalogReply × Depot
  | [] => ([], depot)
  | call :: calls =>
    let (reply, next) := depot.call call
    let (replies, last) := next.run calls
    (reply :: replies, last)

end Depot

/-- A call on the depot gets this reply and leaves the depot like this. -/
inductive CatalogCall.Ends (depot : Depot) : CatalogCall → CatalogReply → Depot → Prop
  | inserted {type : UnitType} : type.name ∉ depot.catalog.names → type.Sound →
      Ends depot (.insert type) .inserted { depot with catalog := depot.catalog.add type }
  | notInserted {type : UnitType} {error : CatalogError} : type.Fault depot.catalog.names error →
      Ends depot (.insert type) (.refused error) depot
  | found {name : String} {type : UnitType} : depot.catalog.find? name = some type →
      Ends depot (.get name) (.found type) depot
  | notFound {name : String} : name ∉ depot.catalog.names →
      Ends depot (.get name) (.refused (.unknownUnitType name)) depot
  | contained (name : String) :
      Ends depot (.contains name) (.contained (decide (name ∈ depot.catalog.names))) depot
  | spawned {name : String} {type : UnitType} (count : Nat) (owner : Player) :
      depot.catalog.find? name = some type →
      Ends depot (.spawn name count owner)
        (.spawned ((List.range' depot.ids.next.toNat count).map fun id =>
          ⟨id % 2 ^ 32, type, owner⟩))
        { depot with ids := { next := depot.ids.next + .ofNat count } }
  | notSpawned {name : String} (count : Nat) (owner : Player) : name ∉ depot.catalog.names →
      Ends depot (.spawn name count owner) (.refused (.unknownUnitType name)) depot

instance (rolls : Int) : Decidable (UnitType.AllowsRolls rolls) :=
  inferInstanceAs (Decidable (_ ∧ _))

instance (type : UnitType) : Decidable type.Sound :=
  decidable_of_iff
    ((∀ declared ∈ type.declaredRolls, UnitType.AllowsRolls declared.2) ∧
      ∀ sides ∈ type.declaredSides, 1 ≤ sides)
    UnitType.sound_iff_declared.symm

/-- The catalog holds the first sound type of each name among those that it was given, and no
others. -/
structure Catalog.Holds (catalog : Catalog) (given : List UnitType) : Prop where
  named : ∀ entry ∈ catalog.entries, entry.1 = entry.2.name
  sound : ∀ type ∈ catalog.types, type.Sound
  nodup : catalog.names.Nodup
  find?_eq (name : String) :
    catalog.find? name = given.find? fun type => type.name = name ∧ type.Sound

namespace Catalog

variable {catalog : Catalog} {given : List UnitType} {type : UnitType} {name : String}
  {error : CatalogError}

theorem find?_add (name : String) :
    (catalog.add type).find? name =
      (catalog.find? name).or (if type.name = name then some type else none) := by
  rw [find?, add, List.lookup_append, find?]
  by_cases hname : name = type.name
  · simp [hname]
  · simp [List.lookup_cons, beq_false_of_ne hname, Ne.symm hname]

theorem Holds.name_of_find? (h : catalog.Holds given) (hfind : catalog.find? name = some type) :
    type.name = name :=
  (h.named _ (mem_entries_of_find? hfind)).symm

theorem holds_empty : empty.Holds [] where
  named := List.forall_mem_nil _
  sound := List.forall_mem_nil _
  nodup := List.nodup_nil
  find?_eq _ := rfl

theorem Holds.insert (h : catalog.Holds given) (hfree : type.name ∉ catalog.names)
    (hsound : type.Sound) : (catalog.add type).Holds (given ++ [type]) where
  named := List.forall_mem_append.mpr ⟨h.named, List.forall_mem_singleton.mpr rfl⟩
  sound := types_add ▸ List.forall_mem_append.mpr ⟨h.sound, List.forall_mem_singleton.mpr hsound⟩
  nodup := names_add ▸ (nodup_append_singleton_iff h.nodup).mpr hfree
  find?_eq name := by
    rw [find?_add, List.find?_append, h.find?_eq]
    by_cases hname : type.name = name <;> simp [hname, hsound]

theorem Holds.refuse (h : catalog.Holds given) (hfault : type.Fault catalog.names error) :
    catalog.Holds (given ++ [type]) where
  named := h.named
  sound := h.sound
  nodup := h.nodup
  find?_eq name := by
    rw [List.find?_append, ← h.find?_eq]
    cases hfind : catalog.find? name with
    | some other => rfl
    | none =>
      refine (List.find?_eq_none.mpr fun other hother hmatch => ?_).symm
      obtain rfl := List.mem_singleton.mp hother
      obtain ⟨rfl, hsound⟩ := of_decide_eq_true hmatch
      exact hfault.not_sound (find?_eq_none_iff.mp hfind) hsound

end Catalog

/-! ## One call -/

variable {depot next : Depot} {call : CatalogCall} {reply : CatalogReply} {given : List UnitType}
  {error : CatalogError}

theorem Depot.ends_call (depot : Depot) (call : CatalogCall) :
    call.Ends depot (depot.call call).1 (depot.call call).2 := by
  cases call with
  | insert type =>
    rw [Depot.call]
    rcases depot.catalog.insert_cases type with ⟨hfree, hsound, hinsert⟩ | ⟨error, hfault, hinsert⟩
    · rw [hinsert]
      exact .inserted hfree hsound
    · rw [hinsert]
      exact .notInserted hfault
  | get name =>
    rw [Depot.call]
    cases hget : depot.catalog.get name with
    | ok type => exact .found (Catalog.get_eq_ok_iff.mp hget)
    | error error =>
      obtain ⟨hunknown, rfl⟩ := Catalog.get_eq_error_iff.mp hget
      exact .notFound hunknown
  | contains name =>
    rw [Depot.call, Catalog.contains_eq]
    exact .contained name
  | spawn name count owner =>
    rw [Depot.call]
    rcases depot.catalog.spawn_cases name count owner depot.ids with
      ⟨hunknown, hspawn⟩ | ⟨type, htype, hspawn⟩
    · rw [hspawn]
      exact .notSpawned count owner hunknown
    · rw [hspawn, UnitIds.ids_drawMany, List.map_map]
      exact .spawned count owner htype

theorem CatalogCall.Ends.unchanged (h : call.Ends depot (.refused error) next) : next = depot := by
  cases h <;> rfl

theorem CatalogCall.Ends.holds (h : call.Ends depot reply next)
    (hholds : depot.catalog.Holds given) :
    next.catalog.Holds (given ++ call.type?.toList) := by
  cases h with
  | inserted hfree hsound => exact hholds.insert hfree hsound
  | notInserted hfault => exact hholds.refuse hfault
  | found | notFound | contained | spawned | notSpawned =>
    rw [CatalogCall.type?, Option.toList_none, List.append_nil]
    exact hholds

theorem CatalogCall.Ends.size_eq (h : call.Ends depot reply next) :
    next.catalog.size = depot.catalog.size + [reply].count .inserted := by
  cases h with
  | inserted => simp [Catalog.size, Catalog.add]
  | _ => simp

/-- The units of a reply have the next ids, as many as there are units. -/
theorem CatalogCall.Ends.ids (h : call.Ends depot reply next) :
    depot.ids.drawMany reply.units.length = (reply.units.map (·.id), next.ids) := by
  cases h with
  | spawned count =>
    refine Prod.ext ?_ ?_
    · simp [CatalogReply.units, Function.comp_def, UnitIds.ids_drawMany]
    · simp [CatalogReply.units, UnitIds.drawMany]
  | _ => exact UnitIds.drawMany_zero _

/-! ## Calls in turn -/

namespace Depot

variable {calls : List CatalogCall}

theorem run_nil (depot : Depot) : depot.run [] = ([], depot) := rfl

theorem run_cons (depot : Depot) (call : CatalogCall) (calls : List CatalogCall) :
    depot.run (call :: calls) =
      ((depot.call call).1 :: ((depot.call call).2.run calls).1,
        ((depot.call call).2.run calls).2) := rfl

theorem holds_run (h : depot.catalog.Holds given) :
    (depot.run calls).2.catalog.Holds (given ++ calls.filterMap (·.type?)) := by
  induction calls generalizing depot given with
  | nil => rwa [run_nil, List.filterMap_nil, List.append_nil]
  | cons call calls ih =>
    have hrest := ih ((depot.ends_call call).holds h)
    rw [run_cons, List.filterMap_cons]
    cases htype : call.type? <;> simpa [htype] using hrest

theorem size_run (depot : Depot) (calls : List CatalogCall) :
    (depot.run calls).2.catalog.size =
      depot.catalog.size + (depot.run calls).1.count .inserted := by
  induction calls generalizing depot with
  | nil => rfl
  | cons call calls ih =>
    rw [run_cons, ih, (depot.ends_call call).size_eq, Nat.add_assoc, ← List.count_append,
      List.singleton_append]

/-- The units that the depot spawns have the next ids, as many as there are units. -/
theorem ids_run (depot : Depot) (calls : List CatalogCall) :
    depot.ids.drawMany ((depot.run calls).1.flatMap (·.units)).length =
      (((depot.run calls).1.flatMap (·.units)).map (·.id), (depot.run calls).2.ids) := by
  induction calls generalizing depot with
  | nil => exact UnitIds.drawMany_zero _
  | cons call calls ih =>
    rw [run_cons, List.flatMap_cons, List.map_append, List.length_append, UnitIds.drawMany_add,
      (depot.ends_call call).ids, ih]

/-- Every call on a depot ends in one of the ways that are listed, and one that is refused leaves
the depot as it was. A depot that began without types holds the first sound type of each name that
it was given, under that name, as many as it said it took in. Its units have consecutive ids, that
start again from zero after the last one. A list of types makes a catalog just when they are sound
and have distinct names; else the first at fault is refused. -/
theorem stock_of_calls :
    (∀ (depot : Depot) (call : CatalogCall),
      call.Ends depot (depot.call call).1 (depot.call call).2) ∧
    (∀ (depot : Depot) (call : CatalogCall) (error : CatalogError),
      (depot.call call).1 = .refused error → (depot.call call).2 = depot) ∧
    (∀ (first : UnitIds) (calls : List CatalogCall),
      let replies := (run { ids := first } calls).1
      let last := (run { ids := first } calls).2
      let units := replies.flatMap (·.units)
      last.catalog.Holds (calls.filterMap (·.type?)) ∧
      (∀ name type, last.catalog.find? name = some type → type.name = name) ∧
      last.catalog.size = replies.count .inserted ∧
      units.map (·.id) = (List.range' first.next.toNat units.length).map (· % 2 ^ 32) ∧
      (first.next.toNat + units.length ≤ 2 ^ 32 →
        units.map (·.id) = List.range' first.next.toNat units.length) ∧
      last.ids.next = first.next + .ofNat units.length) ∧
    ∀ types : List UnitType,
      ((∃ catalog, Catalog.ofTypes types = .ok catalog) ↔
        (∀ type ∈ types, type.Sound) ∧ (types.map (·.name)).Nodup) ∧
      (∀ catalog, Catalog.ofTypes types = .ok catalog →
        catalog.entries = types.map fun type => (type.name, type)) ∧
      ∀ error, Catalog.ofTypes types = .error error ↔
        ∃ before type after, types = before ++ type :: after ∧ (∀ type ∈ before, type.Sound) ∧
          (before.map (·.name)).Nodup ∧ type.Fault (before.map (·.name)) error := by
  refine ⟨ends_call, fun depot call error hrefused => ?_, fun first calls => ?_,
    fun types => ⟨?_, fun catalog h => ?_, fun error => Catalog.ofTypes_eq_error_iff⟩⟩
  · have hends := depot.ends_call call
    rw [hrefused] at hends
    exact hends.unchanged
  · intro replies last units
    have hstart : ({ ids := first } : Depot).catalog.Holds [] := Catalog.holds_empty
    have hholds : last.catalog.Holds (calls.filterMap (·.type?)) := holds_run hstart
    have hdrawn := ids_run { ids := first } calls
    have hids := (congrArg Prod.fst hdrawn).symm.trans (UnitIds.ids_drawMany ..)
    refine ⟨hholds, fun name type => hholds.name_of_find?, ?_, hids, fun hroom => ?_, ?_⟩
    · rw [size_run]
      exact Nat.zero_add _
    · exact hids.trans (UnitIds.map_mod_range' hroom)
    · exact congrArg (·.2.next) hdrawn.symm
  · simp only [Catalog.ofTypes_eq_ok_iff]
    exact ⟨fun ⟨_, hsound, hnodup, _⟩ => ⟨hsound, hnodup⟩,
      fun ⟨hsound, hnodup⟩ => ⟨_, hsound, hnodup, rfl⟩⟩
  · obtain ⟨-, -, rfl⟩ := Catalog.ofTypes_eq_ok_iff.mp h
    rfl

/-- A tank that is refused once for its rolls and once for its name, which is all that is said of it
then, and boats that nobody knows. -/
theorem stock_of_tanks :
    let owner : Player := { name := "Germans" }
    let tank : UnitType := { name := "tank", attack := 3, defense := 3 }
    let broken : UnitType := { tank with attackRolls := -1 }
    let calls : List CatalogCall :=
      [.insert broken, .spawn "tank" 4 owner, .insert tank, .insert broken, .spawn "tank" 2 owner,
        .spawn "boat" 5 owner, .contains "boat", .spawn "tank" 1 owner]
    let answers : List CatalogReply :=
      [.refused (.invalidRolls "tank" .attack (-1)), .refused (.unknownUnitType "tank"), .inserted,
        .refused (.duplicateUnitType "tank"), .spawned [⟨7, tank, owner⟩, ⟨8, tank, owner⟩],
        .refused (.unknownUnitType "boat"), .contained false, .spawned [⟨9, tank, owner⟩]]
    let replies := (run { ids := { next := 7 } } calls).1
    let last := (run { ids := { next := 7 } } calls).2
    replies = answers ∧
      last.catalog.find? "tank" = some tank ∧
      last.catalog.size = 1 ∧
      (replies.flatMap (·.units)).map (·.id) = [7, 8, 9] ∧
      last.ids = { next := 10 } ∧
      (¬ ∃ catalog, Catalog.ofTypes [tank, broken] = .ok catalog) ∧
      Catalog.ofTypes [tank, broken] = .error (.duplicateUnitType "tank") := by
  intro owner tank broken calls answers replies last
  have hanswers : replies = answers := by decide
  have hinserted : replies.count .inserted = 1 := by
    rw [hanswers]
    decide
  have hspawned : (replies.flatMap (·.units)).length = 3 := by
    rw [hanswers]
    rfl
  obtain ⟨-, -, hruns, hlists⟩ := stock_of_calls
  obtain ⟨hholds, -, hsize, -, hids, hnext⟩ := hruns { next := 7 } calls
  obtain ⟨haccepted, -, hrefused⟩ := hlists [tank, broken]
  have hroom : 7 + (replies.flatMap (·.units)).length ≤ 2 ^ 32 := by
    rw [hspawned]
    decide
  refine ⟨hanswers, ?_, hsize.trans hinserted,
    (hids hroom).trans (congrArg (List.range' 7) hspawned),
    congrArg UnitIds.mk (hnext.trans (congrArg (7 + UInt32.ofNat ·) hspawned)), ?_, ?_⟩
  · rw [hholds.find?_eq]
    decide
  · rw [haccepted]
    decide
  · exact (hrefused _).mpr ⟨[tank], broken, [], rfl, by decide, by decide, .duplicate (by decide)⟩

end Depot

end Salvo
