import Salvo.Proofs.Roster.Groups
import Salvo.Proofs.Round.DiceIndependence

/-! # What guns can shoot at

Anti-aircraft guns fire as if there were nothing on the rosters but the units they can shoot at, and
as if guns that can shoot at nothing were not there (`AntiAircraftFire.powerTable_inserted`). The
fire of the guns of one type in a round is laid down by these guns and their targets alone
(`Battle.flakVolleys_eq`), so that other units change no more of it than the dice it is dealt. -/

namespace Salvo

/-- The second list is the first one with more elements, all with the property `p`, put in
anywhere. -/
inductive Inserted {α : Type} (p : α → Prop) : List α → List α → Prop
  | nil : Inserted p [] []
  | keep {x : α} {xs ys : List α} : Inserted p xs ys → Inserted p (x :: xs) (x :: ys)
  | insert {x : α} {xs ys : List α} : p x → Inserted p xs ys → Inserted p xs (x :: ys)

namespace Inserted

variable {α : Type} {p : α → Prop} {xs ys : List α}

theorem refl (p : α → Prop) (xs : List α) : Inserted p xs xs := by
  induction xs with
  | nil => exact .nil
  | cons x xs ih => exact .keep ih

theorem imp (h : Inserted p xs ys) {q : α → Prop} (hpq : ∀ x, p x → q x) : Inserted q xs ys := by
  induction h with
  | nil => exact .nil
  | keep _ ih => exact .keep ih
  | insert hx _ ih => exact .insert (hpq _ hx) ih

theorem sublist (h : Inserted p xs ys) : xs.Sublist ys := by
  induction h with
  | nil => exact .slnil
  | keep _ ih => exact .cons_cons _ ih
  | insert _ _ ih => exact .cons _ ih

/-- A filter that lets none of the new elements pass does not see them. -/
theorem filter_eq (h : Inserted p xs ys) {q : α → Bool} (hq : ∀ x, p x → q x = false) :
    ys.filter q = xs.filter q := by
  induction h with
  | nil => rfl
  | keep _ ih => rw [List.filter_cons, List.filter_cons, ih]
  | insert hx _ ih => rw [List.filter_cons_of_neg (by simp [hq _ hx]), ih]

theorem any_eq (h : Inserted p xs ys) {q : α → Bool} (hq : ∀ x, p x → q x = false) :
    ys.any q = xs.any q := by
  induction h with
  | nil => rfl
  | keep _ ih => rw [List.any_cons, List.any_cons, ih]
  | insert hx _ ih => rw [List.any_cons, hq _ hx, ih, Bool.false_or]

end Inserted

theorem forall₂_filter_zip {α β : Type} {R : α → β → Prop} {xs : List α} {ys : List β}
    (h : List.Forall₂ R xs ys) (p : α → Bool) :
    List.Forall₂ (fun x y => p x ∧ R x y) (xs.filter p)
      (((xs.zip ys).filter (p ·.1)).map (·.2)) := by
  induction h with
  | nil => exact .nil
  | cons hfirst _ ih =>
    rw [List.zip_cons_cons, List.filter_cons, List.filter_cons]
    split
    · rename_i hp
      exact .cons ⟨hp, hfirst⟩ ih
    · exact ih

theorem takeWhile_of_filter_eq_singleton {α : Type} {p : α → Bool} {x : α} {before after : List α}
    (h : (before ++ x :: after).filter p = [x]) :
    (before ++ x :: after).takeWhile (!p ·) = before := by
  have hx : p x = true := by
    have hmem : x ∈ (before ++ x :: after).filter p := h ▸ List.mem_cons_self
    exact (List.mem_filter.mp hmem).2
  rw [List.filter_append, List.filter_cons_of_pos hx] at h
  have hbefore : before.filter p = [] := by
    have hlength := congrArg List.length h
    rw [List.length_append, List.length_cons, List.length_singleton] at hlength
    exact List.length_eq_zero_iff.mp (by omega)
  have hnone : ∀ y ∈ before, (!p y) = true := fun y hy => by
    simpa using List.filter_eq_nil_iff.mp hbefore y hy
  rw [List.takeWhile_append_of_pos hnone, List.takeWhile_cons_of_neg (by simp [hx]),
    List.append_nil]

namespace AntiAircraftFire

variable {guns moreGuns targets moreTargets : List Combatant}

/-- The roll of guns that share one number of targets. -/
def roll {σ : Type} [DiceSource σ] (guns targets : List Combatant) (side : Side) (rules : RuleSet)
    (label : DiceLabel) (source : σ) : Except CombatError Roll × σ :=
  PowerTable.throwBuilt (powerTable guns targets side rules) rules.lowLuckForAntiAircraft label
    source

theorem validTargets_inserted
    (h : Inserted (fun target => ∀ gun ∈ guns, gun.type.canTarget target.type = false) targets
      moreTargets) :
    validTargets guns moreTargets = validTargets guns targets := by
  refine h.filter_eq fun target hsafe => List.any_eq_false.mpr fun gun hgun => ?_
  rw [hsafe gun hgun]
  exact Bool.false_ne_true

theorem effectiveGuns_inserted
    (hguns : Inserted (fun gun => ∀ target ∈ moreTargets, gun.type.canTarget target.type = false)
      guns moreGuns)
    (htargets : Inserted (fun target => ∀ gun ∈ moreGuns, gun.type.canTarget target.type = false)
      targets moreTargets) :
    effectiveGuns moreGuns moreTargets = effectiveGuns guns targets := by
  have hidle : effectiveGuns moreGuns moreTargets = effectiveGuns guns moreTargets := by
    refine hguns.filter_eq fun gun hidle => List.any_eq_false.mpr fun target htarget => ?_
    rw [hidle target htarget]
    exact Bool.false_ne_true
  refine hidle.trans (List.filter_congr fun gun hgun => ?_)
  exact htargets.any_eq fun target hsafe => hsafe gun (hguns.sublist.mem hgun)

/-- Guns without targets and targets out of reach of all guns are without effect on the power of the
fire. -/
theorem powerTable_inserted
    (hguns : Inserted (fun gun => ∀ target ∈ moreTargets, gun.type.canTarget target.type = false)
      guns moreGuns)
    (htargets : Inserted (fun target => ∀ gun ∈ moreGuns, gun.type.canTarget target.type = false)
      targets moreTargets) (side : Side) (rules : RuleSet) :
    powerTable moreGuns moreTargets side rules = powerTable guns targets side rules := by
  have hvalid : validTargets (effectiveGuns guns targets) moreTargets =
      validTargets (effectiveGuns guns targets) targets := by
    refine validTargets_inserted (htargets.imp fun target hsafe gun hgun => ?_)
    exact hsafe gun (hguns.sublist.mem (List.mem_filter.mp hgun).1)
  have hfire : atTargets moreGuns moreTargets side rules = atTargets guns targets side rules := by
    rw [atTargets, atTargets, effectiveGuns_inserted hguns htargets, hvalid]
  rw [powerTable, powerTable, gunPower, gunPower, hfire, effectiveGuns_inserted hguns htargets]

end AntiAircraftFire

namespace Volley

/-- Whether the volley is the anti-aircraft fire of a side's guns of the type called `name`. -/
def isFlakOf (side : Side) (name : String) (volley : Volley) : Bool :=
  volley.kind = .antiAircraft && volley.side = side &&
    volley.units.head?.any (·.typeName == name)

end Volley

namespace Battle

variable (battle : Battle) (rules : RuleSet) (supportRules : List SupportRule) (side : Side)
  (name : String)

def guns : List Combatant := (battle.units side).filter fun unit => (unit.traits rules).antiAircraft

/-- The anti-aircraft fire of a side's guns of the type called `name` in a round. -/
def flakVolleys : List Volley :=
  (battle.volleys rules supportRules).filter (·.isFlakOf side name)

/-- What this fire did, according to a report of the round. -/
def flakFires (report : RoundReport) : List Fire :=
  (((battle.volleys rules supportRules).zip report.fires).filter (·.1.isFlakOf side name)).map (·.2)

/-- What the volleys in front of this fire leave of the source. -/
def flakSource {σ : Type} [DiceSource σ] (source : σ) : σ :=
  (fireAll battle ((battle.volleys rules supportRules).takeWhile (!·.isFlakOf side name))
    source).source

def flakLabel : DiceLabel where
  player := battle.player side
  purpose := .antiAircraft
  caption := battle.player side ++ " " ++ FireKind.antiAircraft.name

variable {battle rules supportRules side name}

theorem antiAircraftVolley?_nil : battle.antiAircraftVolley? rules side [] = none := by
  have hnone : AntiAircraftFire.validTargets [] (battle.units side.opposite) = [] :=
    List.filter_false ..
  rw [antiAircraftVolley?, hnone]
  rfl

theorem filter_antiAircraftVolley? {units : List Combatant} {type : String}
    (h : type ∈ Combatant.typeNames units) :
    (battle.antiAircraftVolley? rules side (Combatant.ofType type units)).filter
        (·.isFlakOf side name) =
      if type == name then battle.antiAircraftVolley? rules side (Combatant.ofType type units)
      else none := by
  cases hvolley : battle.antiAircraftVolley? rules side (Combatant.ofType type units) with
  | none => exact (ite_self none).symm
  | some volley =>
    have hflak : volley.isFlakOf side name = (type == name) := by
      rw [eq_of_antiAircraftVolley? hvolley, Volley.isFlakOf, Combatant.any_head?_ofType h]
      simp
    rw [Option.filter_some, hflak]

/-- The units of one type fire together. -/
theorem filter_groups (units : List Combatant) :
    ((Combatant.groups units).filterMap (battle.antiAircraftVolley? rules side)).filter
        (·.isFlakOf side name) =
      (battle.antiAircraftVolley? rules side (Combatant.ofType name units)).toList := by
  rw [Combatant.groups_eq, List.filterMap_map, List.filter_filterMap]
  refine (List.filterMap_congr fun type htype => filter_antiAircraftVolley? htype).trans ?_
  rw [← List.filterMap_filter, Combatant.filter_typeNames]
  split
  · rw [List.filterMap_cons, List.filterMap_nil]
    cases battle.antiAircraftVolley? rules side (Combatant.ofType name units) <;> rfl
  · rename_i hmem
    rw [Combatant.mem_typeNames, not_not] at hmem
    rw [hmem, antiAircraftVolley?_nil]
    rfl

theorem filter_antiAircraftVolleys :
    (battle.antiAircraftVolleys rules).filter (·.isFlakOf side name) =
      (battle.antiAircraftVolley? rules side
        (Combatant.ofType name (battle.guns rules side))).toList := by
  have hsides : (battle.antiAircraftVolleys rules).filter (·.isFlakOf side name) =
      Side.both.flatMap fun own => if own = side then (battle.antiAircraftVolley? rules own
        (Combatant.ofType name (battle.guns rules own))).toList else [] := by
    rw [antiAircraftVolleys, List.filter_flatMap]
    refine congrArg (List.flatMap · Side.both) (funext fun own => ?_)
    split
    · rename_i hown
      subst hown
      exact filter_groups _
    · rename_i hown
      refine List.filter_eq_nil_iff.mpr fun volley hvolley hflak => hown ?_
      obtain ⟨guns, -, hguns⟩ := List.mem_filterMap.mp hvolley
      obtain rfl := eq_of_antiAircraftVolley? hguns
      simp only [Volley.isFlakOf, Bool.and_eq_true, decide_eq_true_eq] at hflak
      exact hflak.1.2
  rw [hsides]
  cases side <;> simp [Side.both]

/-- The fire of one type is that of its guns, in the first round of a combat. -/
theorem flakVolleys_eq (battle : Battle) (rules : RuleSet) (supportRules : List SupportRule)
    (side : Side) (name : String) :
    battle.flakVolleys rules supportRules side name =
      if battle.kind = .combat ∧ battle.context.round = 1 then
        (battle.antiAircraftVolley? rules side
          (Combatant.ofType name (battle.guns rules side))).toList
      else [] := by
  have hothers : ∀ volleys : List Volley, (∀ volley ∈ volleys, volley.kind ≠ .antiAircraft) →
      volleys.filter (·.isFlakOf side name) = [] := by
    intro volleys hvolleys
    refine List.filter_eq_nil_iff.mpr fun volley hvolley hflak => hvolleys volley hvolley ?_
    simp only [Volley.isFlakOf, Bool.and_eq_true, decide_eq_true_eq] at hflak
    exact hflak.1.1
  unfold flakVolleys volleys
  cases hkind : battle.kind with
  | combat =>
    have hsteps : ((battle.plan rules).steps.filterMap
        (battle.stepVolley? rules supportRules)).filter (·.isFlakOf side name) = [] := by
      refine hothers _ fun volley hvolley => ?_
      obtain ⟨step, -, hstep⟩ := List.mem_filterMap.mp hvolley
      exact kind_of_stepVolley? hstep
    show (battle.combatVolleys rules supportRules).filter _ = _
    rw [combatVolleys, List.filter_append, hsteps, List.append_nil]
    by_cases hround : battle.context.round = 1
    · rw [if_pos hround, if_pos ⟨rfl, hround⟩, filter_antiAircraftVolleys]
    · rw [if_neg hround, if_neg fun h => hround h.2]
      rfl
  | airBattle =>
    rw [if_neg nofun]
    refine hothers _ fun volley hvolley => ?_
    obtain ⟨own, -, hown⟩ := List.mem_filterMap.mp hvolley
    rw [eq_of_airVolley? hown]
    nofun

theorem flakVolleys_cases (battle : Battle) (rules : RuleSet) (supportRules : List SupportRule)
    (side : Side) (name : String) :
    battle.flakVolleys rules supportRules side name = [] ∨
      ∃ volley, battle.antiAircraftVolley? rules side
          (Combatant.ofType name (battle.guns rules side)) = some volley ∧
        battle.flakVolleys rules supportRules side name = [volley] := by
  rw [flakVolleys_eq]
  split
  · cases battle.antiAircraftVolley? rules side
        (Combatant.ofType name (battle.guns rules side)) with
    | none => exact .inl rfl
    | some volley => exact .inr ⟨volley, rfl, rfl⟩
  · exact .inl rfl

/-! ## More units -/

theorem ofType_guns_inserted {other : Battle}
    (h : Inserted (fun unit => ¬ ((unit.traits rules).antiAircraft ∧ unit.typeName = name))
      (battle.units side) (other.units side)) :
    Combatant.ofType name (other.guns rules side) =
      Combatant.ofType name (battle.guns rules side) := by
  unfold Combatant.ofType guns
  rw [List.filter_filter, List.filter_filter]
  refine h.filter_eq fun unit hunit => ?_
  rw [Bool.and_eq_false_imp]
  exact fun hname => Bool.eq_false_iff.mpr fun hgun => hunit ⟨hgun, eq_of_beq hname⟩

theorem antiAircraftVolley?_inserted {other : Battle} {guns : List Combatant}
    (h : Inserted (fun target => ∀ gun ∈ guns, gun.type.canTarget target.type = false)
      (battle.units side.opposite) (other.units side.opposite)) :
    other.antiAircraftVolley? rules side guns = battle.antiAircraftVolley? rules side guns := by
  rw [antiAircraftVolley?, antiAircraftVolley?, AntiAircraftFire.validTargets_inserted h,
    AntiAircraftFire.powerTable_inserted (.refl _ guns) h]

/-- Units that are not guns of the type, and enemies that these cannot shoot at, leave its fire as
it is. -/
theorem flakVolleys_inserted {offense defense : List Combatant}
    (hown : Inserted (fun unit => ¬ ((unit.traits rules).antiAircraft ∧ unit.typeName = name))
      (battle.units side) (side.pick offense defense))
    (henemy : Inserted (fun target => ∀ gun ∈ Combatant.ofType name (battle.guns rules side),
      gun.type.canTarget target.type = false)
      (battle.units side.opposite) (side.opposite.pick offense defense)) :
    flakVolleys { battle with offense, defense } rules supportRules side name =
      battle.flakVolleys rules supportRules side name := by
  let other : Battle := { battle with offense, defense }
  have hguns : Combatant.ofType name (other.guns rules side) =
      Combatant.ofType name (battle.guns rules side) := ofType_guns_inserted hown
  have hvolley : other.antiAircraftVolley? rules side
      (Combatant.ofType name (battle.guns rules side)) =
        battle.antiAircraftVolley? rules side
          (Combatant.ofType name (battle.guns rules side)) := antiAircraftVolley?_inserted henemy
  rw [flakVolleys_eq, flakVolleys_eq, hguns, hvolley]

/-! ## Rounds -/

section Rounds

variable {σ : Type} [DiceSource σ] {source rest : σ} {volleys : List Volley} {rolls : List Roll}
  {history : History} {report : RoundReport}

/-- Each volley is thrown with what the volleys in front of it leave of the source. -/
theorem forall₂_throwDice (h : Fired battle volleys source rolls rest) :
    List.Forall₂ (fun volley roll => ∃ before after, volleys = before ++ volley :: after ∧
      (volley.throwDice battle (fireAll battle before source).source).1 = .ok roll)
      volleys rolls := by
  induction h with
  | nil => exact .nil
  | @cons volley volleys source _ _ _ _ hthrow _ ih =>
    refine .cons ⟨[], volleys, rfl, congrArg Prod.fst hthrow⟩ (ih.imp ?_)
    rintro later roll ⟨before, after, rfl, hroll⟩
    refine ⟨volley :: before, after, rfl, ?_⟩
    rw [fireAll_cons_of_ok hthrow]
    exact hroll

/-- The fire of one type is its volley, thrown with what the volleys in front of it leave. -/
theorem forall₂_flakFires (side : Side) (name : String)
    (h : (battle.resolveRound rules supportRules source history).outcome = .ok report) :
    List.Forall₂ (fun volley fire => fire.outline = volley.outline battle rules ∧
        (volley.throwDice battle (battle.flakSource rules supportRules side name source)).1 =
          .ok fire.roll)
      (battle.flakVolleys rules supportRules side name)
      (battle.flakFires rules supportRules side name report) := by
  obtain ⟨rolls, hfired, rfl⟩ := exists_fired_of_ok h
  have hexpected := hfired.expectedHits_eq fun _ => lawful_of_mem_volleys
  have hboth := List.forall₂_iff_zip.mpr ⟨hfired.length_eq.symm, fun hmem =>
    And.intro ((List.forall₂_iff_zip.mp hexpected).2 hmem)
      ((List.forall₂_iff_zip.mp (forall₂_throwDice hfired)).2 hmem)⟩
  refine (forall₂_filter_zip (forall₂_report hboth) (·.isFlakOf side name)).imp ?_
  rintro volley _ ⟨hflak, roll, ⟨hroll, before, after, hvolleys, hthrown⟩, rfl⟩
  have hone : battle.flakVolleys rules supportRules side name = [volley] := by
    have hmem : volley ∈ battle.flakVolleys rules supportRules side name :=
      List.mem_filter.mpr ⟨hvolleys ▸ List.mem_append_right _ List.mem_cons_self, hflak⟩
    rcases battle.flakVolleys_cases rules supportRules side name with hnone | ⟨first, -, hfirst⟩
    · rw [hnone] at hmem
      cases hmem
    · rw [hfirst, List.mem_singleton] at hmem
      rw [hfirst, hmem]
  constructor
  · rw [Volley.outline, ← hroll]
    rfl
  · unfold flakVolleys at hone
    rw [flakSource, hvolleys, takeWhile_of_filter_eq_singleton (hvolleys ▸ hone)]
    exact hthrown

end Rounds

theorem throwDice_of_antiAircraftVolley? {guns : List Combatant} {volley : Volley}
    (h : battle.antiAircraftVolley? rules side guns = some volley) {σ : Type} [DiceSource σ]
    (source : σ) :
    volley.throwDice battle source =
      AntiAircraftFire.roll guns (battle.units side.opposite) side rules (battle.flakLabel side)
        source := by
  rw [eq_of_antiAircraftVolley? h]
  rfl

end Battle

/-- Guns roll the same, and leave the source the same, when guns that can shoot at nothing are put
in among them and targets that no gun can shoot at among the targets. So in a round the
anti-aircraft fire of one type of guns stays what it is when other units join its side and units
that it cannot shoot at the other one: the same guns fire, their fire shows the same, and other
units change its roll only through what their fire leaves of the source. -/
theorem flak_unaffected :
    (∀ (guns moreGuns targets moreTargets : List Combatant) (side : Side) (rules : RuleSet)
      (label : DiceLabel) {σ : Type} [DiceSource σ] (source : σ),
      Inserted (fun gun => ∀ target ∈ moreTargets, gun.type.canTarget target.type = false) guns
        moreGuns →
      Inserted (fun target => ∀ gun ∈ moreGuns, gun.type.canTarget target.type = false) targets
        moreTargets →
      AntiAircraftFire.roll moreGuns moreTargets side rules label source =
        AntiAircraftFire.roll guns targets side rules label source) ∧
    ∀ (battle : Battle) (offense defense : List Combatant) (rules : RuleSet)
      (supportRules : List SupportRule) (side : Side) (name : String),
      let other : Battle := { battle with offense, defense }
      let guns := Combatant.ofType name (battle.guns rules side)
      let targets := battle.units side.opposite
      let label := battle.flakLabel side
      Inserted (fun unit => ¬ ((unit.traits rules).antiAircraft ∧ unit.typeName = name))
        (battle.units side) (other.units side) →
      Inserted (fun target => ∀ gun ∈ guns, gun.type.canTarget target.type = false) targets
        (other.units side.opposite) →
      other.flakVolleys rules supportRules side name =
        battle.flakVolleys rules supportRules side name ∧
      ∀ {σ τ : Type} [DiceSource σ] [DiceSource τ] (source : σ) (otherSource : τ)
        (history otherHistory : History) (report otherReport : RoundReport),
        (battle.resolveRound rules supportRules source history).outcome = .ok report →
        (other.resolveRound rules supportRules otherSource otherHistory).outcome =
          .ok otherReport →
        List.Forall₂ (fun fire otherFire => otherFire.outline = fire.outline ∧
            (AntiAircraftFire.roll guns targets side rules label
              (battle.flakSource rules supportRules side name source)).1 = .ok fire.roll ∧
            (AntiAircraftFire.roll guns targets side rules label
              (other.flakSource rules supportRules side name otherSource)).1 = .ok otherFire.roll)
          (battle.flakFires rules supportRules side name report)
          (other.flakFires rules supportRules side name otherReport) := by
  constructor
  · intro guns moreGuns targets moreTargets side rules label σ _ source hguns htargets
    rw [AntiAircraftFire.roll, AntiAircraftFire.powerTable_inserted hguns htargets,
      AntiAircraftFire.roll]
  · intro battle offense defense rules supportRules side name other guns targets label hown henemy
    have hvolleys : other.flakVolleys rules supportRules side name =
        battle.flakVolleys rules supportRules side name := Battle.flakVolleys_inserted hown henemy
    refine ⟨hvolleys, ?_⟩
    intro σ τ _ _ source otherSource history otherHistory report otherReport h hother
    have hfires := Battle.forall₂_flakFires side name h
    have hothers := hvolleys ▸ Battle.forall₂_flakFires side name hother
    rcases battle.flakVolleys_cases rules supportRules side name with hnone | ⟨volley, hone, hsome⟩
    · rw [hnone, List.forall₂_nil_left_iff] at hfires hothers
      rw [hfires, hothers]
      exact .nil
    · rw [hsome] at hfires hothers
      obtain ⟨fire, fires, ⟨houtline, hthrown⟩, hrest, hfires⟩ :=
        List.forall₂_cons_left_iff.mp hfires
      obtain ⟨otherFire, otherFires, ⟨hotherOutline, hotherThrown⟩, hotherRest, hothers⟩ :=
        List.forall₂_cons_left_iff.mp hothers
      rw [hfires, hothers, List.forall₂_nil_left_iff.mp hrest,
        List.forall₂_nil_left_iff.mp hotherRest]
      refine .cons ⟨hotherOutline.trans houtline.symm, ?_, ?_⟩ .nil
      · rw [← Battle.throwDice_of_antiAircraftVolley? hone]
        exact hthrown
      · -- The label of the volley names the player alone, who is the same in both battles.
        rw [← Battle.throwDice_of_antiAircraftVolley? hone]
        exact hotherThrown

/-- A gun that shoots at a fighter, alone and beside a tower that shoots at a bomber. The tower
fires first, so that the gun is dealt the second die. -/
theorem flak_unaffected_by_bomber :
    let unit (id : Nat) (name : String) (isAir : Bool) (antiAircraft : Option AntiAircraft) :
        Combatant := ⟨id, { name, isAir, antiAircraft }, { name := "Germans" }⟩
    let fighter := unit 0 "fighter" true none
    let gun := unit 1 "aaGun" false (some { defense := 1, targets := ["fighter"] })
    let bomber := unit 2 "bomber" true none
    let tower := unit 3 "flakTower" false (some { defense := 3, targets := ["bomber"] })
    let battle : Battle :=
      { attacker := { name := "Germans" }
        defender := { name := "British" }
        offense := [fighter]
        defense := [gun]
        context := { territory := "London" } }
    let other : Battle := { battle with offense := [bomber, fighter], defense := [tower, gun] }
    let script : Script := { values := [0] }
    let otherScript : Script := { values := [2, 4] }
    let label := battle.flakLabel .defense
    AntiAircraftFire.roll [tower, gun] [gun, fighter] .defense {} label script =
        AntiAircraftFire.roll [gun] [fighter] .defense {} label script ∧
      ∃ report otherReport,
        (battle.resolveRound {} [] script []).outcome = .ok report ∧
        (other.resolveRound {} [] otherScript []).outcome = .ok otherReport ∧
        ∃ fire otherFire,
          battle.flakFires {} [] .defense "aaGun" report = [fire] ∧
          other.flakFires {} [] .defense "aaGun" otherReport = [otherFire] ∧
          fire.roll.hits = 1 ∧ otherFire.roll.hits = 0 ∧ otherFire.outline = fire.outline := by
  intro unit fighter gun bomber tower battle other script otherScript label
  obtain ⟨hroll, hround⟩ := flak_unaffected
  have hguns : Inserted (fun unit => ∀ target ∈ [gun, fighter],
      unit.type.canTarget target.type = false) [gun] [tower, gun] :=
    .insert (by decide) (.refl _ _)
  have htargets : Inserted (fun target => ∀ unit ∈ [tower, gun],
      unit.type.canTarget target.type = false) [fighter] [gun, fighter] :=
    .insert (by decide) (.refl _ _)
  refine ⟨hroll _ _ _ _ _ _ _ script hguns htargets, ?_⟩
  have hshown : (battle.resolveRound {} [] script []).outcome.toOption.map (fun report =>
      (battle.flakFires {} [] .defense "aaGun" report).map (·.roll.hits)) = some [1] := by
    decide +kernel
  have hotherShown : (other.resolveRound {} [] otherScript []).outcome.toOption.map (fun report =>
      (other.flakFires {} [] .defense "aaGun" report).map (·.roll.hits)) = some [0] := by
    decide +kernel
  obtain ⟨-, hfires⟩ := hround battle [bomber, fighter] [tower, gun] {} [] .defense "aaGun"
    (.insert (by decide) (.refl _ _)) (.insert (by decide) (.refl _ _))
  obtain ⟨report, hreport, hhits⟩ := exists_ok_of_toOption_map hshown
  obtain ⟨otherReport, hother, hotherHits⟩ := exists_ok_of_toOption_map hotherShown
  obtain ⟨fire, hfire, hhit⟩ := List.map_eq_singleton_iff.mp hhits
  obtain ⟨otherFire, hotherFire, hmiss⟩ := List.map_eq_singleton_iff.mp hotherHits
  have hpair := hfires script otherScript [] [] report otherReport hreport hother
  rw [hfire, hotherFire] at hpair
  obtain ⟨⟨houtline, -⟩, -⟩ := List.forall₂_cons.mp hpair
  exact ⟨report, otherReport, hreport, hother, fire, otherFire, hfire, hotherFire, hhit, hmiss,
    houtline⟩

end Salvo
