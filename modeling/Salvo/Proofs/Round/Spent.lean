import Salvo.Proofs.Round.TakingPart

/-! # Spent units

Casualties are left to the caller, and so are suicide units: each fire lists those of its group, and
nothing keeps them from firing once more. No unit takes part twice in the fire of the guns, nor
twice in what is fired behind them; so a unit is spent twice in a round just when it is a suicide
unit that fires as an anti-aircraft gun (`Battle.spent_of_round`). -/

namespace Salvo

/-- Volleys spend the suicide units that take part in them. -/
theorem flatMap_spent (volleys : List Volley) (rules : RuleSet) :
    volleys.flatMap (·.spent rules) =
      ((unitsOf volleys).filter fun unit => (unit.traits rules).suicide).map (·.id) := by
  rw [unitsOf, List.filter_flatMap, List.map_flatMap]
  rfl

theorem mem_flatMap_spent {volleys : List Volley} {rules : RuleSet} {id : Nat} :
    id ∈ volleys.flatMap (·.spent rules) ↔
      ∃ unit ∈ unitsOf volleys, (unit.traits rules).suicide ∧ unit.id = id := by
  simp [flatMap_spent, and_assoc]

namespace Battle

variable {battle : Battle} {rules : RuleSet} {supportRules : List SupportRule}

theorem nodup_spent (hids : ((battle.offense ++ battle.defense).map (·.id)).Nodup)
    {volleys : List Volley} (h : (unitsOf volleys).Subperm (battle.offense ++ battle.defense)) :
    (volleys.flatMap (·.spent rules)).Nodup := by
  rw [flatMap_spent]
  exact (List.filter_sublist.map _).nodup (nodup_ids_of_subperm hids h)

variable {σ : Type} [DiceSource σ] {source : σ} {history : History} {report : RoundReport}

theorem map_spent_report (battle : Battle) (rules : RuleSet) {volleys : List Volley}
    {rolls : List Roll} (h : rolls.length = volleys.length) :
    (battle.report rules (volleys.zip rolls)).fires.map (fun fire => (fire.kind, fire.spent)) =
      volleys.map fun volley => (volley.kind, volley.spent rules) :=
  map_fires_report (List.forall₂_iff_zip.mpr ⟨h.symm, fun _ => rfl⟩)

/-- The fires of a report in two parts, and what each part has spent. -/
theorem fires_eq_append
    (h : (battle.resolveRound rules supportRules source history).outcome = .ok report) :
    let flak := report.fires.filter (·.kind = .antiAircraft)
    let others := report.fires.filter (·.kind ≠ .antiAircraft)
    report.fires = flak ++ others ∧
      flak.flatMap (·.spent) = (battle.flak rules).flatMap (·.spent rules) ∧
      others.flatMap (·.spent) =
        (battle.mainVolleys rules supportRules).flatMap (·.spent rules) := by
  obtain ⟨rolls, hfired, rfl⟩ := exists_fired_of_ok h
  rw [volleys_eq_append] at hfired ⊢
  obtain ⟨first, second, next, rfl, hflak, hmain⟩ := hfired.split
  obtain ⟨hfires, hfirst, hsecond⟩ := fires_append (fun _ => kind_of_mem_flak)
    (fun _ => kind_of_mem_mainVolleys) hflak.length_eq
  have hspent {volleys : List Volley} {rolls : List Roll} (h : rolls.length = volleys.length) :
      (battle.report rules (volleys.zip rolls)).fires.flatMap (·.spent) =
        volleys.flatMap (·.spent rules) := by
    have hmap := congrArg (List.flatMap (·.2)) (map_spent_report battle rules h)
    rwa [List.flatMap_map, List.flatMap_map] at hmap
  rw [hfirst, hsecond]
  exact ⟨hfires, hspent hflak.length_eq, hspent hmain.length_eq⟩

/-- The volley of a fire, at the same place of the round. -/
theorem exists_volleys_of_fires_eq {before after : List Fire} {fire : Fire}
    (h : (battle.resolveRound rules supportRules source history).outcome = .ok report)
    (hfires : report.fires = before ++ fire :: after) :
    ∃ earlier volley later, battle.volleys rules supportRules = earlier ++ volley :: later ∧
      earlier.length = before.length ∧ volley.kind = fire.kind ∧
      volley.spent rules = fire.spent := by
  obtain ⟨rolls, hfired, rfl⟩ := exists_fired_of_ok h
  have hmap := map_spent_report battle rules hfired.length_eq
  rw [hfires, List.map_append, List.map_cons] at hmap
  obtain ⟨earlier, rest, hvolleys, hearlier, hrest⟩ := List.map_eq_append_iff.mp hmap.symm
  obtain ⟨volley, later, rfl, hvolley, -⟩ := List.map_eq_cons_iff.mp hrest
  obtain ⟨hkind, hspent⟩ := Prod.mk.inj hvolley
  have hlength := congrArg List.length hearlier
  rw [List.length_map, List.length_map] at hlength
  exact ⟨earlier, volley, later, hvolleys, hlength, hkind, hspent⟩

/-- Behind the guns no unit takes part in two volleys. -/
theorem not_mem_later (hids : ((battle.offense ++ battle.defense).map (·.id)).Nodup)
    {earlier later : List Volley} {volley other : Volley}
    (hvolleys : battle.volleys rules supportRules = earlier ++ volley :: later)
    (hkind : volley.kind ≠ .antiAircraft) (hother : other ∈ later) :
    ∀ id ∈ volley.units.map (·.id), id ∉ other.units.map (·.id) := by
  rw [volleys_eq_append] at hvolleys
  have hmain : ∃ before, battle.mainVolleys rules supportRules = before ++ volley :: later := by
    rcases List.append_eq_append_iff.mp hvolleys with ⟨before, -, hmain⟩ | ⟨more, hflak, hmore⟩
    · exact ⟨before, hmain⟩
    · cases more with
      | nil => exact ⟨[], hmore.symm⟩
      | cons first more =>
        cases hmore
        have hmem : volley ∈ battle.flak rules :=
          hflak ▸ List.mem_append_right _ List.mem_cons_self
        exact absurd (kind_of_mem_flak hmem) hkind
  obtain ⟨before, hmain⟩ := hmain
  have hnodup := nodup_ids_of_subperm hids (hmain ▸ subperm_unitsOf_mainVolleys)
  rw [unitsOf_append, List.map_append, unitsOf, unitsOf, List.flatMap_cons, List.map_append]
    at hnodup
  intro id hid hagain
  obtain ⟨unit, hunit, rfl⟩ := List.mem_map.mp hagain
  have hlater : unit ∈ later.flatMap (·.units) := List.mem_flatMap.mpr ⟨other, hother, hunit⟩
  exact List.disjoint_of_nodup_append hnodup.of_append_right hid (List.mem_map_of_mem hlater)

/-- Anti-aircraft fire comes first and spends no unit twice, and neither does what is fired behind
it. Anti-aircraft fire spends the suicide units among the guns that fire, and the other fires all
suicide units of the battle, of which in an air battle only air units fight; so what is spent by
guns is spent once more. A unit that was spent otherwise takes no part in a later fire. -/
theorem spent_of_round (battle : Battle) (rules : RuleSet) (supportRules : List SupportRule)
    (hids : ((battle.offense ++ battle.defense).map (·.id)).Nodup) {σ : Type} [DiceSource σ]
    (source : σ) (history : History) (report : RoundReport)
    (h : (battle.resolveRound rules supportRules source history).outcome = .ok report) :
    let flak := report.fires.filter (·.kind = .antiAircraft)
    let others := report.fires.filter (·.kind ≠ .antiAircraft)
    report.fires = flak ++ others ∧
    (flak.flatMap (·.spent)).Nodup ∧ (others.flatMap (·.spent)).Nodup ∧
    (∀ id, id ∈ flak.flatMap (·.spent) ↔
      battle.kind = .combat ∧ battle.context.round = 1 ∧ ∃ side unit,
        battle.FiresFlak rules side unit ∧ (unit.traits rules).suicide ∧ unit.id = id) ∧
    (∀ id, id ∈ others.flatMap (·.spent) ↔ ∃ unit ∈ battle.offense ++ battle.defense,
      (battle.kind = .airBattle → (unit.traits rules).air) ∧
        (unit.traits rules).suicide ∧ unit.id = id) ∧
    ∀ before fire after, report.fires = before ++ fire :: after → fire.kind ≠ .antiAircraft →
      ∀ id ∈ fire.spent, ∀ later ∈ (battle.volleys rules supportRules).drop (before.length + 1),
        id ∉ later.units.map (·.id) := by
  obtain ⟨hfires, hflak, hothers⟩ := fires_eq_append h
  refine ⟨hfires, ?_, ?_, fun id => ?_, fun id => ?_, ?_⟩
  · rw [hflak]
    exact nodup_spent hids subperm_unitsOf_flak
  · rw [hothers]
    exact nodup_spent hids subperm_unitsOf_mainVolleys
  · rw [hflak, mem_flatMap_spent]
    constructor
    · rintro ⟨unit, hunit, hspent⟩
      obtain ⟨hkind, hround, side, hfires⟩ := mem_unitsOf_flak.mp hunit
      exact ⟨hkind, hround, side, unit, hfires, hspent⟩
    · rintro ⟨hkind, hround, side, unit, hfires, hspent⟩
      exact ⟨unit, mem_unitsOf_flak.mpr ⟨hkind, hround, side, hfires⟩, hspent⟩
  · rw [hothers, mem_flatMap_spent]
    simp only [mem_unitsOf_mainVolleys, and_assoc]
  · intro before fire after hsplit hkind id hid later hlater
    obtain ⟨earlier, volley, rest, hvolleys, hlength, hsame, hspent⟩ :=
      exists_volleys_of_fires_eq h hsplit
    rw [hvolleys, List.append_cons, List.drop_left' (by simp [hlength])] at hlater
    rw [← hspent] at hid
    exact not_mem_later hids hvolleys (hsame ▸ hkind) hlater id
      ((List.filter_sublist.map _).subset hid)

/-- A rocket that is fired at aircraft or in the main exchange. -/
def rocketBase : Battle :=
  let fighter : UnitType := { name := "fighter", attack := 3, isAir := true }
  let rocket : UnitType :=
    { name := "rocket", defense := 2, antiAircraft := some { defense := 1 }, isSuicide := true }
  { attacker := { name := "British" }
    defender := { name := "Germans" }
    offense := [⟨0, fighter, { name := "British" }⟩]
    defense := [⟨1, rocket, { name := "Germans" }⟩]
    context := { territory := "North Sea" } }

/-- The rocket is spent on the fighter, and in the main exchange. -/
theorem spent_of_rocketBase :
    ((rocketBase.offense ++ rocketBase.defense).map (·.id)).Nodup ∧ ∃ report,
      (rocketBase.resolveRound {} [] ({ values := [4, 3, 1] } : Script) []).outcome = .ok report ∧
      report.fires.map (fun fire => (fire.kind, fire.spent)) =
        [(.antiAircraft, [1]), (.general, []), (.general, [1])] ∧
      ((report.fires.filter (·.kind = .antiAircraft)).flatMap (·.spent)).Nodup ∧
      ((report.fires.filter (·.kind ≠ .antiAircraft)).flatMap (·.spent)).Nodup := by
  have hids : ((rocketBase.offense ++ rocketBase.defense).map (·.id)).Nodup := by decide
  have hshown : (rocketBase.resolveRound {} [] ({ values := [4, 3, 1] } : Script)
      []).outcome.toOption.map (fun report =>
        report.fires.map fun fire => (fire.kind, fire.spent)) =
      some [(.antiAircraft, [1]), (.general, []), (.general, [1])] := by
    decide +kernel
  obtain ⟨report, hround, hshown⟩ := exists_ok_of_toOption_map hshown
  obtain ⟨-, hflak, hothers, -⟩ := spent_of_round rocketBase {} [] hids _ [] report hround
  exact ⟨hids, report, hround, hshown, hflak, hothers⟩

/-- A round may spend a unit twice. -/
theorem not_nodup_spent :
    ¬ ∀ (battle : Battle) (rules : RuleSet) (supportRules : List SupportRule),
      ((battle.offense ++ battle.defense).map (·.id)).Nodup →
      ∀ {σ : Type} [DiceSource σ] (source : σ) (history : History) (report : RoundReport),
        (battle.resolveRound rules supportRules source history).outcome = .ok report →
        (report.fires.flatMap (·.spent)).Nodup := by
  intro h
  have hshown : (rocketBase.resolveRound {} [] ({ values := [4, 3, 1] } : Script)
      []).outcome.toOption.map (fun report => report.fires.flatMap (·.spent)) = some [1, 1] := by
    decide +kernel
  obtain ⟨report, hround, hspent⟩ := exists_ok_of_toOption_map hshown
  have hnodup := h rocketBase {} [] (by decide) _ [] report hround
  rw [hspent] at hnodup
  exact absurd hnodup (by decide)

end Battle

end Salvo
