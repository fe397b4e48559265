import Salvo.Proofs.Round.Chronicle
import Salvo.Proofs.Round.FireOnce

/-! # Rounds after the first

Anti-aircraft guns fire in the first round and in front of everything else. Nothing but this looks
at the number of the round, so that a later round of the same battle has the volleys of the first
one without the guns (`Battle.volleys_of_first_round`, `Battle.volleys_inRound`). Fired from
the dice that the guns left, it goes as the rest of the first round did
(`Battle.fires_after_flak`). -/

namespace Salvo

/-! ## Parts of a run -/

section

variable {σ : Type} [DiceSource σ] {battle : Battle} {source rest : σ}

/-- Volleys in two parts are fired one part after the other, the second from the dice that the first
leaves. -/
theorem Fired.split {volleys more : List Volley} {rolls : List Roll}
    (h : Fired battle (volleys ++ more) source rolls rest) :
    ∃ first second next, rolls = first ++ second ∧
      Fired battle volleys source first next ∧ Fired battle more next second rest := by
  induction volleys generalizing source rolls with
  | nil => exact ⟨[], rolls, source, rfl, .nil source, h⟩
  | cons volley volleys ih =>
    cases h with
    | cons hthrow hfired =>
      obtain ⟨first, second, next, rfl, hfirst, hsecond⟩ := ih hfired
      exact ⟨_ :: first, second, next, rfl, .cons hthrow hfirst, hsecond⟩

end

/-! ## Scripts with the same values -/

section

variable {battle : Battle} {rules : RuleSet} {script other rest : Script}

/-- A script deals its values, however many it has handed out before. -/
theorem Deals.of_values_eq {asked : DiceRequest} {values : List Int}
    (h : Deals asked script values rest) (hvalues : other.values = script.values) :
    ∃ left, Deals asked other values left ∧ left.values = rest.values := by
  unfold Deals at h ⊢
  split at h
  · rename_i hcount
    obtain ⟨rfl, rfl⟩ := h
    refine ⟨other, ?_, hvalues⟩
    rw [if_pos hcount]
    exact ⟨rfl, rfl⟩
  · rename_i hcount
    obtain ⟨hdeal, hlength⟩ := requestDice_eq_ok_iff.mp h
    obtain ⟨hle, rfl, rfl⟩ := Script.deal_eq_ok hdeal
    obtain ⟨hsides, hfaces⟩ := Script.faces_of_deal_eq_ok hdeal
    rw [← hvalues] at hle hfaces hlength ⊢
    refine ⟨⟨other.values.drop asked.count, other.consumed + asked.count⟩, ?_, rfl⟩
    rw [if_neg hcount]
    exact requestDice_eq_ok_iff.mpr ⟨Script.deal_of_faces hsides hle hfaces, hlength⟩

theorem Volley.Lawful.throwDice_of_values_eq {volley : Volley} (hlawful : volley.Lawful rules)
    {roll : Roll} (h : volley.throwDice battle script = (.ok roll, rest))
    (hvalues : other.values = script.values) :
    ∃ left, volley.throwDice battle other = (.ok roll, left) ∧ left.values = rest.values := by
  obtain ⟨table, values, htable, hdeals, hroll⟩ := hlawful.throwDice_eq_ok_iff.mp h
  obtain ⟨left, hleft, hrest⟩ := hdeals.of_values_eq hvalues
  exact ⟨left, hlawful.throwDice_eq_ok_iff.mpr ⟨table, values, htable, hleft, hroll⟩, hrest⟩

theorem Fired.of_values_eq {volleys : List Volley} {rolls : List Roll}
    (h : Fired battle volleys script rolls rest) (hlawful : ∀ volley ∈ volleys, volley.Lawful rules)
    (hvalues : other.values = script.values) : ∃ left, Fired battle volleys other rolls left := by
  induction h generalizing other with
  | nil => exact ⟨other, .nil other⟩
  | cons hthrow _ ih =>
    obtain ⟨hvolley, hvolleys⟩ := List.forall_mem_cons.mp hlawful
    obtain ⟨next, hnext, hrest⟩ := hvolley.throwDice_of_values_eq hthrow hvalues
    obtain ⟨left, hfired⟩ := ih hvolleys hrest
    exact ⟨left, .cons hnext hfired⟩

/-- A run leaves of a script what its dice have not used. -/
theorem Fired.values_eq_drop {volleys : List Volley} {rolls : List Roll}
    (h : Fired battle volleys script rolls rest)
    (hlawful : ∀ volley ∈ volleys, volley.Lawful rules) :
    rest.values = script.values.drop (rolls.map (·.dice.length)).sum := by
  obtain ⟨-, count, hcount, hvalues, rfl⟩ := h.script hlawful
  have hlength := congrArg List.length hvalues
  rw [List.length_take_of_le hcount, List.length_flatMap] at hlength
  simp only [List.length_map] at hlength
  rw [hlength]

end

/-! ## The same battle in another round -/

namespace Battle

def inRound (battle : Battle) (round : Nat) : Battle :=
  { battle with context := battle.context.withRound round }

variable {battle : Battle} {rules : RuleSet} {supportRules : List SupportRule} {round : Nat}

/-- The fire of the steps of the plan: all fire of a combat without anti-aircraft guns. -/
def stepVolleys (battle : Battle) (rules : RuleSet) (supportRules : List SupportRule) :
    List Volley :=
  (battle.plan rules).steps.filterMap (battle.stepVolley? rules supportRules)

theorem kind_of_mem_stepVolleys {volley : Volley}
    (h : volley ∈ battle.stepVolleys rules supportRules) : volley.kind ≠ .antiAircraft := by
  obtain ⟨step, -, hstep⟩ := List.mem_filterMap.mp h
  exact kind_of_stepVolley? hstep

theorem volleys_of_first_round (hkind : battle.kind = .combat) (hround : battle.context.round = 1) :
    battle.volleys rules supportRules =
      battle.antiAircraftVolleys rules ++ battle.stepVolleys rules supportRules := by
  rw [volleys_of_combat hkind, combatVolleys, if_pos hround, stepVolleys]

/-- Plan, support and strength of the steps are the same in every round. -/
theorem stepVolleys_inRound :
    (battle.inRound round).stepVolleys rules supportRules =
      battle.stepVolleys rules supportRules :=
  rfl

theorem volleys_inRound (hkind : battle.kind = .combat) (hround : round ≠ 1) :
    (battle.inRound round).volleys rules supportRules = battle.stepVolleys rules supportRules := by
  have hlater : (battle.inRound round).context.round ≠ 1 := hround
  have hsame : (battle.inRound round).kind = .combat := hkind
  rw [volleys_of_combat hsame, combatVolleys, if_neg hlater, List.nil_append]
  exact stepVolleys_inRound

variable {σ : Type} [DiceSource σ] {source rest : σ}

/-- Dice are thrown for the players of the battle, whatever round it is in. -/
theorem fired_inRound {volleys : List Volley} {rolls : List Roll}
    (h : Fired battle volleys source rolls rest) :
    Fired (battle.inRound round) volleys source rolls rest := by
  induction h with
  | nil source => exact .nil source
  | cons hthrow _ ih => exact .cons hthrow ih

theorem exists_volley_of_mem_report {volleys : List Volley} {rolls : List Roll} {fire : Fire}
    (h : fire ∈ (battle.report rules (volleys.zip rolls)).fires) :
    ∃ volley ∈ volleys, fire.kind = volley.kind := by
  obtain ⟨⟨volley, roll⟩, hshot, rfl⟩ := List.mem_map.mp h
  exact ⟨volley, (List.of_mem_zip hshot).1, rfl⟩

/-- Where guns are fired before steps, their fires come first and are told by their kind. -/
theorem fires_append {guns steps : List Volley} {first second : List Roll}
    (hguns : ∀ volley ∈ guns, volley.kind = .antiAircraft)
    (hsteps : ∀ volley ∈ steps, volley.kind ≠ .antiAircraft)
    (hlength : first.length = guns.length) :
    let report := battle.report rules ((guns ++ steps).zip (first ++ second))
    let flak := (battle.report rules (guns.zip first)).fires
    let others := (battle.report rules (steps.zip second)).fires
    report.fires = flak ++ others ∧ report.fires.filter (·.kind = .antiAircraft) = flak ∧
      report.fires.filter (·.kind ≠ .antiAircraft) = others := by
  intro report flak others
  have hfires : report.fires = flak ++ others := by
    simp only [report, Battle.report]
    rw [List.zip_append hlength.symm]
    exact List.map_append
  have hflak : ∀ fire ∈ flak, fire.kind = .antiAircraft := by
    intro fire hfire
    obtain ⟨volley, hvolley, hkind⟩ := exists_volley_of_mem_report hfire
    exact hkind.trans (hguns volley hvolley)
  have hothers : ∀ fire ∈ others, fire.kind ≠ .antiAircraft := by
    intro fire hfire
    obtain ⟨volley, hvolley, hkind⟩ := exists_volley_of_mem_report hfire
    exact hkind ▸ hsteps volley hvolley
  refine ⟨hfires, ?_, ?_⟩
  · rw [hfires, List.filter_append, List.filter_eq_self.mpr (by simpa using hflak),
      List.filter_eq_nil_iff.mpr (by simpa using hothers), List.append_nil]
  · rw [hfires, List.filter_append, List.filter_eq_nil_iff.mpr (by simpa using hflak),
      List.filter_eq_self.mpr (by simpa using hothers), List.nil_append]

theorem diceUsed_report (battle : Battle) (rules : RuleSet) {volleys : List Volley}
    {rolls : List Roll} (h : rolls.length = volleys.length) :
    diceUsed (battle.report rules (volleys.zip rolls)).fires =
      (rolls.map (·.dice.length)).sum := by
  have hrolls : (battle.report rules (volleys.zip rolls)).fires.map (·.roll) = rolls :=
    map_roll_report h
  have hdice := congrArg (List.map (·.dice.length)) hrolls
  rw [List.map_map] at hdice
  exact congrArg List.sum hdice

/-- Anti-aircraft fire comes first in a round, and without it the round goes on as it would be if it
were not the first: with the dice that the guns leave, every other round of the same battle has the
plan of the first one and the fires behind those of the guns. -/
theorem fires_after_flak (battle : Battle) (rules : RuleSet) (supportRules : List SupportRule)
    (hkind : battle.kind = .combat) (hround : battle.context.round = 1) (values : List Int)
    (history : History) (report : RoundReport)
    (h : (battle.resolveRound rules supportRules ({ values } : Script) history).outcome =
      .ok report) :
    let flak := report.fires.filter (·.kind = .antiAircraft)
    let others := report.fires.filter (·.kind ≠ .antiAircraft)
    report.fires = flak ++ others ∧
    ∀ round ≠ 1, ∀ history : History,
      let script : Script := { values := values.drop (diceUsed flak) }
      ((battle.inRound round).resolveRound rules supportRules script history).outcome =
        .ok { round, plan := report.plan, fires := others } := by
  obtain ⟨rolls, hfired, rfl⟩ := exists_fired_of_ok h
  have hlawful : ∀ volley ∈ battle.volleys rules supportRules, volley.Lawful rules :=
    fun _ => lawful_of_mem_volleys
  rw [volleys_of_first_round hkind hround] at hfired hlawful ⊢
  obtain ⟨hlawfulGuns, hlawfulSteps⟩ := List.forall_mem_append.mp hlawful
  obtain ⟨first, second, next, rfl, hguns, hsteps⟩ := hfired.split
  obtain ⟨hfires, hflak, hothers⟩ := fires_append (fun _ => kind_of_mem_antiAircraftVolleys)
    (fun _ => kind_of_mem_stepVolleys) hguns.length_eq
  rw [hflak, hothers]
  refine ⟨hfires, ?_⟩
  intro round hround history script
  have hvalues : script.values = next.values := by
    rw [hguns.values_eq_drop hlawfulGuns, ← diceUsed_report battle rules hguns.length_eq]
  obtain ⟨left, hlater⟩ := hsteps.of_values_eq hlawfulSteps hvalues
  have hlaid : (battle.inRound round).volleys rules supportRules =
      battle.stepVolleys rules supportRules := volleys_inRound hkind hround
  rw [outcome_of_fired (hlaid ▸ fired_inRound hlater) history, hlaid]
  rfl

/-- The gun over the North Sea takes the first die. In any later round of the hunt it does not fire,
and the two submarines have the dice behind it. -/
theorem fires_after_flak_of_submarineHunt :
    let rules : RuleSet := { secondEdition := true }
    ∃ report,
      (submarineHunt.resolveRound rules [] ({ values := [3, 1, 4, 0, 5] } : Script) []).outcome =
        .ok report ∧
      report.fires.map (fun fire => (fire.kind, fire.roll.dice.length)) =
        [(.antiAircraft, 1), (.firstStrike, 1), (.firstStrike, 1), (.general, 2), (.general, 0)] ∧
      ((submarineHunt.inRound 2).resolveRound rules [] ({ values := [1, 4, 0, 5] } : Script)
        []).outcome = .ok
          { round := 2, plan := report.plan
            fires := report.fires.filter (·.kind ≠ .antiAircraft) } := by
  intro rules
  have hshown : (submarineHunt.resolveRound rules [] ({ values := [3, 1, 4, 0, 5] } : Script)
      []).outcome.toOption.map (fun report =>
        (report.fires.map (fun fire => (fire.kind, fire.roll.dice.length)),
          diceUsed (report.fires.filter (·.kind = .antiAircraft)))) =
      some ([(.antiAircraft, 1), (.firstStrike, 1), (.firstStrike, 1), (.general, 2),
        (.general, 0)], 1) := by
    decide +kernel
  obtain ⟨report, hround, hshown⟩ := exists_ok_of_toOption_map hshown
  obtain ⟨hkinds, hused⟩ := Prod.mk.inj hshown
  obtain ⟨-, hlater⟩ :=
    fires_after_flak submarineHunt rules [] rfl rfl [3, 1, 4, 0, 5] [] report hround
  have hsecond := hlater 2 (by decide) []
  rw [hused] at hsecond
  exact ⟨report, hround, hkinds, hsecond⟩

end Battle

end Salvo
