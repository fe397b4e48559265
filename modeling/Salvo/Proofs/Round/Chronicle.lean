import Salvo.Proofs.Round.DiceStream

/-! # The history of a round

Every fire leaves two lines in the history, and the second of them shows the faces of its dice
(`Roll.splitOn_diceText`). The lines of a fire are written before the next one throws its dice
(`Battle.resolveVolleys_eq_fireInTurn`), so that a round that fails leaves those of the fires before
the failure. With a script that is cut short a round goes as with the whole script up to the first
fire that finds too few dice (`Fired.fireAll_shortened`): no dice are asked for ahead of the lines
of an earlier fire, and no line is written ahead of its dice (`history_of_shortened_script`). -/

namespace Salvo

/-- The lines about a fire: who rolled for which units where, and the dice. -/
def Fire.entries (fire : Fire) (context : BattleContext) : List HistoryEntry :=
  [{ text := fire.player ++ " roll dice for " ++ fire.units ++ " in " ++ context.territory ++
        ", round " ++ toString context.round
     isDetail := false },
    { text := fire.player ++ " " ++ fire.kind.name ++ " : " ++ fire.roll.diceText
      isDetail := true
      roll := some fire.roll }]

/-- How many dice the fires have rolled. -/
def diceUsed (fires : List Fire) : Nat := (fires.map (·.roll.dice.length)).sum

/-- How many of the counts, from the first on, a stock is enough for. -/
def covered : Nat → List Nat → Nat
  | _, [] => 0
  | stock, count :: counts => if count ≤ stock then covered (stock - count) counts + 1 else 0

theorem sum_take_le_iff (stock : Nat) (counts : List Nat) {place : Nat}
    (hplace : place ≤ counts.length) :
    (counts.take place).sum ≤ stock ↔ place ≤ covered stock counts := by
  induction counts generalizing stock place with
  | nil =>
    rw [List.take_nil]
    exact iff_of_true (Nat.zero_le stock) hplace
  | cons count counts ih =>
    cases place with
    | zero => exact iff_of_true (Nat.zero_le stock) (Nat.zero_le _)
    | succ place =>
      rw [List.take_succ_cons, List.sum_cons, covered]
      split
      · rename_i hcount
        have hrest := ih (stock - count) (Nat.le_of_succ_le_succ hplace)
        omega
      · omega

/-! ## The text of the dice -/

theorem comma_not_mem_toString (x : Int) : ',' ∉ (toString x).toList := by
  have hnatural (n : Nat) : ',' ∉ (toString n).toList := by
    rw [Nat.toString_eq_ofList_toDigits, String.toList_ofList]
    intro hmem
    exact absurd (Nat.isDigit_of_mem_toDigits (by decide) (by decide) hmem) (by decide)
  rw [Int.toString_eq_repr, Int.repr_eq_if]
  split
  · exact hnatural _
  · rw [String.toList_append, List.mem_append]
    exact not_or.mpr ⟨by decide, hnatural _⟩

theorem Die.face_of_inRange {die : Die} (h : Amount.InRange (die.value + 1)) :
    die.face = toString (die.value + 1) := by
  rw [face, Amount.wrap_of_inRange h]

/-- A text of dice says that there are none, or shows their faces, counted from one and parted by
commas. -/
theorem Roll.splitOn_diceText (roll : Roll)
    (hfaces : ∀ die ∈ roll.dice, Amount.InRange (die.value + 1)) :
    roll.diceText.toList.splitOn ',' =
      if roll.dice.isEmpty then ["none".toList]
      else roll.dice.map fun die => (toString (die.value + 1)).toList := by
  have hshown : roll.dice.map (·.face) = roll.dice.map fun die => toString (die.value + 1) :=
    List.map_congr_left fun die hdie => Die.face_of_inRange (hfaces die hdie)
  rw [diceText, hshown]
  split
  · decide
  · rename_i hdice
    rw [String.toList_intercalate, List.map_map]
    refine List.splitOn_intercalate ',' ?_ (by simpa using hdice)
    intro shown hmem
    obtain ⟨die, _, rfl⟩ := List.mem_map.mp hmem
    exact comma_not_mem_toString _

/-! ## The lines of the fires -/

section

variable {battle : Battle} {rules : RuleSet} {supportRules : List SupportRule}

theorem Volley.chronicle_eq (volley : Volley) (battle : Battle) (rules : RuleSet) (roll : Roll)
    (history : History) :
    volley.chronicle battle roll history =
      history ++ (volley.outcome battle rules roll).entries battle.context := by
  simp [chronicle, History.startEvent, History.addDetail, outcome, Fire.entries, caption,
    rollEventText, rollDetailText]

theorem foldl_chronicle (fired : List (Volley × Roll)) (history : History) :
    fired.foldl (fun history (volley, roll) => volley.chronicle battle roll history) history =
      history ++ (battle.report rules fired).fires.flatMap (·.entries battle.context) := by
  induction fired generalizing history with
  | nil => simp [Battle.report]
  | cons shot fired ih =>
    obtain ⟨volley, roll⟩ := shot
    rw [List.foldl_cons, ih]
    show volley.chronicle battle roll history ++ _ = _
    rw [volley.chronicle_eq battle rules, List.append_assoc]
    rfl

variable {σ : Type} [DiceSource σ]

/-- The history grows by the lines of the fires, whether or not a later fire fails. -/
theorem Battle.history_resolveRound (source : σ) (history : History) :
    (battle.resolveRound rules supportRules source history).history =
      history ++ (battle.report rules
        (fireAll battle (battle.volleys rules supportRules) source).fired).fires.flatMap
          (·.entries battle.context) :=
  foldl_chronicle _ history

end

/-! ## Fire by fire -/

section

variable {σ : Type} [DiceSource σ]

/-- Fires volleys in order and writes the lines of each before the next one throws its dice. The
fires before them have been made already. -/
def Battle.fireInTurn (battle : Battle) (rules : RuleSet) :
    List Volley → List Fire → σ → History → Resolution σ
  | [], fires, source, history =>
    { outcome := .ok { round := battle.context.round, plan := battle.plan? rules, fires }
      history
      source }
  | volley :: volleys, fires, source, history =>
    match volley.throwDice battle source with
    | (.error error, source) => { outcome := .error error, history, source }
    | (.ok roll, source) =>
      fireInTurn battle rules volleys (fires ++ [volley.outcome battle rules roll]) source
        (volley.chronicle battle roll history)

theorem Battle.fireInTurn_eq (battle : Battle) (rules : RuleSet) (volleys : List Volley)
    (fires : List Fire) (source : σ) (history : History) :
    battle.fireInTurn rules volleys fires source history =
      { battle.resolveVolleys rules volleys source history with
        outcome := (battle.resolveVolleys rules volleys source history).outcome.map fun report =>
          { report with fires := fires ++ report.fires } } := by
  induction volleys generalizing fires source history with
  | nil => simp [fireInTurn, resolveVolleys, fireAll, report, Except.map]
  | cons volley volleys ih =>
    rw [fireInTurn]
    cases hthrow : volley.throwDice battle source with
    | mk outcome next =>
      cases outcome with
      | error error =>
        rw [resolveVolleys, fireAll_cons_of_error hthrow]
        rfl
      | ok roll =>
        simp only [ih, resolveVolleys, fireAll_cons_of_ok hthrow]
        cases (fireAll battle volleys next).failure with
        | some error => rfl
        | none => simp [report, Except.map]

/-- It does not matter that the volleys are laid out first and the lines written last: a round goes
as if each fire had been recorded before the next one. -/
theorem Battle.resolveVolleys_eq_fireInTurn (battle : Battle) (rules : RuleSet)
    (volleys : List Volley) (source : σ) (history : History) :
    battle.resolveVolleys rules volleys source history =
      battle.fireInTurn rules volleys [] source history := by
  rw [fireInTurn_eq]
  cases hround : battle.resolveVolleys rules volleys source history with
  | mk outcome history source => cases outcome <;> rfl

end

/-! ## Scripts that are cut short -/

section

variable {battle : Battle} {rules : RuleSet} {values more : List Int} {consumed : Nat}

theorem Volley.Lawful.throwDice_shortened {volley : Volley} (hlawful : volley.Lawful rules)
    {rest : Script} {roll : Roll}
    (h : volley.throwDice battle (⟨values ++ more, consumed⟩ : Script) = (.ok roll, rest)) :
    volley.throwDice battle (⟨values, consumed⟩ : Script) =
      if roll.dice.length ≤ values.length then
        (.ok roll, ⟨values.drop roll.dice.length, consumed + roll.dice.length⟩)
      else
        (.error (.dice (.exhausted roll.dice.length values.length)), ⟨values, consumed⟩) := by
  obtain ⟨⟨_, hrolled, hcount⟩, _⟩ := hlawful.throwDice_script h
  obtain ⟨table, dealt, htable, hdeals, rfl⟩ := hlawful.throwDice_eq_ok_iff.mp h
  obtain rfl := Except.ok.inj (hrolled.symm.trans htable)
  rw [← hlawful.lowLuck_eq] at hcount
  have hshort := hdeals.shortened
  dsimp only at hshort
  rw [hcount]
  split at hshort
  · rename_i henough
    rw [if_pos henough]
    exact hlawful.throwDice_eq_ok_iff.mpr ⟨_, dealt, htable, hshort, rfl⟩
  · rename_i hfew
    rw [if_neg hfew, hlawful.throwDice_eq htable, if_neg (by omega), hshort]

variable {volleys : List Volley} {source rest : Script} {rolls : List Roll}

/-- Volleys that are fired from a script are fired from the first part of it as far as its dice
go. -/
theorem Fired.fireAll_shortened (h : Fired battle volleys source rolls rest)
    (hlawful : ∀ volley ∈ volleys, volley.Lawful rules)
    (hsource : source = ⟨values ++ more, consumed⟩) {counts : List Nat} {place : Nat}
    (hcounts : counts = rolls.map (·.dice.length)) (hplace : place = covered values.length counts) :
    (fireAll battle volleys (⟨values, consumed⟩ : Script)).fired = (volleys.zip rolls).take place ∧
      (fireAll battle volleys (⟨values, consumed⟩ : Script)).failure =
        counts[place]?.map fun count =>
          .dice (.exhausted count (values.length - (counts.take place).sum)) := by
  induction h generalizing values consumed counts place with
  | nil =>
    subst hcounts
    simp [fireAll]
  | @cons volley volleys source next rest roll rolls hthrow _ ih =>
    subst hsource hcounts hplace
    obtain ⟨hvolley, hvolleys⟩ := List.forall_mem_cons.mp hlawful
    obtain ⟨_, _, _, hnext⟩ := hvolley.throwDice_script hthrow
    have hshort := hvolley.throwDice_shortened hthrow
    rw [List.map_cons, covered]
    by_cases henough : roll.dice.length ≤ values.length
    · rw [if_pos henough] at hshort ⊢
      -- The next volley finds the rest of the first part in front of the same further values.
      rw [List.drop_append_of_le_length henough] at hnext
      obtain ⟨hfired, hfailure⟩ := ih hvolleys hnext rfl rfl
      rw [List.length_drop] at hfired hfailure
      rw [fireAll_cons_of_ok hshort, List.zip_cons_cons, List.take_succ_cons, List.take_succ_cons,
        List.getElem?_cons_succ, List.sum_cons, ← Nat.sub_sub]
      exact ⟨congrArg _ hfired, hfailure⟩
    · rw [if_neg henough] at hshort ⊢
      rw [fireAll_cons_of_error hshort]
      exact ⟨rfl, rfl⟩

end

theorem diceUsed_take_le_iff {stock : Nat} {fires : List Fire} {place : Nat}
    (hplace : place ≤ fires.length) :
    diceUsed (fires.take place) ≤ stock ↔
      place ≤ covered stock (fires.map (·.roll.dice.length)) := by
  rw [diceUsed, List.map_take]
  exact sum_take_le_iff _ _ (by rwa [List.length_map])

/-- The fires that the first part of a script is enough for, and the failure at the next one. -/
theorem Battle.fireAll_of_shortened_script {battle : Battle} {rules : RuleSet}
    {supportRules : List SupportRule} {history : History} {values more : List Int}
    {report : RoundReport} {place : Nat}
    (h : (battle.resolveRound rules supportRules ({ values := values ++ more } : Script)
      history).outcome = .ok report)
    (hplace : place = covered values.length (report.fires.map (·.roll.dice.length))) :
    let salvoes := fireAll battle (battle.volleys rules supportRules) ({ values } : Script)
    battle.report rules salvoes.fired = { report with fires := report.fires.take place } ∧
    salvoes.failure = report.fires[place]?.map fun fire =>
      .dice (.exhausted fire.roll.dice.length
        (values.length - diceUsed (report.fires.take place))) := by
  intro salvoes
  obtain ⟨rolls, hfired, hreport⟩ := exists_fired_of_ok h
  have hlawful : ∀ volley ∈ battle.volleys rules supportRules, volley.Lawful rules :=
    fun _ => lawful_of_mem_volleys
  have hrolls : report.fires.map (·.roll) = rolls := by
    rw [hreport, map_roll_report hfired.length_eq]
  have hcounts : report.fires.map (·.roll.dice.length) = rolls.map (·.dice.length) := by
    rw [← hrolls, List.map_map]
    rfl
  obtain ⟨hshots, hfailure⟩ := hfired.fireAll_shortened hlawful rfl hcounts hplace
  refine ⟨?_, ?_⟩
  · rw [hshots, hreport, Battle.report, Battle.report, List.map_take]
  · rw [hfailure, List.getElem?_map, Option.map_map, ← List.map_take]
    rfl

/-- A round writes two lines for each of its fires. Fired from the first part of its script alone it
has the same report and history, if its fires use no more dice. Otherwise it fails at the first fire
that finds too few, and the history ends with the lines of the fire before. -/
theorem Battle.history_of_shortened_script (battle : Battle) (rules : RuleSet)
    (supportRules : List SupportRule) (history : History) (values more : List Int)
    (report : RoundReport)
    (h : (battle.resolveRound rules supportRules ({ values := values ++ more } : Script)
      history).outcome = .ok report) :
    let entries (fires : List Fire) : List HistoryEntry :=
      fires.flatMap (·.entries battle.context)
    let whole := battle.resolveRound rules supportRules ({ values := values ++ more } : Script)
      history
    let short := battle.resolveRound rules supportRules ({ values } : Script) history
    whole.history = history ++ entries report.fires ∧
    (diceUsed report.fires ≤ values.length →
      short.outcome = .ok report ∧ short.history = history ++ entries report.fires) ∧
    (values.length < diceUsed report.fires →
      ∃ place fire, report.fires[place]? = some fire ∧
        (∀ other, diceUsed (report.fires.take other) ≤ values.length ↔ other ≤ place) ∧
        short.outcome = .error (.dice (.exhausted fire.roll.dice.length
          (values.length - diceUsed (report.fires.take place)))) ∧
        short.history = history ++ entries (report.fires.take place)) := by
  intro entries whole short
  generalize hplace : covered values.length (report.fires.map (·.roll.dice.length)) = place
  have hused {other : Nat} (hother : other ≤ report.fires.length) :
      diceUsed (report.fires.take other) ≤ values.length ↔ other ≤ place :=
    hplace ▸ diceUsed_take_le_iff hother
  have hall : diceUsed report.fires ≤ values.length ↔ report.fires.length ≤ place := by
    rw [← hused (Nat.le_refl _), List.take_length]
  obtain ⟨hreport, hfailure⟩ := fireAll_of_shortened_script h hplace.symm
  have hhistory : short.history = history ++ entries (report.fires.take place) :=
    (history_resolveRound ..).trans (by rw [hreport])
  have hwhole : whole.history = history ++ entries report.fires := by
    obtain ⟨rolls, hfired, hreport⟩ := exists_fired_of_ok h
    rw [hreport]
    exact (history_resolveRound ..).trans (by rw [hfired.fireAll_eq])
  refine ⟨hwhole, fun henough => ?_, fun hfew => ?_⟩
  · have hend := hall.mp henough
    rw [List.getElem?_eq_none hend] at hfailure
    rw [List.take_of_length_le hend] at hreport hhistory
    refine ⟨?_, hhistory⟩
    exact (outcome_resolveRound ..).trans (by rw [hfailure, hreport]; rfl)
  · have hlt : place < report.fires.length := by omega
    have hfire := List.getElem?_eq_getElem hlt
    rw [hfire] at hfailure
    refine ⟨place, report.fires[place], hfire, fun other => ?_, ?_, hhistory⟩
    · rcases Nat.le_total other report.fires.length with hother | hother
      · exact hused hother
      · rw [List.take_of_length_le hother]
        omega
    · exact (outcome_resolveRound ..).trans (by rw [hfailure]; rfl)

/-- The script ends in the dice of the attackers, who find two dice for three. -/
theorem Battle.history_of_shortened_raid :
    let unit (id : Nat) (type : UnitType) (player : String) : Combatant :=
      ⟨id, type, { name := player }⟩
    let infantry : UnitType := { name := "infantry", attack := 1, defense := 2 }
    let fighter : UnitType := { name := "fighter", attack := 3, defense := 4, isAir := true }
    let gun : UnitType :=
      { name := "aaGun", defenseRolls := 0, antiAircraft := some { defense := 1 } }
    let battle : Battle :=
      { attacker := { name := "Germans" }
        defender := { name := "Russians" }
        offense := [unit 0 infantry "Germans", unit 1 fighter "Germans", unit 2 infantry "Germans"]
        defense := [unit 3 gun "Russians", unit 4 infantry "Russians"]
        context := { territory := "Ukraine" } }
    let history : History := [{ text := "Battle in Ukraine", isDetail := false }]
    let whole := battle.resolveRound {} [] ({ values := [0, 2, 5] ++ [0, 1, 4] } : Script) history
    let short := battle.resolveRound {} [] ({ values := [0, 2, 5] } : Script) history
    ∃ report, whole.outcome = .ok report ∧
      report.fires.map (·.roll.dice.length) = [1, 3, 1] ∧
      short.outcome = .error (.dice (.exhausted 3 2)) ∧
      short.history = history ++ (report.fires.take 1).flatMap (·.entries battle.context) := by
  intro unit infantry fighter gun battle history whole short
  have hshown : whole.outcome.toOption.map (·.fires.map (·.roll.dice.length)) =
      some [1, 3, 1] := by
    decide +kernel
  cases hround : whole.outcome with
  | error error =>
    rw [hround] at hshown
    cases hshown
  | ok report =>
    rw [hround] at hshown
    have hcounts : report.fires.map (·.roll.dice.length) = [1, 3, 1] := Option.some.inj hshown
    have hused (place : Nat) : diceUsed (report.fires.take place) = ([1, 3, 1].take place).sum := by
      rw [diceUsed, List.map_take, hcounts]
    have hfew : [0, 2, 5].length < diceUsed report.fires := by
      rw [diceUsed, hcounts]
      decide
    obtain ⟨place, fire, hfire, hmost, houtcome, hhistory⟩ :=
      (history_of_shortened_script battle {} [] history _ _ report hround).2.2 hfew
    have hplace : place = 1 := Nat.le_antisymm
      (Nat.le_of_not_lt fun hlt => absurd ((hmost 2).mpr hlt) (by rw [hused]; decide))
      ((hmost 1).mp (by rw [hused]; decide))
    have hcount : fire.roll.dice.length = 3 := by
      have hmap := congrArg (Option.map (·.roll.dice.length)) hfire
      rw [← List.getElem?_map, hcounts, hplace] at hmap
      exact (Option.some.inj hmap).symm
    rw [hcount, hused, hplace] at houtcome
    rw [hplace] at hhistory
    exact ⟨report, rfl, hcounts, houtcome, hhistory⟩

end Salvo
