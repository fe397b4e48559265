import Salvo.Proofs.Round.Firing
import Salvo.Proofs.Round.SilentGuns

/-! # The dice of a scripted round

A round that is fired from a script takes its dice off the front of the script, fire by fire: none
is lost, none is used twice, and their order is kept (`Battle.dice_of_scripted_round`). How many a
fire takes is decided by the power and the rolls of its group alone, save that guns may be silent
whose rolls add up to more than an amount can be. -/

namespace Salvo

/-- The group of the volley has power and rolls for as many dice. -/
def Volley.Rolls (volley : Volley) (rules : RuleSet) (roll : Roll) : Prop :=
  ∃ table, volley.table = .ok table ∧
    roll.dice.length = table.diceCount (volley.kind.inLowLuck rules)

variable {battle : Battle} {rules : RuleSet}

/-- One volley takes its dice off the front of the script. -/
theorem Volley.Lawful.throwDice_script {volley : Volley} (hlawful : volley.Lawful rules)
    {script rest : Script} {roll : Roll}
    (h : volley.throwDice battle script = (.ok roll, rest)) :
    volley.Rolls rules roll ∧ roll.dice.length ≤ script.values.length ∧
      roll.dice.map (·.value) = script.values.take roll.dice.length ∧
      rest = ⟨script.values.drop roll.dice.length, script.consumed + roll.dice.length⟩ := by
  obtain ⟨table, values, htable, hdeals, rfl⟩ := hlawful.throwDice_eq_ok_iff.mp h
  obtain ⟨hcount, hvalues, hrest⟩ := hdeals.script
  dsimp only at hcount hvalues hrest
  have hlength : values.length = table.diceCount volley.lowLuck := by
    rw [hvalues, List.length_take_of_le hcount]
  have hmap := (hlawful.inRange htable).map_value_rollOf hlength (battle.player volley.side)
  have hdice : (table.rollOf volley.lowLuck (battle.player volley.side) values).dice.length =
      table.diceCount volley.lowLuck := by
    rw [← hlength, ← congrArg List.length hmap, List.length_map]
  rw [hdice]
  refine ⟨⟨table, htable, ?_⟩, hcount, hmap.trans hvalues, hrest⟩
  rw [hdice, hlawful.lowLuck_eq]

/-- A run of volleys takes its dice off the front of the script. -/
theorem Fired.script {volleys : List Volley} {script rest : Script} {rolls : List Roll}
    (h : Fired battle volleys script rolls rest)
    (hlawful : ∀ volley ∈ volleys, volley.Lawful rules) :
    List.Forall₂ (fun volley roll => volley.Rolls rules roll) volleys rolls ∧
      ∃ count ≤ script.values.length,
        rolls.flatMap (·.dice.map (·.value)) = script.values.take count ∧
          rest = ⟨script.values.drop count, script.consumed + count⟩ := by
  induction h with
  | nil source => exact ⟨.nil, 0, Nat.zero_le _, rfl, rfl⟩
  | @cons _ _ script _ _ roll _ hthrow _ ih =>
    obtain ⟨hvolley, hvolleys⟩ := List.forall_mem_cons.mp hlawful
    obtain ⟨hrolls, hle, hvalues, rfl⟩ := hvolley.throwDice_script hthrow
    obtain ⟨hmore, count, hcount, htake, rfl⟩ := ih hvolleys
    refine ⟨.cons hrolls hmore, roll.dice.length + count, ?_, ?_, ?_⟩
    · rw [List.length_drop] at hcount
      omega
    · rw [List.flatMap_cons, hvalues, htake, List.take_add]
    · rw [List.drop_drop, Nat.add_assoc]

/-! ## The groups of a round -/

/-- The power of the group of a volley, whether the group is silent or not. -/
def Volley.groupPower (volley : Volley) (battle : Battle) (rules : RuleSet) :
    Except CombatError PowerTable :=
  match volley.kind with
  | .antiAircraft =>
    AntiAircraftFire.gunPower volley.units (battle.units volley.side.opposite) volley.side rules
  | .firstStrike | .general | .airBattle => volley.table

/-- The anti-aircraft fire of the units of the volley. -/
def Volley.flak (volley : Volley) (battle : Battle) (rules : RuleSet) : AntiAircraftFire :=
  .atTargets volley.units (battle.units volley.side.opposite) volley.side rules

/-- The volley is one of guns whose rolls add up to nothing, as far as their sum can tell. -/
def Volley.IsSilent (volley : Volley) (battle : Battle) (rules : RuleSet) : Prop :=
  volley.kind = .antiAircraft ∧ (volley.flak battle rules).totalRolls ≤ 0

instance (volley : Volley) (battle : Battle) (rules : RuleSet) :
    Decidable (volley.IsSilent battle rules) :=
  inferInstanceAs (Decidable (_ ∧ _))

theorem Volley.groupPower_of_kind_ne {volley : Volley} (h : volley.kind ≠ .antiAircraft) :
    volley.groupPower battle rules = volley.table := by
  unfold groupPower
  split
  · exact absurd ‹_› h
  all_goals rfl

/-- A volley has the dice of its group if it is not silent, and a silent group has none. -/
theorem Battle.exists_groupPower {supportRules : List SupportRule} {volley : Volley} {roll : Roll}
    (hvolley : volley ∈ battle.volleys rules supportRules) (h : volley.Rolls rules roll) :
    ∃ table, volley.groupPower battle rules = .ok table ∧
      roll.dice.length = if volley.IsSilent battle rules then 0
        else table.diceCount (volley.kind.inLowLuck rules) := by
  obtain ⟨table, htable, hdice⟩ := h
  rcases eq_some_of_mem_volleys hvolley with ⟨side, guns, hguns⟩ | ⟨step, hstep⟩ | ⟨side, hair⟩
  · obtain rfl := eq_of_antiAircraftVolley? hguns
    by_cases hsilent :
        (AntiAircraftFire.atTargets guns (battle.units side.opposite) side rules).totalRolls ≤ 0
    · obtain ⟨power, hpower⟩ :=
        AntiAircraftFire.exists_gunPower guns (battle.units side.opposite) side rules
      refine ⟨power, hpower, ?_⟩
      cases htable.symm.trans (AntiAircraftFire.powerTable_of_no_rolls hsilent)
      rw [if_pos ⟨rfl, hsilent⟩, hdice]
      exact PowerTable.diceCount_empty ..
    · have hgroup := AntiAircraftFire.powerTable_of_rolls (Int.not_le.mp hsilent)
      refine ⟨table, hgroup.symm.trans htable, ?_⟩
      rw [if_neg fun h => hsilent h.2, hdice]
  · have hkind := kind_of_stepVolley? hstep
    refine ⟨table, (Volley.groupPower_of_kind_ne hkind).trans htable, ?_⟩
    rw [if_neg fun h => hkind h.1, hdice]
  · have hkind : volley.kind ≠ .antiAircraft := by
      rw [eq_of_airVolley? hair]
      nofun
    refine ⟨table, (Volley.groupPower_of_kind_ne hkind).trans htable, ?_⟩
    rw [if_neg fun h => hkind h.1, hdice]

/-- Silent guns would have no dice anyway if the sum of their rolls is in range. -/
theorem Volley.IsSilent.diceCount_eq {volley : Volley} (h : volley.IsSilent battle rules)
    {table : PowerTable} (htable : volley.groupPower battle rules = .ok table)
    (hmost : (volley.flak battle rules).exactRolls ≤ Amount.most) (lowLuck : Bool) :
    table.diceCount lowLuck = 0 := by
  obtain ⟨hkind, hsilent⟩ := h
  rw [groupPower, hkind] at htable
  exact AntiAircraftFire.diceCount_of_silent htable hsilent hmost lowLuck

end Salvo
