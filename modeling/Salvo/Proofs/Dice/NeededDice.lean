import Salvo.Proofs.Dice.Requests
import Salvo.Proofs.Dice.Throwing

/-! # Dice that are needed

The totals of a group are its exact sums up to the end of the range of amounts, in whatever order
the sums are taken. A group is armed if one of its units has both strength and rolls. Its two totals
tell just this, and so they tell when dice are rolled: a group that is not armed asks for none and
has an empty roll, and an armed one asks for dice, except in low luck when its power leaves no
remainder (`PowerTable.throw_of_summed_group`). -/

namespace Salvo.PowerTable

/-- Some unit of the group can hit. -/
def Armed (table : PowerTable) : Prop :=
  ∃ record ∈ table.records, 0 < record.strength ∧ 0 < record.rolls

instance (table : PowerTable) : Decidable table.Armed :=
  inferInstanceAs (Decidable (∃ record ∈ table.records, _))

/-- What is asked of a source for the group: nothing where nothing can hit, nor in low luck where
the power leaves no remainder. -/
def requests (table : PowerTable) (lowLuck : Bool) (label : DiceLabel) : List DiceRequest :=
  if ¬ table.Armed ∨ lowLuck ∧ table.diceSides ∣ table.totalPower then []
  else [⟨table.diceSides, if lowLuck then 1 else table.totalRolls.toNat, label⟩]

variable {table other : PowerTable}

theorem InRange.of_perm (h : table.InRange) (hperm : other.records.Perm table.records)
    (hsides : other.diceSides = table.diceSides) : other.InRange := by
  intro record hrecord
  rw [hsides]
  exact h record (hperm.mem_iff.mp hrecord)

theorem InRange.canHit_iff (h : table.InRange) : table.canHit ↔ table.Armed := by
  rw [h.canHit_eq, decide_eq_true_iff, h.totalPower_pos_iff]
  rfl

theorem InRange.diceCount_of_armed (h : table.InRange) (harmed : table.Armed) (lowLuck : Bool) :
    table.diceCount lowLuck =
      if lowLuck then if table.diceSides ∣ table.totalPower then 0 else 1
      else table.totalRolls.toNat := by
  rw [diceCount, if_pos (h.totalPower_pos_iff.mpr harmed)]

theorem InRange.requests_eq (h : table.InRange) (lowLuck : Bool) (label : DiceLabel) :
    table.requests lowLuck label =
      if table.diceCount lowLuck = 0 then []
      else [⟨table.diceSides, table.diceCount lowLuck, label⟩] := by
  unfold requests
  by_cases harmed : table.Armed
  · have hrolls := h.totalRolls_pos (h.totalPower_pos_iff.mpr harmed)
    have hsome : table.totalRolls.toNat ≠ 0 := by omega
    rw [h.diceCount_of_armed harmed]
    cases lowLuck with
    | false => simp [harmed, hsome]
    | true => by_cases hdvd : table.diceSides ∣ table.totalPower <;> simp [harmed, hdvd]
  · have hpower := mt h.totalPower_pos_iff.mp harmed
    rw [if_pos (.inl harmed), if_pos (h.diceCount_of_no_power hpower lowLuck)]

theorem InRange.scoreRoll_dice_ne_nil (h : table.InRange) (hpower : 0 < table.totalPower)
    {values : List Int} (hcount : table.diceCount false ≤ values.length) (player : String) :
    (table.scoreRoll player values).dice ≠ [] := by
  intro hdice
  have hrolls := h.totalRolls_pos hpower
  have htotal := h.totalRolls_eq
  have hask : table.diceCount false = table.totalRolls.toNat :=
    h.diceCount_of_armed (h.totalPower_pos_iff.mp hpower) false
  have hvalues := PowerRecord.map_value_scoreAll table.records values
  have hnil : PowerRecord.scoreAll table.records values = [] := hdice
  rw [← h.toNat_exactRolls, hnil] at hvalues
  have hlength := congrArg List.length hvalues
  rw [List.length_take, List.map_nil, List.length_nil] at hlength
  omega

/-- In low luck power that leaves nothing to be rolled for is worth a hit at least. -/
theorem InRange.sureHits_pos (h : table.InRange) (hpower : 0 < table.totalPower)
    (hdvd : table.diceSides ∣ table.totalPower) : 0 < table.sureHits :=
  Int.ediv_pos_of_pos_of_dvd hpower (Int.le_of_lt (h.diceSides_pos hpower)) hdvd

/-- An armed group has a die on record, or a hit that is sure. -/
theorem InRange.rollOf_ne_empty (h : table.InRange) (hpower : 0 < table.totalPower)
    {lowLuck : Bool} {values : List Int} (hcount : table.diceCount lowLuck ≤ values.length)
    (player : String) : table.rollOf lowLuck player values ≠ .empty player := by
  rw [h.rollOf_of_power hpower]
  cases lowLuck with
  | false => exact fun hempty =>
      h.scoreRoll_dice_ne_nil hpower hcount player (congrArg Roll.dice hempty)
  | true =>
    intro hempty
    cases values with
    | nil =>
      have hdvd : table.diceSides ∣ table.totalPower := by
        refine Classical.byContradiction fun hdvd => ?_
        have hone : table.diceCount true = 1 := if_neg hdvd
        exact absurd hcount (by rw [hone]; exact Nat.not_succ_le_zero 0)
      have hhits : table.sureHits + 0 = 0 := congrArg Roll.hits hempty
      have hsure := h.sureHits_pos hpower hdvd
      omega
    | cons value values => exact List.cons_ne_nil _ _ (congrArg Roll.dice hempty)

variable {σ : Type} [DiceSource σ]

theorem InRange.throwDice_eq_empty_iff (h : table.InRange) (lowLuck : Bool) (label : DiceLabel)
    (source : σ) :
    (table.throwDice lowLuck label source).1 = .ok (.empty label.player) ↔ ¬ table.Armed := by
  rw [← h.canHit_iff]
  constructor
  · intro hempty hhit
    have hpower : 0 < table.totalPower := of_decide_eq_true (h.canHit_eq ▸ hhit)
    obtain ⟨values, hdeals, hroll⟩ :=
      h.throwDice_eq_ok_iff.mp (Prod.ext hempty rfl : table.throwDice lowLuck label source = (_, _))
    exact h.rollOf_ne_empty hpower hdeals.count_le label.player hroll.symm
  · intro hhit
    rw [throwDice, if_pos (by simpa using hhit)]

/-- A recorder sees the requests of the group, and changes nothing. -/
theorem InRange.throwDice_recorder (h : table.InRange) (lowLuck : Bool) (label : DiceLabel)
    (source : σ) :
    table.throwDice lowLuck label ({ source } : Recorder σ) =
      ((table.throwDice lowLuck label source).1,
        ⟨(table.throwDice lowLuck label source).2, table.requests lowLuck label⟩) := by
  rw [h.throwDice_eq, h.throwDice_eq, h.requests_eq]
  split
  · rfl
  · rw [Recorder.requestDice_eq]
    rcases requestDice _ source with ⟨_ | _, _⟩ <;> rfl

theorem InRange.rest_of_requests_eq_nil (h : table.InRange) {lowLuck : Bool} {label : DiceLabel}
    (hnone : table.requests lowLuck label = []) (source : σ) :
    (table.throwDice lowLuck label source).2 = source := by
  rw [h.requests_eq] at hnone
  rw [h.throwDice_eq]
  split
  · rfl
  · rename_i hsome
    rw [if_neg hsome] at hnone
    cases hnone

/-- The totals of a group are its exact sums up to the end of the range of amounts, whatever the
order of its records. A group can hit just when one of its units has both strength and rolls. It
asks for what it needs and for nothing else, and if this is nothing the source stays as it is. It
has the empty roll just when it cannot hit. -/
theorem throw_of_summed_group (units : List Combatant) (calculator : Calculator)
    (table : PowerTable) (hperm : table.records.Perm (build units calculator).records)
    (hsides : table.diceSides = calculator.diceSides) :
    table.totalPower =
        min Amount.most ((build units calculator).records.map (·.power)).sum ∧
      table.totalRolls =
        min Amount.most ((build units calculator).records.map (·.rolls)).sum ∧
      (table.canHit ↔ table.Armed) ∧
      ∀ (lowLuck : Bool) (label : DiceLabel) {σ : Type} [DiceSource σ] (source : σ),
        let roll := (table.throwDice lowLuck label source).1
        let rest := (table.throwDice lowLuck label source).2
        table.throwDice lowLuck label ({ source } : Recorder σ) =
            (roll, ⟨rest, table.requests lowLuck label⟩) ∧
          (table.requests lowLuck label = [] → rest = source) ∧
          (roll = .ok (.empty label.player) ↔ ¬ table.Armed) := by
  have h : table.InRange := (inRange_build units calculator).of_perm hperm hsides
  refine ⟨?_, ?_, h.canHit_iff, fun lowLuck label σ _ source => ?_⟩
  · rw [h.totalPower_eq, (hperm.map _).sum_eq]
  · rw [h.totalRolls_eq, exactRolls, (hperm.map _).sum_eq]
  · exact ⟨h.throwDice_recorder lowLuck label source,
      fun hnone => h.rest_of_requests_eq_nil hnone source,
      h.throwDice_eq_empty_iff lowLuck label source⟩

/-- A battery whose totals leave the range of amounts, told in reverse, a pair of guns whose power
is a sure hit in low luck, and a group where one unit has strength only and the other one rolls. -/
theorem throw_of_battery :
    let unit (id : Nat) : Combatant := ⟨id, { name := "artillery" }, { name := "Germans" }⟩
    let calculator : Calculator :=
      { diceSides := 6
        values := fun unit =>
          if unit.id = 0 then { strength := 3, rolls := 2147483647 }
          else if unit.id = 1 then { strength := 3, rolls := 2 }
          else if unit.id = 2 then { strength := 5 }
          else { rolls := 4 } }
    let battery : PowerTable :=
      { records := (build [unit 0, unit 1, unit 2, unit 3] calculator).records.reverse
        diceSides := 6 }
    let pair := build [unit 1] calculator
    let idle := build [unit 2, unit 3] calculator
    let label : DiceLabel := ⟨"Germans", .combat, "Germans fire"⟩
    let script : Script := { values := [] }
    battery.totalPower = 2147483647 ∧ battery.totalRolls = 2147483647 ∧ battery.canHit ∧
      (battery.throwDice false label ({ source := script } : Recorder Script)).2.requests =
        [⟨6, 2147483647, label⟩] ∧
      (pair.throwDice true label ({ source := script } : Recorder Script)).2.requests = [] ∧
      (pair.throwDice true label script).1 ≠ .ok (.empty "Germans") ∧
      idle.throwDice false label script = (.ok (.empty "Germans"), script) := by
  intro unit calculator battery pair idle label script
  obtain ⟨hpower, hrolls, hhit, hbattery⟩ :=
    throw_of_summed_group [unit 0, unit 1, unit 2, unit 3] calculator battery
      (List.reverse_perm _) rfl
  obtain ⟨-, -, -, hpair⟩ := throw_of_summed_group [unit 1] calculator pair (.refl _) rfl
  obtain ⟨-, -, -, hidle⟩ := throw_of_summed_group [unit 2, unit 3] calculator idle (.refl _) rfl
  obtain ⟨hasked, -⟩ := hbattery false label script
  obtain ⟨hspared, -, hempty⟩ := hpair true label script
  obtain ⟨-, hrest, hnothing⟩ := hidle false label script
  refine ⟨hpower.trans (by decide), hrolls.trans (by decide), hhit.mpr (by decide), ?_, ?_, ?_, ?_⟩
  · rw [hasked]
    decide
  · rw [hspared]
    decide
  · exact mt hempty.mp (not_not.mpr (by decide))
  · exact Prod.ext (hnothing.mpr (by decide)) (hrest (by decide))

end Salvo.PowerTable
