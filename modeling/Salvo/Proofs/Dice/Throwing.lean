import Salvo.Proofs.Dice.Sources
import Salvo.Proofs.Power.Range

/-! # What a throw shows

A throw has one shape in all modes: the group asks once for a number of dice that its power and
rolls decide (`PowerTable.diceCount`), or not at all, and the answered values are scored
(`PowerTable.rollOf`). `PowerTable.InRange.throwDice_eq` says so for every built group.

Scoring keeps the values and their order, and the thresholds are those of the group: the strengths
of its units in their order, or the remainder in low luck. -/

namespace Salvo

/-! ## Scored dice -/

namespace PowerRecord

@[simp] theorem map_value_score (record : PowerRecord) (values : List Int) :
    (record.score values).map (·.value) = values := by
  unfold score
  split
  · refine List.ext_getElem (by simp) fun i hi _ => ?_
    simp only [List.getElem_map, List.getElem_mapIdx]
    split <;> rfl
  · simp [Function.comp_def, Die.scored]

@[simp] theorem map_threshold_score (record : PowerRecord) (values : List Int) :
    (record.score values).map (·.threshold) = List.replicate values.length record.strength := by
  unfold score
  split
  · refine List.ext_getElem (by simp) fun i hi _ => ?_
    simp only [List.getElem_map, List.getElem_mapIdx, List.getElem_replicate]
    split <;> rfl
  · simp [Function.comp_def, Die.scored, List.map_const']

theorem map_value_scoreAll (records : List PowerRecord) (values : List Int) :
    (scoreAll records values).map (·.value) =
      values.take (records.map (·.rolls.toNat)).sum := by
  induction records generalizing values with
  | nil => simp [scoreAll]
  | cons record records ih =>
    rw [scoreAll, List.map_append, map_value_score, ih, List.map_cons, List.sum_cons,
      List.take_add]

/-- The strength behind each die when all dice of the records are rolled. -/
def strengths (records : List PowerRecord) : List Int :=
  records.flatMap fun record => List.replicate record.rolls.toNat record.strength

theorem length_strengths (records : List PowerRecord) :
    (strengths records).length = (records.map (·.rolls.toNat)).sum := by
  rw [strengths, List.length_flatMap]
  simp

theorem map_threshold_scoreAll (records : List PowerRecord) (values : List Int) :
    (scoreAll records values).map (·.threshold) = (strengths records).take values.length := by
  induction records generalizing values with
  | nil => simp [scoreAll, strengths]
  | cons record records ih =>
    rw [scoreAll, List.map_append, map_threshold_score, ih, strengths, strengths, List.flatMap_cons,
      List.take_append, List.length_take, List.length_drop, List.take_replicate,
      List.length_replicate, Nat.min_comm]

end PowerRecord

namespace PowerTable

variable {table : PowerTable}

theorem InRange.toNat_exactRolls (h : table.InRange) :
    table.exactRolls.toNat = (table.records.map (·.rolls.toNat)).sum := by
  have hsum : ∀ records : List PowerRecord, (∀ record ∈ records, 0 ≤ record.rolls) →
      (records.map (·.rolls)).sum = ((records.map (·.rolls.toNat)).sum : Nat) := by
    intro records hrecords
    induction records with
    | nil => rfl
    | cons record records ih =>
      obtain ⟨hrecord, hrecords⟩ := List.forall_mem_cons.mp hrecords
      simp only [List.map_cons, List.sum_cons, ih hrecords]
      omega
  rw [exactRolls, hsum table.records fun record hrecord => (h record hrecord).rolls_nonneg]
  exact Int.toNat_natCast _

/-! ## The one request of a throw -/

/-- How many dice the group asks for. -/
def diceCount (table : PowerTable) (lowLuck : Bool) : Nat :=
  if lowLuck then if table.diceSides ∣ table.totalPower then 0 else 1
  else if 0 < table.totalPower then table.totalRolls.toNat else 0

theorem diceCount_empty (sides : Int) (lowLuck : Bool) : (empty sides).diceCount lowLuck = 0 := by
  cases lowLuck with
  | false => rfl
  | true =>
    have hdvd : sides ∣ (empty sides).totalPower := Int.dvd_zero sides
    rw [diceCount, if_pos rfl]
    exact if_pos hdvd

/-- What the group rolls once its dice are known. -/
def rollOf (table : PowerTable) (lowLuck : Bool) (player : String) (values : List Int) : Roll :=
  if !table.canHit then .empty player
  else if lowLuck then table.lowLuckRoll player values
  else table.scoreRoll player values

theorem InRange.remainder_pos_iff (h : table.InRange) (hpower : 0 < table.totalPower) :
    0 < table.remainder ↔ ¬ table.diceSides ∣ table.totalPower := by
  have hsides := h.diceSides_pos hpower
  have hnonneg := Int.emod_nonneg table.totalPower (Int.ne_of_gt hsides)
  rw [remainder, Int.dvd_iff_emod_eq_zero]
  omega

theorem InRange.diceCount_of_no_power (h : table.InRange) (hpower : ¬ 0 < table.totalPower)
    (lowLuck : Bool) : table.diceCount lowLuck = 0 := by
  have hzero : table.totalPower = 0 := by
    have := h.totalPower_nonneg
    omega
  simp [diceCount, hzero]

variable {σ : Type} [DiceSource σ]

/-- A built group asks for its dice, if it needs any, and scores them. -/
theorem InRange.throwDice_eq (h : table.InRange) (lowLuck : Bool) (label : DiceLabel) (source : σ) :
    table.throwDice lowLuck label source =
      if table.diceCount lowLuck = 0 then (.ok (table.rollOf lowLuck label.player []), source)
      else
        match requestDice ⟨table.diceSides, table.diceCount lowLuck, label⟩ source with
        | (.error error, source) => (.error error, source)
        | (.ok values, source) => (.ok (table.rollOf lowLuck label.player values), source) := by
  by_cases hpower : 0 < table.totalPower
  · have hhit : table.canHit = true := by rw [h.canHit_eq, decide_eq_true hpower]
    have hsides : ¬ table.diceSides < 1 := by
      have := h.diceSides_pos hpower
      omega
    cases lowLuck with
    | false =>
      have hrolls := h.totalRolls_pos hpower
      simp only [throwDice, rollOf, diceCount, hhit, Bool.not_true, Bool.false_eq_true, if_false,
        rollAll, if_neg hsides, if_pos hpower]
      have hask : ¬ table.totalRolls.toNat = 0 := by omega
      exact (if_neg (Int.not_le.mpr hrolls)).trans (if_neg hask).symm
    | true =>
      simp only [throwDice, rollOf, diceCount, hhit, Bool.not_true, Bool.false_eq_true, if_false,
        if_true, rollLowLuck, if_neg hsides]
      by_cases hdvd : table.diceSides ∣ table.totalPower
      · have hrem : ¬ 0 < table.remainder := fun hrem =>
          (h.remainder_pos_iff hpower).mp hrem hdvd
        rw [if_pos (by omega), if_pos hdvd, if_pos rfl]
      · have hrem := (h.remainder_pos_iff hpower).mpr hdvd
        rw [if_neg hdvd]
        exact (if_neg (Int.not_le.mpr hrem)).trans (if_neg Nat.one_ne_zero).symm
  · have hhit : table.canHit = false := by rw [h.canHit_eq, decide_eq_false hpower]
    rw [throwDice, rollOf, h.diceCount_of_no_power hpower, hhit]
    rfl

/-- The group rolls when the source deals its dice, and then it rolls what they give. -/
theorem InRange.throwDice_eq_ok_iff (h : table.InRange) {lowLuck : Bool} {label : DiceLabel}
    {source rest : σ} {roll : Roll} :
    table.throwDice lowLuck label source = (.ok roll, rest) ↔
      ∃ values, Deals ⟨table.diceSides, table.diceCount lowLuck, label⟩ source values rest ∧
        roll = table.rollOf lowLuck label.player values := by
  rw [h.throwDice_eq]
  unfold Deals
  split
  · constructor
    · intro heq
      cases heq
      exact ⟨[], ⟨rfl, rfl⟩, rfl⟩
    · rintro ⟨_, ⟨rfl, rfl⟩, rfl⟩
      rfl
  · split
    · rename_i herror
      simp [herror]
    · rename_i answer left hanswer
      rw [hanswer]
      constructor
      · intro heq
        cases heq
        exact ⟨answer, rfl, rfl⟩
      · rintro ⟨_, heq, rfl⟩
        cases heq
        rfl

/-! ## The dice of a roll -/

/-- The thresholds of the dice that the group rolls. -/
def thresholds (table : PowerTable) (lowLuck : Bool) : List Int :=
  List.take (table.diceCount lowLuck) <|
    if lowLuck then [table.remainder] else PowerRecord.strengths table.records

theorem InRange.length_strengths (h : table.InRange) :
    (PowerRecord.strengths table.records).length = table.exactRolls.toNat := by
  rw [h.toNat_exactRolls, PowerRecord.length_strengths]

theorem diceCount_true_le (table : PowerTable) : table.diceCount true ≤ 1 := by
  rw [diceCount, if_pos rfl]
  split <;> omega

theorem InRange.diceCount_false_le (h : table.InRange) :
    table.diceCount false ≤ table.exactRolls.toNat := by
  have htotal := h.totalRolls_eq
  simp only [diceCount, Bool.false_eq_true, if_false]
  split <;> omega

theorem InRange.diceCount_le_most (h : table.InRange) (lowLuck : Bool) :
    table.diceCount lowLuck ≤ Amount.most.toNat := by
  cases lowLuck with
  | false =>
    have htotal := h.totalRolls_eq
    simp only [diceCount, Bool.false_eq_true, if_false]
    split <;> omega
  | true => exact Nat.le_trans table.diceCount_true_le (by decide)

theorem InRange.rollOf_of_no_power (h : table.InRange) (hpower : ¬ 0 < table.totalPower)
    (lowLuck : Bool) (player : String) (values : List Int) :
    table.rollOf lowLuck player values = .empty player := by
  rw [rollOf, h.canHit_eq, decide_eq_false hpower]
  rfl

theorem InRange.rollOf_of_power (h : table.InRange) (hpower : 0 < table.totalPower)
    (lowLuck : Bool) (player : String) (values : List Int) :
    table.rollOf lowLuck player values =
      if lowLuck then table.lowLuckRoll player values else table.scoreRoll player values := by
  rw [rollOf, h.canHit_eq, decide_eq_true hpower]
  rfl

/-- A roll of all dice shows the answered values as far as the units have rolls for them. -/
theorem InRange.map_value_scoreRoll (h : table.InRange) (player : String) (values : List Int) :
    (table.scoreRoll player values).dice.map (·.value) = values.take table.exactRolls.toNat := by
  rw [scoreRoll, PowerRecord.map_value_scoreAll, h.toNat_exactRolls]

/-- The dice show the answered values in their order, if there are no more than asked for. -/
theorem InRange.map_value_rollOf (h : table.InRange) {lowLuck : Bool} {values : List Int}
    (hcount : values.length = table.diceCount lowLuck) (player : String) :
    (table.rollOf lowLuck player values).dice.map (·.value) = values := by
  by_cases hpower : 0 < table.totalPower
  · rw [h.rollOf_of_power hpower]
    cases lowLuck with
    | false =>
      have hle : values.length ≤ table.exactRolls.toNat := hcount ▸ h.diceCount_false_le
      rw [if_neg (by simp), h.map_value_scoreRoll]
      exact List.take_of_length_le hle
    | true =>
      have hle : values.length ≤ 1 := hcount ▸ table.diceCount_true_le
      rw [if_pos rfl, lowLuckRoll, List.take_of_length_le hle]
      simp [Function.comp_def, Die.scored]
  · have hnil : values = [] := by
      rw [← List.length_eq_zero_iff, hcount, h.diceCount_of_no_power hpower]
    rw [h.rollOf_of_no_power hpower, hnil]
    rfl

/-- Whatever the values are, the dice have the thresholds of the group, as far as there can be that
many dice. -/
theorem InRange.take_threshold_rollOf (h : table.InRange) {lowLuck : Bool} {values : List Int}
    (hcount : table.diceCount lowLuck ≤ values.length)
    (hnone : table.diceCount lowLuck = 0 → values = []) (player : String) :
    ((table.rollOf lowLuck player values).dice.map (·.threshold)).take Amount.most.toNat =
      table.thresholds lowLuck := by
  by_cases hpower : 0 < table.totalPower
  · rw [h.rollOf_of_power hpower, thresholds]
    cases lowLuck with
    | false =>
      have htotal := h.totalRolls_eq
      have hlength := h.length_strengths
      have hask : table.diceCount false = table.totalRolls.toNat := by
        rw [diceCount, if_neg (by simp), if_pos hpower]
      simp only [Bool.false_eq_true, if_false, scoreRoll, PowerRecord.map_threshold_scoreAll,
        List.take_take]
      -- The strengths end before the values or the range do, or the range is all that is asked for.
      rcases Int.le_total table.exactRolls Amount.most with hle | hle
      · rw [List.take_of_length_le (by omega), List.take_of_length_le (by omega)]
      · exact congrArg (List.take · _) (by omega)
    | true =>
      simp only [if_true, lowLuckRoll]
      cases values with
      | nil =>
        have hzero : table.diceCount true = 0 := by simpa using hcount
        rw [hzero]
        rfl
      | cons value values =>
        have hone : table.diceCount true = 1 := by
          have hle := table.diceCount_true_le
          have hne : table.diceCount true ≠ 0 := fun hzero => by simpa using hnone hzero
          omega
        rw [hone]
        rfl
  · rw [h.rollOf_of_no_power hpower, thresholds, h.diceCount_of_no_power hpower]
    rfl

/-- There are more dice than an amount can be only if there are more rolls and more values. -/
theorem InRange.length_dice_rollOf_le (h : table.InRange) {lowLuck : Bool} {values : List Int}
    (hfits : table.exactRolls ≤ Amount.most ∨ values.length ≤ Amount.most.toNat)
    (player : String) :
    (table.rollOf lowLuck player values).dice.length ≤ Amount.most.toNat := by
  by_cases hpower : 0 < table.totalPower
  · rw [h.rollOf_of_power hpower]
    cases lowLuck with
    | false =>
      rw [if_neg (by simp), ← List.length_map Die.value, h.map_value_scoreRoll, List.length_take]
      omega
    | true =>
      have hone : (values.take 1).length ≤ 1 := List.length_take_le 1 values
      rw [if_pos rfl, lowLuckRoll, List.length_map]
      exact Nat.le_trans hone (by decide)
  · rw [h.rollOf_of_no_power hpower]
    exact Nat.zero_le _

/-- More values than were asked for are left over, unless the rolls of the group exceed the range of
amounts. -/
theorem InRange.map_threshold_rollOf (h : table.InRange) {lowLuck : Bool} {values : List Int}
    (hcount : table.diceCount lowLuck ≤ values.length)
    (hnone : table.diceCount lowLuck = 0 → values = [])
    (hfits : table.exactRolls ≤ Amount.most ∨ values.length ≤ Amount.most.toNat)
    (player : String) :
    (table.rollOf lowLuck player values).dice.map (·.threshold) = table.thresholds lowLuck := by
  rw [← h.take_threshold_rollOf hcount hnone player, List.take_of_length_le]
  rw [List.length_map]
  exact h.length_dice_rollOf_le hfits player

theorem expectedHits_rollOf (table : PowerTable) (lowLuck : Bool) (player : String)
    (values : List Int) :
    (table.rollOf lowLuck player values).expectedHits =
      if table.canHit then table.expectedHits else 0 := by
  unfold rollOf
  cases table.canHit <;> cases lowLuck <;> rfl

end PowerTable

end Salvo
