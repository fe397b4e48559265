import Salvo.Proofs.Dice.Hits
import Salvo.Proofs.Round.DiceIndependence

/-! # Lower dice

A die hits when it falls below a threshold, so lower dice never mean fewer hits: not for a unit that
keeps the best of its dice, although it may keep another one, and not for the remainder in low luck
(`PowerTable.hits_rollOf_le`). In a round both of two scripts give their dice at the same places to
the same units, so that each fire has at least as many hits with the lower one
(`Battle.hits_of_lower_dice`). The same is true of a side, as long as its hits do not add up to more
than an amount can be. -/

namespace Salvo

variable {low high : List Int}

/-! ## One group -/

theorem countP_lt_le (h : List.Forall₂ (· ≤ ·) low high) (threshold : Int) :
    high.countP (· < threshold) ≤ low.countP (· < threshold) := by
  induction h with
  | nil => exact Nat.le_refl _
  | @cons value other low high hle _ ih =>
    rw [List.countP_cons, List.countP_cons]
    by_cases hother : other < threshold
    · have hvalue : value < threshold := Int.lt_of_le_of_lt hle hother
      simpa [hother, hvalue] using ih
    · rw [if_neg (by simpa using hother)]
      exact Nat.le_trans ih (Nat.le_add_right _ _)

theorem forall_le_of_forall_le (h : List.Forall₂ (· ≤ ·) low high) {bound : Int}
    (hlow : ∀ value ∈ low, bound ≤ value) : ∀ value ∈ high, bound ≤ value := by
  induction h with
  | nil => exact List.forall_mem_nil _
  | cons hle _ ih =>
    obtain ⟨hvalue, hlow⟩ := List.forall_mem_cons.mp hlow
    exact List.forall_mem_cons.mpr ⟨Int.le_trans hvalue hle, ih hlow⟩

namespace PowerRecord

theorem countHits_score_le (record : PowerRecord) (h : List.Forall₂ (· ≤ ·) low high) :
    countHits (record.score high) ≤ countHits (record.score low) := by
  rw [countHits_score, countHits_score, ← h.length_eq]
  split
  -- The best die misses only when all dice do, whichever of them it is.
  · by_cases hlow : ∀ value ∈ low, record.strength ≤ value
    · have hhigh := forall_le_of_forall_le h hlow
      exact Int.le_of_eq ((if_pos hhigh).trans (if_pos hlow).symm)
    · rw [if_neg hlow]
      split <;> decide
  · exact Int.ofNat_le.mpr (countP_lt_le h record.strength)

/-- Units take their dice in turn, and lower dice stay lower for each of them. -/
theorem countHits_scoreAll_le (records : List PowerRecord) (h : List.Forall₂ (· ≤ ·) low high) :
    countHits (scoreAll records high) ≤ countHits (scoreAll records low) := by
  induction records generalizing low high with
  | nil => exact Int.le_refl _
  | cons record records ih =>
    rw [scoreAll, scoreAll, countHits_append, countHits_append]
    exact Int.add_le_add (record.countHits_score_le (List.forall₂_take _ h))
      (ih (List.forall₂_drop _ h))

end PowerRecord

theorem PowerTable.hits_rollOf_le (table : PowerTable) (lowLuck : Bool) (player : String)
    (h : List.Forall₂ (· ≤ ·) low high) :
    (table.rollOf lowLuck player high).hits ≤ (table.rollOf lowLuck player low).hits := by
  unfold rollOf
  split
  · exact Int.le_refl _
  · split
    · have hdie := countP_lt_le (List.forall₂_take 1 h) table.remainder
      simp only [lowLuckRoll, countHits_scored]
      omega
    · exact PowerRecord.countHits_scoreAll_le table.records h

/-! ## The volleys of a round -/

/-- Both fires are of one side, and the first has at least as many hits. -/
def Fire.HitsAtLeast (fire other : Fire) : Prop :=
  other.side = fire.side ∧ other.roll.hits ≤ fire.roll.hits

section

variable {battle : Battle} {rules : RuleSet} {script other rest otherRest : Script}

/-- What is left of two scripts after a volley is as far apart as they were. -/
theorem Volley.Lawful.hits_le {volley : Volley} (hlawful : volley.Lawful rules)
    (hle : List.Forall₂ (· ≤ ·) script.values other.values) {roll otherRoll : Roll}
    (h : volley.throwDice battle script = (.ok roll, rest))
    (hother : volley.throwDice battle other = (.ok otherRoll, otherRest)) :
    otherRoll.hits ≤ roll.hits ∧ List.Forall₂ (· ≤ ·) rest.values otherRest.values := by
  obtain ⟨table, dealt, htable, hdeals, rfl⟩ := hlawful.throwDice_eq_ok_iff.mp h
  obtain ⟨otherTable, otherDealt, hotherTable, hotherDeals, rfl⟩ :=
    hlawful.throwDice_eq_ok_iff.mp hother
  obtain rfl : otherTable = table := Except.ok.inj (hotherTable.symm.trans htable)
  obtain ⟨-, rfl, rfl⟩ := hdeals.script
  obtain ⟨-, rfl, rfl⟩ := hotherDeals.script
  constructor
  · exact PowerTable.hits_rollOf_le _ _ _ (List.forall₂_take _ hle)
  · exact List.forall₂_drop _ hle

/-- The fires that the same volleys give with both scripts, side by side. -/
theorem Fired.hits_le {volleys : List Volley} {rolls otherRolls : List Roll}
    (h : Fired battle volleys script rolls rest)
    (hother : Fired battle volleys other otherRolls otherRest)
    (hlawful : ∀ volley ∈ volleys, volley.Lawful rules)
    (hle : List.Forall₂ (· ≤ ·) script.values other.values) :
    List.Forall₂ Fire.HitsAtLeast (battle.report rules (volleys.zip rolls)).fires
      (battle.report rules (volleys.zip otherRolls)).fires := by
  induction h generalizing other otherRolls with
  | nil =>
    cases hother
    exact .nil
  | cons hthrow _ ih =>
    cases hother with
    | cons hotherThrow hotherFired =>
      obtain ⟨hvolley, hvolleys⟩ := List.forall_mem_cons.mp hlawful
      obtain ⟨hhits, hrest⟩ := hvolley.hits_le hle hthrow hotherThrow
      exact .cons ⟨rfl, hhits⟩ (ih hotherFired hvolleys hrest)

end

/-! ## Two rounds -/

theorem PowerTable.InRange.hits_rollOf_nonneg {table : PowerTable} (h : table.InRange)
    (lowLuck : Bool) (player : String) (values : List Int) :
    0 ≤ (table.rollOf lowLuck player values).hits := by
  by_cases hpower : 0 < table.totalPower
  · rw [h.rollOf_of_power hpower]
    split
    · have hsure : 0 ≤ table.sureHits :=
        Int.ediv_nonneg (Int.le_of_lt hpower) (Int.le_of_lt (h.diceSides_pos hpower))
      exact Int.add_nonneg hsure (Int.natCast_nonneg _)
    · exact Int.natCast_nonneg _
  · rw [h.rollOf_of_no_power hpower]
    exact Int.le_refl 0

theorem Battle.hits_nonneg_of_ok {σ : Type} [DiceSource σ] {battle : Battle} {rules : RuleSet}
    {supportRules : List SupportRule} {source : σ} {history : History} {report : RoundReport}
    (h : (battle.resolveRound rules supportRules source history).outcome = .ok report) :
    ∀ fire ∈ report.fires, 0 ≤ fire.roll.hits := by
  intro fire hfire
  obtain ⟨volley, hvolley, table, values, htable, rfl⟩ := exists_rollOf_of_ok h hfire
  exact ((lawful_of_mem_volleys hvolley).inRange htable).hits_rollOf_nonneg ..

namespace RoundReport

variable {report other : RoundReport}

/-- The hits of a side, also where they exceed the range of amounts. -/
def exactHitsBy (report : RoundReport) (side : Side) : Int :=
  ((report.firesBy side).map (·.roll.hits)).sum

theorem exactHitsBy_nonneg (h : ∀ fire ∈ report.fires, 0 ≤ fire.roll.hits) (side : Side) :
    0 ≤ report.exactHitsBy side := by
  refine Amount.sum_nonneg fun hits hhits => ?_
  obtain ⟨fire, hfire, rfl⟩ := List.mem_map.mp hhits
  exact h fire (List.mem_filter.mp hfire).1

theorem hitsBy_eq_exactHitsBy {side : Side} (h : 0 ≤ report.exactHitsBy side)
    (hmost : report.exactHitsBy side ≤ Amount.most) :
    report.hitsBy side = report.exactHitsBy side :=
  (Amount.sum_eq_wrap _).trans (Amount.wrap_of_nonneg h hmost)

theorem exactHitsBy_le (h : List.Forall₂ Fire.HitsAtLeast report.fires other.fires)
    (side : Side) : other.exactHitsBy side ≤ report.exactHitsBy side := by
  unfold exactHitsBy firesBy
  generalize report.fires = fires at h
  generalize other.fires = otherFires at h
  induction h with
  | nil => exact Int.le_refl _
  | cons hfire _ ih =>
    obtain ⟨hside, hhits⟩ := hfire
    rw [List.filter_cons, List.filter_cons, hside]
    split
    · exact Int.add_le_add hhits ih
    · exact ih

end RoundReport

end Salvo
