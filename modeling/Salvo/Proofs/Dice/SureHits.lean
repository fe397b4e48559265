import Salvo.Proofs.Dice.Hits
import Salvo.Proofs.Dice.Throwing

/-! # Sure hits and possible hits

A unit as strong as its dice have sides hits with each of its dice, and a unit without strength with
none. So the hits of a group are no fewer than those that its units of the first kind have for sure,
and no more than those that its units with any strength can have (`PowerTable.hits_between`).

Where all dice are rolled this is seen unit by unit (`PowerRecord.weightOf_le_countHits_scoreAll`).
In low luck the powers of the units are pooled, and it is their sum that lies between the two
(`PowerTable.InRange.weightOf_le_totalPower`); the one division that rounds it is then as good as
exact, since both bounds are whole numbers of hits. -/

namespace Salvo

/-- What the source answers to requests for dice of so many sides are faces of such dice. -/
def DiceSource.GivesFaces {σ : Type} [DiceSource σ] (sides : Int) (source : σ) : Prop :=
  ∀ asked values rest, asked.sides = sides → request asked source = (.ok values, rest) →
    ∀ value ∈ values, isFace sides value

theorem Deals.faces {σ : Type} [DiceSource σ] {asked : DiceRequest} {source rest : σ}
    {values : List Int} (h : Deals asked source values rest)
    (hsource : DiceSource.GivesFaces asked.sides source) :
    ∀ value ∈ values, isFace asked.sides value := by
  unfold Deals at h
  split at h
  · rw [h.1]
    exact List.forall_mem_nil _
  · exact hsource asked values rest rfl (requestDice_eq_ok_iff.mp h).1

theorem Script.givesFaces (sides : Int) (script : Script) : DiceSource.GivesFaces sides script := by
  rintro asked values rest rfl h
  exact (faces_of_deal_eq_ok h).2

namespace PowerRecord

/-- The hits that the dice of a unit can give: one each, or one in all where only the best die
counts. -/
def weight (record : PowerRecord) : Int :=
  if record.keepsBest ∧ 1 < record.rolls then 1 else record.rolls

/-- The weight of the units with a property. -/
def weightOf (p : PowerRecord → Bool) (records : List PowerRecord) : Int :=
  ((records.filter p).map (·.weight)).sum

/-- The power of a unit, also where it exceeds the range of amounts. -/
def exactPower (sides : Int) (record : PowerRecord) : Int :=
  if record.strength ≤ 0 ∨ record.rolls ≤ 0 then 0
  else if record.keepsBest ∧ 1 < record.rolls then
    min (record.strength + extraRollBonus sides * (record.rolls - 1)) sides
  else record.strength * record.rolls

variable {record : PowerRecord} {records : List PowerRecord} {sides : Int} {values : List Int}

theorem weightOf_cons (p : PowerRecord → Bool) (record : PowerRecord) (records : List PowerRecord) :
    weightOf p (record :: records) =
      (if p record then record.weight else 0) + weightOf p records :=
  Amount.sum_filter_cons ..

/-! ## All dice -/

theorem InRange.countHits_score_le (h : record.InRange sides)
    (hlength : values.length = record.rolls.toNat) :
    countHits (record.score values) ≤ record.weight := by
  have hrolls := h.rolls_nonneg
  have hcount : values.countP (· < record.strength) ≤ values.length := List.countP_le_length
  rw [countHits_score, weight]
  by_cases hbest : record.keepsBest ∧ 1 < record.rolls
  · rw [if_pos ⟨hbest.1, by omega⟩, if_pos hbest]
    split <;> decide
  · rw [if_neg fun hmany => hbest ⟨hmany.1, by omega⟩, if_neg hbest]
    omega

/-- All dice fall below the strength. -/
theorem InRange.countHits_score_of_sure (h : record.InRange sides)
    (hlength : values.length = record.rolls.toNat)
    (hbelow : ∀ value ∈ values, value < record.strength) :
    countHits (record.score values) = record.weight := by
  have hrolls := h.rolls_nonneg
  rw [countHits_score, weight]
  by_cases hbest : record.keepsBest ∧ 1 < record.rolls
  · obtain ⟨value, hvalue⟩ : ∃ value, value ∈ values :=
      List.exists_mem_of_length_pos (by omega)
    have hhit : ¬ ∀ value ∈ values, record.strength ≤ value := fun hall =>
      Int.not_lt.mpr (hall value hvalue) (hbelow value hvalue)
    rw [if_pos ⟨hbest.1, by omega⟩, if_pos hbest, if_neg hhit]
  · have hcount : values.countP (· < record.strength) = values.length :=
      List.countP_eq_length.mpr fun value hvalue => decide_eq_true (hbelow value hvalue)
    rw [if_neg fun hmany => hbest ⟨hmany.1, by omega⟩, if_neg hbest, hcount]
    omega

/-- No die falls below the strength. -/
theorem countHits_score_of_miss (hmiss : ∀ value ∈ values, record.strength ≤ value) :
    countHits (record.score values) = 0 := by
  have hcount : values.countP (· < record.strength) = 0 :=
    List.countP_eq_zero.mpr fun value hvalue => by simpa using hmiss value hvalue
  rw [countHits_score, if_pos hmiss, hcount]
  split <;> rfl

theorem weightOf_le_countHits_scoreAll (h : ∀ record ∈ records, record.InRange sides)
    (hcount : (records.map (·.rolls.toNat)).sum ≤ values.length)
    (hfaces : ∀ value ∈ values, isFace sides value) :
    weightOf (·.strength = sides) records ≤ countHits (scoreAll records values) ∧
      countHits (scoreAll records values) ≤ weightOf (0 < ·.strength) records := by
  induction records generalizing values with
  | nil => exact ⟨Int.le_refl 0, Int.le_refl 0⟩
  | cons record records ih =>
    obtain ⟨hrecord, hrecords⟩ := List.forall_mem_cons.mp h
    rw [List.map_cons, List.sum_cons] at hcount
    have hlength : (values.take record.rolls.toNat).length = record.rolls.toNat :=
      List.length_take_of_le (by omega)
    have hown : ∀ value ∈ values.take record.rolls.toNat, 0 ≤ value ∧ value < sides := by
      intro value hvalue
      simpa [isFace] using hfaces value (List.mem_of_mem_take hvalue)
    have hleft : (records.map (·.rolls.toNat)).sum ≤ (values.drop record.rolls.toNat).length := by
      rw [List.length_drop]
      omega
    obtain ⟨hlow, hhigh⟩ := ih hrecords hleft fun value hvalue =>
      hfaces value (List.mem_of_mem_drop hvalue)
    rw [scoreAll, countHits_append, weightOf_cons, weightOf_cons]
    simp only [decide_eq_true_eq]
    constructor
    · refine Int.add_le_add ?_ hlow
      split
      · rename_i hsure
        have hbelow : ∀ value ∈ values.take record.rolls.toNat, value < record.strength :=
          fun value hvalue => hsure ▸ (hown value hvalue).2
        exact Int.le_of_eq (hrecord.countHits_score_of_sure hlength hbelow).symm
      · exact Int.natCast_nonneg _
    · refine Int.add_le_add ?_ hhigh
      split
      · exact hrecord.countHits_score_le hlength
      · rename_i hnone
        refine Int.le_of_eq (countHits_score_of_miss fun value hvalue => ?_)
        exact Int.le_trans (Int.not_lt.mp hnone) (hown value hvalue).1

/-! ## Pooled power -/

theorem InRange.exactPower_nonneg (h : record.InRange sides) : 0 ≤ record.exactPower sides := by
  have hstrength := h.strength_le
  unfold exactPower
  split
  · exact Int.le_refl 0
  · split
    · have hbonus := extraRollBonus_mul_nonneg sides (by omega : 1 ≤ record.rolls)
      omega
    · exact Int.mul_nonneg h.strength_nonneg h.rolls_nonneg

/-- A power in range is exact, also when its summands are not. -/
theorem InRange.power_eq_exactPower (h : record.InRange sides)
    (hmost : record.exactPower sides ≤ Amount.most) : record.power = record.exactPower sides := by
  have hnonneg := h.exactPower_nonneg
  rw [h.power_eq]
  unfold unitPower
  unfold exactPower at hmost hnonneg ⊢
  split
  · rfl
  · rename_i hpos
    rw [if_neg hpos] at hmost hnonneg
    split
    · rename_i hbest
      have hbonus := extraRollBonus_mul_nonneg sides (by omega : 1 ≤ record.rolls)
      rw [if_pos hbest] at hmost hnonneg
      rw [bestRollStrength, if_neg (by omega)]
      simp only [Amount.saturate, Amount.least, Amount.most] at hmost ⊢
      omega
    · rename_i hordinary
      rw [if_neg hordinary] at hmost hnonneg
      refine Amount.saturate_of_le (Int.le_trans ?_ hnonneg) hmost
      decide

theorem InRange.exactPower_le (h : record.InRange sides) (hsides : 1 ≤ sides) :
    record.exactPower sides ≤ sides * record.weight := by
  have hrolls := h.rolls_nonneg
  have hstrength : record.strength ≤ sides := by
    have := h.strength_le
    omega
  unfold exactPower weight
  by_cases hbest : record.keepsBest ∧ 1 < record.rolls
  · rw [if_pos hbest, if_pos hbest, Int.mul_one]
    split <;> omega
  · rw [if_neg hbest, if_neg hbest]
    split
    · exact Int.mul_nonneg (by omega) hrolls
    · exact Int.mul_le_mul_of_nonneg_right hstrength hrolls

theorem exactPower_of_no_strength (h : ¬ 0 < record.strength) : record.exactPower sides = 0 :=
  if_pos (.inl (Int.not_lt.mp h))

theorem InRange.exactPower_of_sure (h : record.InRange sides) (hsides : 1 ≤ sides)
    (hsure : record.strength = sides) : record.exactPower sides = sides * record.weight := by
  have hrolls := h.rolls_nonneg
  unfold exactPower weight
  by_cases hnone : record.rolls = 0
  · rw [if_pos (.inr (by omega)), if_neg (by omega), hnone, Int.mul_zero]
  · rw [if_neg (by omega), hsure]
    split
    · have hbonus := extraRollBonus_mul_nonneg sides (by omega : 1 ≤ record.rolls)
      omega
    · rfl

/-- A group is worth no more than a hit for each die that counts and can score, and no less than one
for each that is sure to. -/
theorem weightOf_le_sum_exactPower (h : ∀ record ∈ records, record.InRange sides)
    (hsides : 1 ≤ sides) :
    sides * weightOf (·.strength = sides) records ≤ (records.map (·.exactPower sides)).sum ∧
      (records.map (·.exactPower sides)).sum ≤ sides * weightOf (0 < ·.strength) records := by
  induction records with
  | nil => exact ⟨Int.le_of_eq (Int.mul_zero sides), Int.le_of_eq (Int.mul_zero sides).symm⟩
  | cons record records ih =>
    obtain ⟨hrecord, hrecords⟩ := List.forall_mem_cons.mp h
    obtain ⟨hlow, hhigh⟩ := ih hrecords
    rw [List.map_cons, List.sum_cons, weightOf_cons, weightOf_cons, Int.mul_add, Int.mul_add]
    simp only [decide_eq_true_eq]
    constructor
    · refine Int.add_le_add ?_ hlow
      split
      · rename_i hsure
        exact Int.le_of_eq (hrecord.exactPower_of_sure hsides hsure).symm
      · rw [Int.mul_zero]
        exact hrecord.exactPower_nonneg
    · refine Int.add_le_add ?_ hhigh
      split
      · exact hrecord.exactPower_le hsides
      · rename_i hnone
        exact Int.le_of_eq ((exactPower_of_no_strength hnone).trans (Int.mul_zero sides).symm)

end PowerRecord

namespace PowerTable

variable {table : PowerTable}

/-- The power of a group that is in range is the exact sum of the exact powers. -/
theorem InRange.totalPower_eq_exact (h : table.InRange)
    (hmost : (table.records.map (·.exactPower table.diceSides)).sum ≤ Amount.most) :
    table.totalPower = (table.records.map (·.exactPower table.diceSides)).sum :=
  h.totalPower_eq_sum (fun record hrecord => (h record hrecord).exactPower_nonneg)
    (fun record hrecord => (h record hrecord).power_eq_exactPower) hmost

/-- The one die of low luck is rolled for a remainder only, and takes the hits at most to the next
whole number. -/
theorem hits_lowLuckRoll_bounds (hsides : 1 ≤ table.diceSides) {values : List Int}
    (hnone : table.diceSides ∣ table.totalPower → values = []) (player : String) :
    table.totalPower / table.diceSides ≤ (table.lowLuckRoll player values).hits ∧
      table.diceSides * (table.lowLuckRoll player values).hits <
        table.totalPower + table.diceSides := by
  have hsplit := Int.mul_ediv_add_emod table.totalPower table.diceSides
  have hnonneg := Int.emod_nonneg table.totalPower (by omega : table.diceSides ≠ 0)
  simp only [lowLuckRoll, sureHits, countHits_scored]
  by_cases hdvd : table.diceSides ∣ table.totalPower
  · rw [hnone hdvd, List.take_nil, List.countP_nil, Int.natCast_zero, Int.add_zero]
    omega
  · have hrem : table.totalPower % table.diceSides ≠ 0 := fun hzero =>
      hdvd (Int.dvd_of_emod_eq_zero hzero)
    have hone : (values.take 1).countP (· < table.remainder) ≤ 1 :=
      Nat.le_trans List.countP_le_length (List.length_take_le 1 values)
    rcases Nat.le_one_iff_eq_zero_or_eq_one.mp hone with hmiss | hhit
    · rw [hmiss, Int.natCast_zero, Int.add_zero]
      omega
    · rw [hhit, Int.natCast_one, Int.mul_add, Int.mul_one]
      omega

/-- The two bounds on the hits, whatever dice the group is dealt. -/
theorem InRange.hits_rollOf_bounds (h : table.InRange) (hsides : 1 ≤ table.diceSides)
    (hpower : (table.records.map (·.exactPower table.diceSides)).sum ≤ Amount.most)
    (hrolls : table.exactRolls ≤ Amount.most) {lowLuck : Bool} {values : List Int}
    (hcount : table.diceCount lowLuck ≤ values.length)
    (hnone : table.diceCount lowLuck = 0 → values = [])
    (hfaces : ∀ value ∈ values, isFace table.diceSides value) (player : String) :
    PowerRecord.weightOf (·.strength = table.diceSides) table.records ≤
        (table.rollOf lowLuck player values).hits ∧
      (table.rollOf lowLuck player values).hits ≤
        PowerRecord.weightOf (0 < ·.strength) table.records := by
  obtain ⟨hlow, hhigh⟩ := PowerRecord.weightOf_le_sum_exactPower h hsides
  rw [← h.totalPower_eq_exact hpower] at hlow hhigh
  have hnonneg := h.totalPower_nonneg
  by_cases hpositive : 0 < table.totalPower
  · rw [h.rollOf_of_power hpositive]
    cases lowLuck with
    | false =>
      have hask : table.diceCount false = (table.records.map (·.rolls.toNat)).sum := by
        rw [diceCount, if_neg (by simp), if_pos hpositive, h.totalRolls_eq,
          Int.min_eq_right hrolls, h.toNat_exactRolls]
      exact PowerRecord.weightOf_le_countHits_scoreAll h (hask ▸ hcount) hfaces
    | true =>
      obtain ⟨hfloor, hnext⟩ := hits_lowLuckRoll_bounds hsides
        (fun hdvd => hnone (if_pos hdvd)) player
      constructor
      · exact Int.le_trans (Int.le_ediv_of_mul_le (by omega) (Int.mul_comm .. ▸ hlow)) hfloor
      · refine Int.le_of_lt_add_one (Int.lt_of_mul_lt_mul_left (a := table.diceSides) ?_ (by omega))
        rw [Int.mul_add, Int.mul_one]
        exact Int.lt_of_lt_of_le hnext (Int.add_le_add_right hhigh _)
  · have hzero : table.totalPower = table.diceSides * 0 := by omega
    rw [h.rollOf_of_no_power hpositive]
    rw [hzero] at hlow hhigh
    exact ⟨Int.le_of_mul_le_mul_left hlow (by omega), Int.le_of_mul_le_mul_left hhigh (by omega)⟩

/-- A group either fails with its source, or it has no fewer hits than its sure units have dice that
count, and no more than its units with any strength have. This holds when all dice are rolled and in
low luck alike, as long as the exact power and rolls of the group are in range. -/
theorem hits_between (units : List Combatant) (calculator : Calculator)
    (hsides : 1 ≤ calculator.diceSides)
    (hpower : ((build units calculator).records.map (·.exactPower calculator.diceSides)).sum ≤
      Amount.most)
    (hrolls : ((build units calculator).records.map (·.rolls)).sum ≤ Amount.most)
    (lowLuck : Bool) (label : DiceLabel) {σ : Type} [DiceSource σ] (source : σ)
    (hsource : DiceSource.GivesFaces calculator.diceSides source) :
    let table := build units calculator
    (∃ error rest,
      requestDice ⟨table.diceSides, table.diceCount lowLuck, label⟩ source = (.error error, rest) ∧
        table.throwDice lowLuck label source = (.error error, rest)) ∨
      ∃ roll rest, table.throwDice lowLuck label source = (.ok roll, rest) ∧
        PowerRecord.weightOf (·.strength = table.diceSides) table.records ≤ roll.hits ∧
        roll.hits ≤ PowerRecord.weightOf (0 < ·.strength) table.records := by
  intro table
  have hrange : table.InRange := inRange_build units calculator
  have hbounds {values : List Int} (hcount : table.diceCount lowLuck ≤ values.length)
      (hnone : table.diceCount lowLuck = 0 → values = [])
      (hfaces : ∀ value ∈ values, isFace table.diceSides value) :=
    hrange.hits_rollOf_bounds hsides hpower hrolls hcount hnone hfaces label.player
  cases hthrow : table.throwDice lowLuck label source with
  | mk outcome rest =>
    cases outcome with
    | error error =>
      refine .inl ⟨error, rest, ?_, rfl⟩
      rw [hrange.throwDice_eq] at hthrow
      split at hthrow
      · cases hthrow
      · split at hthrow
        · rename_i hrequest
          cases hthrow
          exact hrequest
        · cases hthrow
    | ok roll =>
      obtain ⟨values, hdeals, rfl⟩ := hrange.throwDice_eq_ok_iff.mp hthrow
      exact .inr ⟨_, rest, rfl, hbounds hdeals.count_le hdeals.eq_nil (hdeals.faces hsource)⟩

/-- A battleship that cannot miss, a bomber that keeps the better of two dice, and infantry that
cannot hit: one or two hits in both modes, of the four dice or the one die that the script has. -/
theorem hits_between_of_bombardment :
    let unit (id : Nat) (name : String) : Combatant := ⟨id, { name }, { name := "Germans" }⟩
    let units := [unit 0 "battleship", unit 1 "bomber", unit 2 "infantry"]
    let calculator : Calculator :=
      { diceSides := 6
        values := fun unit =>
          if unit.id = 0 then { base := 6, strength := 7, rolls := 1 }
          else if unit.id = 1 then { base := 4, strength := 4, rolls := 2, keepsBest := true }
          else { base := 1, strength := -1, rolls := 1 } }
    let table := build units calculator
    let script : Script := { values := [5, 4, 5, 0] }
    let label : DiceLabel := ⟨"Germans", .combat, "Germans fire"⟩
    ∀ lowLuck, ∃ roll rest, table.throwDice lowLuck label script = (.ok roll, rest) ∧
      1 ≤ roll.hits ∧ roll.hits ≤ 2 := by
  intro unit units calculator table script label lowLuck
  have hasked : (requestDice ⟨table.diceSides, table.diceCount lowLuck, label⟩ script).1.isOk := by
    revert lowLuck
    decide
  have hsure : PowerRecord.weightOf (·.strength = table.diceSides) table.records = 1 := by decide
  have hscore : PowerRecord.weightOf (0 < ·.strength) table.records = 2 := by decide
  rcases hits_between units calculator (by decide) (by decide) (by decide) lowLuck label script
    (script.givesFaces _) with ⟨error, rest, hrequest, -⟩ | ⟨roll, rest, hthrow, hlow, hhigh⟩
  · rw [hrequest] at hasked
    cases hasked
  · exact ⟨roll, rest, hthrow, hsure ▸ hlow, hscore ▸ hhigh⟩

end PowerTable

end Salvo
