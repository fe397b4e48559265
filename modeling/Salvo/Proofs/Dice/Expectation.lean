import Mathlib.Algebra.Field.Basic
import Mathlib.Algebra.Order.BigOperators.Group.List
import Mathlib.Data.Rat.Defs
import Mathlib.Tactic.FieldSimp
import Salvo.Proofs.Dice.Faces
import Salvo.Proofs.Dice.Hits
import Salvo.Proofs.Dice.Throwing

/-! # Expected hits

When all dice are rolled, the hits of a group are counted over all ways in which the dice may fall.
Each unit adds its own share (`PowerRecord.share`), whatever the others have, because no die counts
for two units. Where no unit keeps the best of its dice, the average is the power of the group
divided by the sides of a die (`PowerTable.sum_hits_rollAll`). -/

namespace Salvo

/-- The hits of a unit, counted over all ways in which `count` dice may fall. Each of its dice falls
below its strength in one of `sides / strength` cases; the best of its dice does so unless all of
them miss. -/
def PowerRecord.share (record : PowerRecord) (sides count : Nat) : Int :=
  let rolls := record.rolls.toNat
  if record.keepsBest ∧ 1 < record.rolls then
    sides ^ (count - rolls) * (sides ^ rolls - (sides - record.strength) ^ rolls)
  else rolls * record.strength * sides ^ (count - 1)

namespace PowerRecord

variable {record : PowerRecord} {records : List PowerRecord} {sides count : Nat}

/-- Dice of other units only multiply the ways in which the dice may fall. -/
theorem share_add (h : record.rolls.toNat ≤ count) (others : Nat) :
    record.share sides (others + count) = sides ^ others * record.share sides count := by
  unfold share
  dsimp only
  split
  · rw [Nat.add_sub_assoc h, pow_add, mul_assoc]
  · cases hrolls : record.rolls.toNat with
    | zero => simp
    | succ rolls =>
      rw [Nat.add_sub_assoc (by omega), pow_add]
      ring

/-- The hits of one unit. -/
theorem InRange.sumFaces_score (h : record.InRange sides) :
    sumFaces sides record.rolls.toNat (fun values => countHits (record.score values)) =
      record.share sides record.rolls.toNat := by
  have hl := h.strength_nonneg
  have hu : record.strength ≤ sides := by
    have := h.strength_le
    omega
  have hrolls := h.rolls_nonneg
  unfold share
  dsimp only
  split
  · rename_i hbest
    -- In each case either the unit hits or all its dice miss.
    have hboth : sumFaces sides record.rolls.toNat (fun values =>
        countHits (record.score values) +
          if ∀ value ∈ values, record.strength ≤ value then 1 else 0) =
        sides ^ record.rolls.toNat := by
      rw [← mul_one ((sides : Int) ^ record.rolls.toNat), ← sumFaces_const]
      refine sumFaces_congr fun values hlength => ?_
      rw [countHits_score, if_pos ⟨hbest.1, by omega⟩]
      split <;> rfl
    rw [sumFaces_add, sumFaces_none_below hl hu] at hboth
    rw [Nat.sub_self, pow_zero, one_mul]
    exact eq_sub_of_add_eq hboth
  · rename_i hordinary
    rw [← sumFaces_count_below hl hu]
    refine sumFaces_congr fun values hlength => ?_
    rw [countHits_score, if_neg]
    rintro ⟨hkeeps, hmany⟩
    exact hordinary ⟨hkeeps, by omega⟩

theorem scoreAll_cons_append {values : List Int} (h : values.length = record.rolls.toNat)
    (more : List Int) :
    scoreAll (record :: records) (values ++ more) =
      record.score values ++ scoreAll records more := by
  rw [scoreAll, List.take_left' h, List.drop_left' h]

/-- The hits of a list of units are the sum of their shares. -/
theorem sumFaces_scoreAll (h : ∀ record ∈ records, record.InRange sides)
    (hcount : (records.map (·.rolls.toNat)).sum = count) :
    sumFaces sides count (fun values => countHits (scoreAll records values)) =
      (records.map (·.share sides count)).sum := by
  induction records generalizing count with
  | nil =>
    subst hcount
    simp [scoreAll]
  | cons record records ih =>
    obtain ⟨hrecord, hrecords⟩ := List.forall_mem_cons.mp h
    rw [List.map_cons, List.sum_cons] at hcount
    obtain ⟨others, hothers⟩ : ∃ others, (records.map (·.rolls.toNat)).sum = others := ⟨_, rfl⟩
    rw [hothers] at hcount
    subst hcount
    have hown : sides ^ others * record.share sides record.rolls.toNat =
        record.share sides (record.rolls.toNat + others) := by
      rw [Nat.add_comm, share_add (Nat.le_refl _)]
    have hrest : sides ^ record.rolls.toNat * (records.map (·.share sides others)).sum =
        (records.map (·.share sides (record.rolls.toNat + others))).sum := by
      rw [← List.sum_map_mul_left]
      refine congrArg List.sum (List.map_congr_left fun other hother => ?_)
      refine (share_add ?_ _).symm
      rw [← hothers]
      exact List.single_le_sum (fun _ _ => Nat.zero_le _) _ (List.mem_map_of_mem hother)
    -- The dice of this unit come first; the others score what they leave.
    calc sumFaces sides (record.rolls.toNat + others)
          (fun values => countHits (scoreAll (record :: records) values))
        = sumFaces sides record.rolls.toNat fun values => sumFaces sides others fun more =>
            countHits (record.score values) + countHits (scoreAll records more) := by
          rw [sumFaces_append]
          refine sumFaces_congr fun values hlength => ?_
          simp only [scoreAll_cons_append hlength, countHits_append]
      _ = sides ^ others * record.share sides record.rolls.toNat +
            sides ^ record.rolls.toNat * (records.map (·.share sides others)).sum := by
          simp only [sumFaces_add, sumFaces_const, ih hrecords hothers, ← mul_sumFaces,
            hrecord.sumFaces_score]
      _ = ((record :: records).map (·.share sides (record.rolls.toNat + others))).sum := by
          rw [hown, hrest, List.map_cons, List.sum_cons]

/-- Without choice of the best dice and with the power in range a unit's share is its power. -/
theorem InRange.share_eq_power (h : record.InRange sides)
    (hordinary : ¬ (record.keepsBest ∧ 1 < record.rolls))
    (hmost : record.strength * record.rolls ≤ Amount.most) (count : Nat) :
    record.share sides count = record.power * sides ^ (count - 1) := by
  have hrolls : (record.rolls.toNat : Int) = record.rolls := Int.toNat_of_nonneg h.rolls_nonneg
  rw [share, if_neg hordinary, h.power_eq_mul hordinary hmost, hrolls,
    mul_comm record.rolls record.strength]

end PowerRecord

namespace PowerTable

variable {table : PowerTable} {sides count : Nat}

/-- Where no unit keeps the best of several dice and nothing saturates, the shares add up to the
power of the group. -/
theorem InRange.sum_shares (h : table.InRange) (hsides : table.diceSides = sides)
    (hordinary : ∀ record ∈ table.records, ¬ (record.keepsBest ∧ 1 < record.rolls))
    (hmul : ∀ record ∈ table.records, record.strength * record.rolls ≤ Amount.most)
    (hpower : (table.records.map (·.power)).sum ≤ Amount.most) (count : Nat) :
    (table.records.map (·.share sides count)).sum = table.totalPower * sides ^ (count - 1) := by
  rw [h.totalPower_eq, min_eq_right hpower, ← List.sum_map_mul_right]
  refine congrArg List.sum (List.map_congr_left fun record hrecord => ?_)
  have hshare : record.InRange sides := hsides ▸ h record hrecord
  exact hshare.share_eq_power (hordinary record hrecord) (hmul record hrecord) count

/-- The group rolls all its dice from a script that has them. -/
theorem InRange.rollAll_script (h : table.InRange) (hsides : 1 ≤ table.diceSides)
    {values : List Int} (hcount : table.exactRolls = values.length) (hone : 1 ≤ values.length)
    (hmost : (values.length : Int) ≤ Amount.most)
    (hfaces : ∀ value ∈ values, isFace table.diceSides value) (label : DiceLabel) :
    table.rollAll label ({ values } : Script) =
      (.ok (table.scoreRoll label.player values),
        { values := [], consumed := values.length }) := by
  have htotal : table.totalRolls = values.length := by
    rw [h.totalRolls_eq, hcount, min_eq_right hmost]
  have hdeal : DiceSource.request ⟨table.diceSides, values.length, label⟩ ({ values } : Script) =
      (.ok values, { values := [], consumed := values.length }) := by
    refine (Script.deal_of_faces hsides (Nat.le_refl _) ?_).trans ?_
    · rwa [List.take_length]
    · simp
  have hrequest := requestDice_eq_ok_iff.mpr ⟨hdeal, Nat.le_refl _⟩
  rw [rollAll, if_neg (by omega), if_neg (by omega), htotal, Int.toNat_natCast, hrequest]

/-- Over all ways in which the dice of a group may fall its hits are the sum of the shares of its
units. If no unit keeps the best of several dice and all powers are in range, the average is the
power of the group divided by the sides of a die, as the roll reports it. -/
theorem sum_hits_rollAll (units : List Combatant) (calculator : Calculator) (label : DiceLabel)
    (sides count : Nat) (hsides : calculator.diceSides = sides) (hpos : 1 ≤ sides)
    (hcount : ((build units calculator).records.map (·.rolls)).sum = count) (hone : 1 ≤ count)
    (hmost : (count : Int) ≤ Amount.most) :
    let table := build units calculator
    ∃ roll : (Fin count → Fin sides) → Roll,
      (∀ fallen, table.rollAll label ({ values := faces fallen } : Script) =
          (.ok (roll fallen), { values := [], consumed := count })) ∧
      (∀ fallen, (roll fallen).expectedHits =
        Float.ofInt table.totalPower / Float.ofInt sides) ∧
      ∑ fallen, (roll fallen).hits = (table.records.map (·.share sides count)).sum ∧
      ((∀ record ∈ table.records, ¬ (record.keepsBest ∧ 1 < record.rolls)) →
        (∀ record ∈ table.records, record.strength * record.rolls ≤ Amount.most) →
        (table.records.map (·.power)).sum ≤ Amount.most →
        (∑ fallen, ((roll fallen).hits : ℚ)) / sides ^ count = table.totalPower / sides) := by
  intro table
  have hrange : table.InRange := inRange_build units calculator
  have htable : table.diceSides = sides := hsides
  have hrolls : (table.records.map (·.rolls.toNat)).sum = count := by
    rw [← hrange.toNat_exactRolls, exactRolls, hcount, Int.toNat_natCast]
  have hsum : ∑ fallen : Fin count → Fin sides,
      (table.scoreRoll label.player (faces fallen)).hits =
        (table.records.map (·.share sides count)).sum :=
    PowerRecord.sumFaces_scoreAll (htable ▸ hrange) hrolls
  refine ⟨fun fallen => table.scoreRoll label.player (faces fallen), fun fallen => ?_,
    fun _ => ?_, hsum, fun hordinary hmul hpower => ?_⟩
  · have hlength := length_faces fallen
    refine (hrange.rollAll_script (by omega) ?_ (by omega) (by omega)
      (fun value hvalue => htable ▸ isFace_of_mem_faces hvalue) label).trans ?_
    · rw [hlength]
      exact hcount
    · rw [hlength]
  · rw [← htable]
    rfl
  · have hne : (sides : ℚ) ≠ 0 := by
      exact_mod_cast Nat.pos_iff_ne_zero.mp hpos
    rw [← Int.cast_sum, hsum, hrange.sum_shares htable hordinary hmul hpower]
    obtain ⟨before, rfl⟩ := Nat.exists_eq_add_of_le' hone
    rw [Nat.add_sub_cancel, pow_succ]
    push_cast
    field_simp

/-- A bomber with two dice of strength 4 beside infantry with one die of strength 2. While the
bomber keeps its better die they hit 264 times in 216 throws, and else 360 times. -/
theorem sum_hits_of_bomber :
    let unit (id : Nat) (name : String) : Combatant := ⟨id, { name }, { name := "Germans" }⟩
    let units := [unit 0 "bomber", unit 1 "infantry"]
    let calculator (keepsBest : Bool) : Calculator :=
      { diceSides := 6
        values := fun unit =>
          if unit.id = 0 then { base := 4, strength := 4, rolls := 2, keepsBest }
          else { base := 2, strength := 2, rolls := 1 } }
    let table (keepsBest : Bool) := build units (calculator keepsBest)
    let label : DiceLabel := ⟨"Germans", .combat, "Germans fire"⟩
    (∀ keepsBest, ((table keepsBest).records.map (·.rolls)).sum = (3 : Nat)) ∧
      (∃ roll : (Fin 3 → Fin 6) → Roll,
        (∀ fallen, (table true).rollAll label ({ values := faces fallen } : Script) =
          (.ok (roll fallen), { values := [], consumed := 3 })) ∧
        ∑ fallen, (roll fallen).hits = 264) ∧
      ∃ roll : (Fin 3 → Fin 6) → Roll,
        (∀ fallen, (table false).rollAll label ({ values := faces fallen } : Script) =
          (.ok (roll fallen), { values := [], consumed := 3 })) ∧
        (∑ fallen, ((roll fallen).hits : ℚ)) / 6 ^ 3 = 10 / 6 := by
  intro unit units calculator table label
  have hrolls : ∀ keepsBest, ((table keepsBest).records.map (·.rolls)).sum = (3 : Nat) := by decide
  refine ⟨hrolls, ?_, ?_⟩
  · obtain ⟨roll, hroll, -, hsum, -⟩ := sum_hits_rollAll units (calculator true) label 6 3 rfl
      (by decide) (hrolls true) (by decide) (by decide)
    exact ⟨roll, hroll, hsum.trans (by decide)⟩
  · obtain ⟨roll, hroll, -, -, hmean⟩ := sum_hits_rollAll units (calculator false) label 6 3 rfl
      (by decide) (hrolls false) (by decide) (by decide)
    have hpower : (build units (calculator false)).totalPower = 10 := by decide
    have hmean := hmean (by decide) (by decide) (by decide)
    rw [hpower] at hmean
    push_cast at hmean
    exact ⟨roll, hroll, hmean⟩

end PowerTable

end Salvo
