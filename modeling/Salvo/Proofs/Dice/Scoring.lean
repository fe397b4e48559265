import Mathlib.Data.List.Forall2
import Mathlib.Data.List.SplitLengths
import Salvo.Proofs.Dice.Hits
import Salvo.Proofs.Dice.Throwing

/-! # The score of every die

A standard roll uses the answer of its source from the front. Each unit takes as many values as it
has rolls, in the order of the records, and `PowerRecord.Scores` says how the block of one unit is
scored: by all of its dice, or by the first of the best. What the values are does not matter here,
so the score is exact for values that are no faces, too (`PowerTable.rollAll_of_answer`). -/

namespace Salvo

/-- The die counts: it is a hit below its threshold and else a miss. -/
def Die.Counts (die : Die) : Prop := die.outcome = if die.value < die.threshold then .hit else .miss

theorem countHits_eq_countP (dice : List Die) :
    countHits dice = (dice.countP (·.outcome = .hit) : Nat) := by
  rw [countHits, List.countP_eq_length_filter]
  rfl

theorem Die.counts_scored (value threshold : Int) : (scored value threshold).Counts := rfl

namespace PowerRecord

/-- How the dice of one unit are scored. -/
structure Scores (record : PowerRecord) (dice : List Die) : Prop where
  threshold_eq : ∀ die ∈ dice, die.threshold = record.strength
  all_count : ¬ (record.keepsBest ∧ 1 < dice.length) → ∀ die ∈ dice, die.Counts
  /-- One die is kept, the first of the least value. -/
  best_counts : record.keepsBest → 1 < dice.length → ∃ before best after,
    dice = before ++ best :: after ∧ best.Counts ∧ (∀ die ∈ before, best.value < die.value) ∧
      (∀ die ∈ after, best.value ≤ die.value) ∧ ∀ die ∈ before ++ after, die.outcome = .ignored
  /-- The kept die hits once if any die of the unit could hit. -/
  best_hits : record.keepsBest → 1 < dice.length →
    dice.countP (·.outcome = .hit) = if ∃ die ∈ dice, die.value < record.strength then 1 else 0

end PowerRecord

/-- The first place of the least value. -/
theorem exists_least_split {values : List Int} (h : values ≠ []) :
    ∃ before least after, values = before ++ least :: after ∧
      leastIndex values = before.length ∧ (∀ value ∈ before, least < value) ∧
      ∀ value ∈ after, least ≤ value := by
  obtain ⟨least, hleast⟩ := Option.ne_none_iff_exists'.mp fun hnone =>
    h (List.min?_eq_none_iff.mp hnone)
  obtain ⟨hmem, hle⟩ := List.min?_eq_some_iff.mp hleast
  obtain ⟨before, after, hsplit, hbefore⟩ := List.eq_append_cons_of_mem hmem
  refine ⟨before, least, after, hsplit, ?_, fun value hvalue => ?_, fun value hvalue => ?_⟩
  · rw [leastIndex, hleast, Option.getD_some, hsplit, List.idxOf_append_of_notMem hbefore,
      List.idxOf_cons_self, Nat.add_zero]
  · have hne : least ≠ value := fun heq => hbefore (heq ▸ hvalue)
    have hmin := hle value (hsplit ▸ List.mem_append_left _ hvalue)
    omega
  · exact hle value (hsplit ▸ List.mem_append_right _ (List.mem_cons_of_mem _ hvalue))

/-- One die is kept among those that are ignored. -/
theorem mapIdx_kept (before : List Int) (kept : Int) (after : List Int) (strength : Int) :
    (before ++ kept :: after).mapIdx (fun index value =>
        if index = before.length then Die.scored value strength
        else .ignored value strength) =
      before.map (Die.ignored · strength) ++
        .scored kept strength :: after.map (Die.ignored · strength) := by
  induction before with
  | nil =>
    have hafter : after.mapIdx (fun index value =>
        if index + 1 = 0 then Die.scored value strength else .ignored value strength) =
          after.map (Die.ignored · strength) := by
      refine List.ext_getElem (by simp) fun i _ _ => ?_
      rw [List.getElem_mapIdx, if_neg (Nat.succ_ne_zero i), List.getElem_map]
    rw [List.nil_append, List.mapIdx_cons, List.length_nil, hafter]
    rfl
  | cons value before ih =>
    rw [List.cons_append, List.mapIdx_cons]
    simp only [List.length_cons, Nat.add_right_cancel_iff, ih]
    rfl

namespace PowerRecord

theorem length_score (record : PowerRecord) (values : List Int) :
    (record.score values).length = values.length := by
  rw [← List.length_map Die.value, map_value_score]

/-- The dice of one unit are scored as they should be. -/
theorem scores_score (record : PowerRecord) (values : List Int) :
    record.Scores (record.score values) where
  threshold_eq die hdie := by
    have hthreshold : die.threshold ∈ List.replicate values.length record.strength := by
      rw [← map_threshold_score]
      exact List.mem_map_of_mem hdie
    exact List.eq_of_mem_replicate hthreshold
  all_count hall die hdie := by
    rw [length_score] at hall
    rw [score, if_neg hall] at hdie
    obtain ⟨value, -, rfl⟩ := List.mem_map.mp hdie
    exact Die.counts_scored value record.strength
  best_counts hbest hmany := by
    rw [length_score] at hmany
    have hne : values ≠ [] := List.ne_nil_of_length_pos (by omega)
    obtain ⟨before, least, after, hsplit, hindex, hbefore, hafter⟩ := exists_least_split hne
    refine ⟨before.map (Die.ignored · record.strength), .scored least record.strength,
      after.map (Die.ignored · record.strength), ?_, Die.counts_scored .., ?_, ?_, ?_⟩
    · rw [score, if_pos ⟨hbest, hmany⟩]
      dsimp only
      rw [hindex, hsplit, mapIdx_kept]
    · exact List.forall_mem_map.mpr hbefore
    · exact List.forall_mem_map.mpr hafter
    · rw [← List.map_append]
      exact List.forall_mem_map.mpr fun _ _ => rfl
  best_hits hbest hmany := by
    rw [length_score] at hmany
    have hhits := countHits_score record values
    rw [countHits_eq_countP, if_pos ⟨hbest, hmany⟩] at hhits
    have hvalues : (∃ die ∈ record.score values, die.value < record.strength) ↔
        ¬ ∀ value ∈ values, record.strength ≤ value := by
      conv_rhs => rw [← map_value_score record values]
      simp only [List.forall_mem_map, not_forall, Int.not_le, exists_prop]
    by_cases hhit : ∃ die ∈ record.score values, die.value < record.strength
    · rw [if_neg (hvalues.mp hhit)] at hhits
      rw [if_pos hhit]
      omega
    · rw [if_pos (not_not.mp (mt hvalues.mpr hhit))] at hhits
      rw [if_neg hhit]
      omega

/-- The blocks of dice that the records score, each of them its own. -/
theorem exists_blocks_scoreAll (records : List PowerRecord) (values : List Int) :
    ∃ blocks : List (List Die), scoreAll records values = blocks.flatten ∧
      List.Forall₂ Scores records blocks ∧
      blocks.map (·.map (·.value)) = (records.map (·.rolls.toNat)).splitLengths values := by
  induction records generalizing values with
  | nil => exact ⟨[], rfl, .nil, rfl⟩
  | cons record records ih =>
    obtain ⟨blocks, hdice, hscores, hvalues⟩ := ih (values.drop record.rolls.toNat)
    refine ⟨record.score (values.take record.rolls.toNat) :: blocks, ?_, ?_, ?_⟩
    · rw [scoreAll, hdice, List.flatten_cons]
    · exact .cons (scores_score record _) hscores
    · rw [List.map_cons, List.map_cons, List.splitLengths_cons, map_value_score, hvalues]

end PowerRecord

namespace PowerTable

variable {σ : Type} [DiceSource σ] {table : PowerTable} {label : DiceLabel} {source rest : σ}
  {values : List Int}

/-- What a group makes of an answer to its request. -/
theorem rollAll_of_request (hsides : 1 ≤ table.diceSides) (hrolls : 0 < table.totalRolls)
    (hanswer : DiceSource.request ⟨table.diceSides, table.totalRolls.toNat, label⟩ source =
      (.ok values, rest)) :
    table.rollAll label source =
      if values.length < table.totalRolls.toNat then
        (.error (.shortRoll table.totalRolls.toNat values.length), rest)
      else (.ok (table.scoreRoll label.player values), rest) := by
  rw [rollAll, if_neg (by omega), if_neg (by omega), requestDice_of_ok hanswer]
  by_cases hshort : values.length < table.totalRolls.toNat
  · rw [if_pos hshort, if_pos hshort]
  · rw [if_neg hshort, if_neg hshort]

end PowerTable

end Salvo
