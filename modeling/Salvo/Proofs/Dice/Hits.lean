import Salvo.Dice.Throw

/-! # The hits of scored dice

Each die of an ordinary unit hits for itself. A unit that keeps the best of several dice hits once,
if any of them falls below its strength (`PowerRecord.countHits_score`). -/

namespace Salvo

@[simp] theorem countHits_nil : countHits [] = 0 := rfl

theorem countHits_cons (die : Die) (dice : List Die) :
    countHits (die :: dice) = (if die.isHit then 1 else 0) + countHits dice := by
  unfold countHits
  rw [List.filter_cons]
  split
  · rw [List.length_cons, Int.natCast_succ, Int.add_comm]
  · rw [Int.zero_add]

theorem countHits_append (dice more : List Die) :
    countHits (dice ++ more) = countHits dice + countHits more := by
  simp only [countHits, List.filter_append, List.length_append, Int.natCast_add]

theorem countHits_scored (values : List Int) (strength : Int) :
    countHits (values.map (Die.scored · strength)) = (values.countP (· < strength) : Nat) := by
  rw [countHits, List.filter_map, List.length_map, List.countP_eq_length_filter]
  simp [Function.comp_def]

/-- Where one die is kept and the others are ignored, the kept one may hit. -/
theorem countHits_kept (values : List Int) (strength : Int) (kept : Nat) :
    countHits (values.mapIdx fun index value =>
        if index = kept then .scored value strength else .ignored value strength) =
      if values[kept]?.any (· < strength) then 1 else 0 := by
  -- What is left behind the kept die.
  have hignored : ∀ values : List Int,
      countHits (values.mapIdx fun _ value => .ignored value strength) = 0 := by
    intro values
    induction values with
    | nil => rfl
    | cons value values ih =>
      rw [List.mapIdx_cons, countHits_cons, ih]
      rfl
  induction values generalizing kept with
  | nil => rfl
  | cons value values ih =>
    rw [List.mapIdx_cons, countHits_cons]
    cases kept with
    | zero =>
      simp only [Nat.add_one_ne_zero, if_false, hignored]
      simp
    | succ kept =>
      simp only [Nat.add_right_cancel_iff, ih kept, List.getElem?_cons_succ]
      simp

theorem getElem?_leastIndex {values : List Int} (h : values ≠ []) :
    ∃ least, values[leastIndex values]? = some least ∧ ∀ value ∈ values, least ≤ value := by
  obtain ⟨least, hleast⟩ := Option.ne_none_iff_exists'.mp fun hnone =>
    h (List.min?_eq_none_iff.mp hnone)
  obtain ⟨hmem, hle⟩ := List.min?_eq_some_iff.mp hleast
  refine ⟨least, ?_, hle⟩
  rw [leastIndex, hleast, Option.getD_some,
    List.getElem?_eq_getElem (List.idxOf_lt_length_of_mem hmem), List.getElem_idxOf]

/-- The hits of a unit, by how many of its dice fall below its strength. -/
theorem PowerRecord.countHits_score (record : PowerRecord) (values : List Int) :
    countHits (record.score values) =
      if record.keepsBest ∧ 1 < values.length then
        if ∀ value ∈ values, record.strength ≤ value then 0 else 1
      else ((values.countP (· < record.strength) : Nat) : Int) := by
  by_cases hbest : record.keepsBest ∧ 1 < values.length
  · rw [score, if_pos hbest, if_pos hbest]
    have hne : values ≠ [] := List.ne_nil_of_length_pos (by omega)
    obtain ⟨least, hleast, hle⟩ := getElem?_leastIndex hne
    have hmem := List.mem_of_getElem? hleast
    have hall : (∀ value ∈ values, record.strength ≤ value) ↔ ¬ least < record.strength := by
      constructor
      · intro hall
        exact Int.not_lt.mpr (hall least hmem)
      · intro hnot value hvalue
        exact Int.le_trans (Int.not_lt.mp hnot) (hle value hvalue)
    dsimp only
    rw [countHits_kept, hleast]
    simp only [Option.any_some, decide_eq_true_eq, hall, ite_not]
  · rw [score, if_neg hbest, if_neg hbest]
    exact countHits_scored values record.strength

end Salvo
