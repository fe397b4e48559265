import Mathlib.Data.List.Induction
import Mathlib.Data.List.Nodup

/-! # The distinct elements of a list

`List.eraseDups` keeps each element of a list once, in the order of the places at which the elements
first stand (`pairwise_idxOf_eraseDups`). -/

namespace Salvo

variable {α : Type} [BEq α] [LawfulBEq α]

/-- The distinct elements of a part of a list are those of the list that are in the part. -/
theorem filter_eraseDups (p : α → Bool) (xs : List α) :
    xs.eraseDups.filter p = (xs.filter p).eraseDups := by
  match xs with
  | [] => rfl
  | x :: xs =>
    rw [List.eraseDups_cons, List.filter_cons, List.filter_cons,
      filter_eraseDups p (xs.filter fun y => !y == x), List.filter_filter]
    split
    · rw [List.eraseDups_cons, List.filter_filter]
      simp only [Bool.and_comm]
    · rename_i hx
      refine congrArg List.eraseDups (List.filter_congr fun y _ => ?_)
      cases hy : p y with
      | false => rfl
      | true =>
        have hne : y ≠ x := fun heq => hx (heq ▸ hy)
        simp [hne]
termination_by xs.length
decreasing_by exact Nat.lt_succ_of_le (List.length_filter_le _ _)

theorem eraseDups_append_singleton (xs : List α) (x : α) :
    (xs ++ [x]).eraseDups = if x ∈ xs then xs.eraseDups else xs.eraseDups ++ [x] := by
  rw [List.eraseDups_append]
  by_cases h : x ∈ xs
  · simp [List.removeAll, h]
  · simp [List.removeAll, h, List.eraseDups_cons]

/-- Distinct elements are kept in the order of their first places. -/
theorem pairwise_idxOf_eraseDups (xs : List α) :
    xs.eraseDups.Pairwise fun x later => xs.idxOf x < xs.idxOf later := by
  induction xs using List.reverseRecOn with
  | nil => exact .nil
  | append_singleton xs x ih =>
    have hplace : ∀ y ∈ xs.eraseDups, (xs ++ [x]).idxOf y = xs.idxOf y := fun y hy =>
      List.idxOf_append_of_mem (List.mem_eraseDups.mp hy)
    have hxs : xs.eraseDups.Pairwise fun y later =>
        (xs ++ [x]).idxOf y < (xs ++ [x]).idxOf later :=
      ih.imp_of_mem fun hy hlater h => by rwa [hplace _ hy, hplace _ hlater]
    rw [eraseDups_append_singleton]
    split
    · exact hxs
    · rename_i hx
      refine List.pairwise_append.mpr ⟨hxs, List.pairwise_singleton .., fun y hy later hlater => ?_⟩
      obtain rfl := List.mem_singleton.mp hlater
      rw [hplace y hy, List.idxOf_append_of_notMem hx]
      exact Nat.lt_add_right _ (List.idxOf_lt_length_of_mem (List.mem_eraseDups.mp hy))

theorem nodup_eraseDups (xs : List α) : xs.eraseDups.Nodup := by
  refine (pairwise_idxOf_eraseDups xs).imp ?_
  rintro x _ h rfl
  exact Nat.lt_irrefl _ h

end Salvo
