import Mathlib.Algebra.BigOperators.Group.Finset.Basic
import Mathlib.Algebra.Group.Int.Defs
import Mathlib.Algebra.Group.Nat.Defs
import Mathlib.Order.Bounds.Defs
import Salvo.Proofs.DistinctElements
import Salvo.Simulation

/-! # Counting hits

`histogram` lists the numbers that occur, each of them once and in increasing order, with how often
they do. So it decides every sum over the numbers (`sum_histogram`), and its first and last entries
are those of the least and the greatest number. The same entries are gathered when the numbers are
counted one after the other (`histogram_eq_foldl`).

`SideSummary.Tallies` says what the summary of a side tells of the hits of its rounds. -/

namespace Salvo

/-! ## The entries of a histogram -/

section

variable {numbers : List Int}

theorem fst_histogram (numbers : List Int) :
    (histogram numbers).map (·.1) = sortOn id numbers.eraseDups := by
  rw [histogram, List.map_map]
  exact List.map_id _

theorem mem_fst_histogram {number : Int} :
    number ∈ (histogram numbers).map (·.1) ↔ number ∈ numbers := by
  rw [fst_histogram, mem_sortOn, List.mem_eraseDups]

theorem pairwise_fst_histogram (numbers : List Int) :
    ((histogram numbers).map (·.1)).Pairwise (· < ·) := by
  rw [fst_histogram]
  refine (pairwise_sortOn_of_pairwise id (nodup_eraseDups numbers)).imp ?_
  rintro x y (hlt | ⟨heq, hne⟩)
  · exact hlt
  · exact absurd heq hne

theorem lookup_histogram (numbers : List Int) (number : Int) :
    (histogram numbers).lookup number =
      if number ∈ numbers then some (numbers.count number) else none := by
  split
  · rename_i hmem
    exact List.lookup_graph _ (mem_sortOn.mpr (List.mem_eraseDups.mpr hmem))
  · rename_i hmem
    rw [List.lookup_eq_none_iff]
    intro entry hentry
    have hne : number ≠ entry.1 := fun heq =>
      hmem (mem_fst_histogram.mp (heq ▸ List.mem_map_of_mem hentry))
    simpa using hne

theorem lookup_histogram_getD (numbers : List Int) (number : Int) :
    ((histogram numbers).lookup number).getD 0 = numbers.count number := by
  rw [lookup_histogram]
  split
  · rfl
  · rename_i hmem
    exact (List.count_eq_zero.mpr hmem).symm

/-- A sum over the numbers is a sum over the entries, each of them with its weight. -/
theorem sum_histogram {M : Type} [AddCommMonoid M] (numbers : List Int) (f : Int → M) :
    ((histogram numbers).map fun entry => entry.2 • f entry.1).sum = (numbers.map f).sum := by
  have hnodup : (sortOn id numbers.eraseDups).Nodup :=
    (perm_sortOn id _).nodup_iff.mpr (nodup_eraseDups numbers)
  have hmembers : (sortOn id numbers.eraseDups).toFinset = numbers.toFinset := by
    ext number
    rw [List.mem_toFinset, List.mem_toFinset, mem_sortOn, List.mem_eraseDups]
  calc ((histogram numbers).map fun entry => entry.2 • f entry.1).sum
      = ((sortOn id numbers.eraseDups).map fun number => numbers.count number • f number).sum := by
        rw [histogram, List.map_map]
        rfl
    _ = ∑ number ∈ numbers.toFinset, numbers.count number • f number := by
        rw [← List.sum_toFinset _ hnodup, hmembers]
    _ = (numbers.map f).sum := (Finset.sum_list_map_count numbers f).symm

theorem sum_rounds_histogram (numbers : List Int) :
    ((histogram numbers).map (·.2)).sum = numbers.length := by
  have hsum := sum_histogram numbers fun _ => 1
  simpa only [Nat.nsmul_eq_mul, Nat.mul_one, List.map_const', List.sum_replicate] using hsum

theorem sum_hits_histogram (numbers : List Int) :
    ((histogram numbers).map fun (number, rounds) => number * rounds).sum = numbers.sum := by
  have hsum := sum_histogram numbers id
  rw [List.map_id] at hsum
  rw [← hsum]
  refine congrArg List.sum (List.map_congr_left fun entry _ => ?_)
  exact (Int.mul_comm _ _).trans (Int.nsmul_eq_mul _ _).symm

/-! ## The first and the last entry -/

theorem histogram_ne_nil (h : numbers ≠ []) : histogram numbers ≠ [] := by
  obtain ⟨number, hnumber⟩ := List.exists_mem_of_ne_nil _ h
  intro hnil
  have hmem := mem_fst_histogram.mpr hnumber
  rw [hnil] at hmem
  cases hmem

theorem isLeast_head_histogram (h : numbers ≠ []) :
    IsLeast {number | number ∈ numbers} (((histogram numbers).head?.map (·.1)).getD 0) := by
  have hincreasing := pairwise_fst_histogram numbers
  have hmembers (number : Int) :
      number ∈ (histogram numbers).map (·.1) ↔ number ∈ numbers := mem_fst_histogram
  cases hhistogram : histogram numbers with
  | nil => exact absurd hhistogram (histogram_ne_nil h)
  | cons entry entries =>
    rw [hhistogram, List.map_cons] at hincreasing hmembers
    refine ⟨(hmembers _).mp List.mem_cons_self, fun number hnumber => ?_⟩
    rcases List.mem_cons.mp ((hmembers number).mpr hnumber) with rfl | hlater
    · exact Int.le_refl _
    · exact Int.le_of_lt ((List.pairwise_cons.mp hincreasing).1 number hlater)

theorem isGreatest_getLast_histogram (h : numbers ≠ []) :
    IsGreatest {number | number ∈ numbers} (((histogram numbers).getLast?.map (·.1)).getD 0) := by
  have hincreasing := pairwise_fst_histogram numbers
  have hmembers (number : Int) :
      number ∈ (histogram numbers).map (·.1) ↔ number ∈ numbers := mem_fst_histogram
  rcases List.eq_nil_or_concat (histogram numbers) with hhistogram | ⟨entries, entry, hhistogram⟩
  · exact absurd hhistogram (histogram_ne_nil h)
  · rw [hhistogram, List.concat_eq_append, List.map_append] at hincreasing hmembers
    rw [hhistogram, List.concat_eq_append, List.getLast?_concat]
    refine ⟨(hmembers _).mp (by simp), fun number hnumber => ?_⟩
    rcases List.mem_append.mp ((hmembers number).mpr hnumber) with hearlier | hlast
    · have hlt := (List.pairwise_append.mp hincreasing).2.2 number hearlier entry.1 (by simp)
      exact Int.le_of_lt hlt
    · exact Int.le_of_eq (by simpa using hlast)

end

/-! ## Counting one number after the other -/

/-- Counts one more number in entries that stand in increasing order. -/
def countIn (number : Int) : List (Int × Nat) → List (Int × Nat)
  | [] => [(number, 1)]
  | (other, count) :: entries =>
    if number < other then (number, 1) :: (other, count) :: entries
    else if number = other then (other, count + 1) :: entries
    else (other, count) :: countIn number entries

section

variable {entries others : List (Int × Nat)} {number other : Int}

theorem mem_fst_countIn :
    other ∈ (countIn number entries).map (·.1) ↔ other = number ∨ other ∈ entries.map (·.1) := by
  induction entries with
  | nil => simp [countIn]
  | cons entry entries ih =>
    obtain ⟨first, count⟩ := entry
    rw [countIn]
    split
    · simp
    · split
      · rename_i heq
        simp [heq]
      · rw [List.map_cons, List.mem_cons, ih, List.map_cons, List.mem_cons, or_left_comm]

theorem pairwise_fst_countIn (h : (entries.map (·.1)).Pairwise (· < ·)) (number : Int) :
    ((countIn number entries).map (·.1)).Pairwise (· < ·) := by
  induction entries with
  | nil => simp [countIn]
  | cons entry entries ih =>
    obtain ⟨first, count⟩ := entry
    obtain ⟨hfirst, hentries⟩ := List.pairwise_cons.mp h
    rw [countIn]
    split
    · rename_i hlt
      exact .cons (List.forall_mem_cons.mpr ⟨hlt, fun later hlater =>
        Int.lt_trans hlt (hfirst later hlater)⟩) h
    · split
      · exact h
      · refine .cons (fun later hlater => ?_) (ih hentries)
        rcases mem_fst_countIn.mp hlater with rfl | hlater
        · show first < _
          omega
        · exact hfirst later hlater

theorem lookup_cons_eq_ite (first : Int) (count : Nat) (entries : List (Int × Nat)) (number : Int) :
    ((first, count) :: entries).lookup number =
      if number = first then some count else entries.lookup number := by
  rw [List.lookup_cons]
  split <;> simp_all

theorem lookup_eq_none_of_lt (h : ∀ later ∈ entries.map (·.1), number < later) :
    entries.lookup number = none := by
  rw [List.lookup_eq_none_iff]
  intro entry hentry
  have hlt := h entry.1 (List.mem_map_of_mem hentry)
  simpa using Int.ne_of_lt hlt

theorem lookup_countIn (h : (entries.map (·.1)).Pairwise (· < ·)) (number other : Int) :
    (countIn number entries).lookup other =
      if other = number then some ((entries.lookup number).getD 0 + 1)
      else entries.lookup other := by
  induction entries with
  | nil => exact lookup_cons_eq_ite number 1 [] other
  | cons entry entries ih =>
    obtain ⟨first, count⟩ := entry
    obtain ⟨hfirst, hentries⟩ := List.pairwise_cons.mp h
    rw [countIn]
    split
    · rename_i hlt
      have hnone : ((first, count) :: entries).lookup number = none :=
        lookup_eq_none_of_lt (List.forall_mem_cons.mpr ⟨hlt, fun later hlater =>
          Int.lt_trans hlt (hfirst later hlater)⟩)
      rw [hnone, lookup_cons_eq_ite]
      rfl
    · split
      · rename_i heq
        subst heq
        simp only [lookup_cons_eq_ite, if_true, Option.getD_some]
        split <;> rfl
      · rename_i hne
        simp only [lookup_cons_eq_ite, ih hentries, if_neg hne]
        by_cases hother : other = number
        · rw [if_pos hother, if_pos hother, if_neg (hother ▸ hne)]
        · rw [if_neg hother, if_neg hother]

theorem mem_iff_lookup_eq_some (h : (entries.map (·.1)).Pairwise (· < ·)) {count : Nat} :
    (number, count) ∈ entries ↔ entries.lookup number = some count := by
  induction entries with
  | nil => simp
  | cons entry entries ih =>
    obtain ⟨first, other⟩ := entry
    obtain ⟨hfirst, hentries⟩ := List.pairwise_cons.mp h
    rw [List.mem_cons, ih hentries, lookup_cons_eq_ite, Prod.mk.injEq]
    by_cases heq : number = first
    · subst heq
      simp [lookup_eq_none_of_lt hfirst, eq_comm]
    · simp [heq]

/-- Entries in increasing order are decided by what is looked up in them. -/
theorem eq_of_lookup_eq (h : (entries.map (·.1)).Pairwise (· < ·))
    (hothers : (others.map (·.1)).Pairwise (· < ·))
    (heq : ∀ number, entries.lookup number = others.lookup number) : entries = others := by
  have hnodup {rows : List (Int × Nat)} (hrows : (rows.map (·.1)).Pairwise (· < ·)) :
      rows.Nodup := by
    refine (List.pairwise_map.mp hrows).imp ?_
    rintro entry _ hlt rfl
    exact Int.lt_irrefl _ hlt
  have hperm : entries.Perm others :=
    (List.perm_ext_iff_of_nodup (hnodup h) (hnodup hothers)).mpr fun (number, count) => by
      rw [mem_iff_lookup_eq_some h, mem_iff_lookup_eq_some hothers, heq]
  refine hperm.eq_of_pairwise (fun _ _ _ _ hlt hgt => ?_) (List.pairwise_map.mp h)
    (List.pairwise_map.mp hothers)
  exact absurd hlt (Int.lt_asymm hgt)

end

theorem histogram_append_singleton (numbers : List Int) (number : Int) :
    histogram (numbers ++ [number]) = countIn number (histogram numbers) := by
  refine eq_of_lookup_eq (pairwise_fst_histogram _)
    (pairwise_fst_countIn (pairwise_fst_histogram _) _) fun other => ?_
  rw [lookup_countIn (pairwise_fst_histogram _), lookup_histogram_getD, lookup_histogram,
    lookup_histogram]
  by_cases heq : other = number
  · simp [heq]
  · simp [heq, Ne.symm heq]

/-- The entries are those that are gathered when the numbers are counted one after the other. -/
theorem histogram_eq_foldl (numbers : List Int) :
    histogram numbers = numbers.foldl (fun entries number => countIn number entries) [] := by
  induction numbers using List.reverseRecOn with
  | nil => rfl
  | append_singleton numbers number ih =>
    rw [histogram_append_singleton, List.foldl_concat, ih]

/-! ## The summary of a side -/

/-- The summary of a side whose rounds had these hits. -/
structure SideSummary.Tallies (summary : SideSummary) (hits : List Int) : Prop where
  increasing : (summary.distribution.map (·.1)).Pairwise (· < ·)
  /-- A number of hits that no round had has no entry. -/
  lookup_eq (number : Int) : summary.distribution.lookup number =
    if number ∈ hits then some (hits.count number) else none
  sum_rounds : (summary.distribution.map (·.2)).sum = hits.length
  minHits : IsLeast {number | number ∈ hits} summary.minHits
  maxHits : IsGreatest {number | number ∈ hits} summary.maxHits
  meanHits : summary.meanHits =
    Float.ofInt (summary.distribution.map fun (number, rounds) => number * rounds).sum /
      Float.ofNat hits.length

namespace SideSummary

/-- In how many rounds the side had so many hits. -/
def roundsWith (summary : SideSummary) (hits : Int) : Nat :=
  (summary.distribution.lookup hits).getD 0

theorem distribution_ofReports (reports : List RoundReport) (side : Side) :
    (ofReports reports side).distribution = histogram (reports.map (·.hitsBy side)) := by
  cases reports <;> rfl

theorem roundsWith_ofReports (reports : List RoundReport) (side : Side) (hits : Int) :
    (ofReports reports side).roundsWith hits = (reports.map (·.hitsBy side)).count hits := by
  rw [roundsWith, distribution_ofReports, lookup_histogram_getD]

theorem tallies_ofReports {reports : List RoundReport} (h : reports ≠ []) (side : Side) :
    (ofReports reports side).Tallies (reports.map (·.hitsBy side)) := by
  cases reports with
  | nil => exact absurd rfl h
  | cons first reports =>
    have hhits : (first :: reports).map (·.hitsBy side) ≠ [] := List.cons_ne_nil _ _
    refine
      { increasing := pairwise_fst_histogram _
        lookup_eq := lookup_histogram _
        sum_rounds := sum_rounds_histogram _
        minHits := isLeast_head_histogram hhits
        maxHits := isGreatest_getLast_histogram hhits
        meanHits := ?_ }
    rw [distribution_ofReports, sum_hits_histogram, List.length_map]
    rfl

end SideSummary

end Salvo
