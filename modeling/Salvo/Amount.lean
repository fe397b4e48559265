import Salvo.Number.Arithmetic

/-! # Bounded amounts

All amounts are kept in a 32-bit range, in one of two ways. Powers and totals saturate: a sum or
product that would leave the range stays at its nearer end. `total` adds a list of amounts from left
to right in this way. On a list without negative amounts only the upper end can be met, and it does
not matter when (`total_eq_min`).

Strengths, rolls and hits that are simply added up wrap around: a sum that would leave the range
enters it again at the other end. `sum` adds a list in this way, and is exact but for whole turns
through the range (`sum_eq_wrap`). -/

namespace Salvo.Amount

def most : Int := 2147483647

def least : Int := -2147483648

/-- The range of amounts. -/
def InRange (x : Int) : Prop := least ≤ x ∧ x ≤ most

instance (x : Int) : Decidable (InRange x) := inferInstanceAs (Decidable (_ ∧ _))

/-- The amount nearest to `x`. -/
def saturate (x : Int) : Int := max least (min most x)

/-- The amount that differs from `x` by whole turns through the range. -/
def wrap (x : Int) : Int := (x - least) % 4294967296 + least

/-- The saturating sum of a list, added from left to right. -/
def total (xs : List Int) : Int := xs.foldl (fun sum x => saturate (sum + x)) 0

/-- The wrapping sum of a list, added from left to right. -/
def sum (xs : List Int) : Int := xs.foldl (fun sum x => wrap (sum + x)) 0

theorem saturate_of_le {x : Int} (hl : least ≤ x) (hm : x ≤ most) : saturate x = x := by
  simp only [saturate]
  omega

theorem saturate_le_most (x : Int) : saturate x ≤ most := by
  simp only [saturate, least, most]
  omega

theorem saturate_mono {x y : Int} (h : x ≤ y) : saturate x ≤ saturate y := by
  simp only [saturate]
  omega

theorem inRange_wrap (x : Int) : InRange (wrap x) := by
  simp only [InRange, wrap, least, most]
  omega

theorem wrap_of_inRange {x : Int} (h : InRange x) : wrap x = x := by
  simp only [InRange, wrap, least, most] at *
  omega

theorem wrap_of_nonneg {x : Int} (h : 0 ≤ x) (hm : x ≤ most) : wrap x = x :=
  wrap_of_inRange ⟨Int.le_trans (by decide) h, hm⟩

/-- A sum that was wrapped on the way is wrapped as it would be at the end. -/
theorem wrap_wrap_add (x y : Int) : wrap (wrap x + y) = wrap (x + y) := by
  simp only [wrap]
  omega

theorem foldl_wrap (start : Int) (xs : List Int) :
    xs.foldl (fun sum x => wrap (sum + x)) (wrap start) = wrap (start + xs.sum) := by
  induction xs generalizing start with
  | nil => rw [List.foldl_nil, List.sum_nil, Int.add_zero]
  | cons x xs ih => rw [List.foldl_cons, wrap_wrap_add, ih, List.sum_cons, Int.add_assoc]

theorem sum_eq_wrap (xs : List Int) : sum xs = wrap xs.sum := by
  have hstart := foldl_wrap 0 xs
  rwa [wrap_of_inRange (by decide), Int.zero_add] at hstart

theorem sum_nonneg {xs : List Int} (h : ∀ x ∈ xs, 0 ≤ x) : 0 ≤ xs.sum := by
  induction xs with
  | nil => exact Int.le_refl 0
  | cons x xs ih =>
    obtain ⟨hx, hxs⟩ := List.forall_mem_cons.mp h
    rw [List.sum_cons]
    exact Int.add_nonneg hx (ih hxs)

theorem sum_filter_cons {α : Type} (p : α → Bool) (f : α → Int) (x : α) (xs : List α) :
    (((x :: xs).filter p).map f).sum = (if p x then f x else 0) + ((xs.filter p).map f).sum := by
  rw [List.filter_cons]
  split
  · rw [List.map_cons, List.sum_cons]
  · rw [Int.zero_add]

theorem foldl_saturate {xs : List Int} (h : ∀ x ∈ xs, 0 ≤ x) {start : Int} (hl : 0 ≤ start)
    (hm : start ≤ most) :
    xs.foldl (fun sum x => saturate (sum + x)) start = min most (start + xs.sum) := by
  induction xs generalizing start with
  | nil =>
    rw [List.foldl_nil, List.sum_nil]
    omega
  | cons x xs ih =>
    obtain ⟨hx, hxs⟩ := List.forall_mem_cons.mp h
    have hsum : 0 ≤ xs.sum := sum_nonneg hxs
    have hpos : 0 ≤ saturate (start + x) := by
      simp only [saturate, least, most]
      omega
    rw [List.foldl_cons, ih hxs hpos (saturate_le_most _), List.sum_cons]
    simp only [saturate, least, most] at *
    omega

/-- Without negative amounts only the end is brought into range. -/
theorem total_eq_min {xs : List Int} (h : ∀ x ∈ xs, 0 ≤ x) : total xs = min most xs.sum := by
  rw [total, foldl_saturate h (by decide) (by decide), Int.zero_add]

end Salvo.Amount
