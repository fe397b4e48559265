import Mathlib.Algebra.BigOperators.Fin
import Mathlib.Algebra.BigOperators.Ring.Finset
import Mathlib.Data.Fintype.BigOperators
import Mathlib.Tactic.Ring
import Salvo.Dice.Throw

/-! # Sums over all faces

What dice do on average is a sum over all ways in which they may fall. `faces` are the values of
dice that fell in one way, and `sumFaces` adds a quantity over all ways. Dice that are read one
after the other are summed one after the other (`sumFaces_add`).

Of the faces of a die as many lie below a threshold as the threshold says (`sum_below`). So ordinary
dice hit in proportion to their number and strength (`sumFaces_count_below`), and the best of
several dice misses only if all of them do (`sumFaces_none_below`). -/

namespace Salvo

/-- The values of dice that fell in this way. -/
def faces {sides count : Nat} (fallen : Fin count → Fin sides) : List Int :=
  List.ofFn fun i => ((fallen i : Nat) : Int)

/-- The sum of a quantity over all ways in which dice may fall. -/
def sumFaces (sides count : Nat) (f : List Int → Int) : Int :=
  ∑ fallen : Fin count → Fin sides, f (faces fallen)

variable {sides count : Nat} {strength : Int}

@[simp] theorem length_faces (fallen : Fin count → Fin sides) : (faces fallen).length = count :=
  List.length_ofFn

theorem isFace_of_mem_faces {fallen : Fin count → Fin sides} {value : Int}
    (h : value ∈ faces fallen) : isFace sides value := by
  obtain ⟨i, rfl⟩ := List.mem_ofFn.mp h
  have hlt := (fallen i).isLt
  simp only [isFace, Bool.and_eq_true, decide_eq_true_eq]
  omega

theorem faces_append {front back : Nat} (fallen : Fin front → Fin sides)
    (more : Fin back → Fin sides) :
    faces (Fin.append fallen more) = faces fallen ++ faces more := by
  unfold faces
  rw [← List.ofFn_fin_append]
  congr 1
  funext i
  refine Fin.addCases (fun j => ?_) (fun j => ?_) i
  · simp only [Fin.append_left]
  · simp only [Fin.append_right]

/-! ## Laws of the sum -/

theorem sumFaces_congr {f g : List Int → Int}
    (h : ∀ values, values.length = count → f values = g values) :
    sumFaces sides count f = sumFaces sides count g :=
  Finset.sum_congr rfl fun fallen _ => h _ (length_faces fallen)

@[simp] theorem sumFaces_zero (sides : Nat) (f : List Int → Int) : sumFaces sides 0 f = f [] := by
  simp [sumFaces, faces]

theorem sumFaces_const (sides count : Nat) (c : Int) :
    sumFaces sides count (fun _ => c) = sides ^ count * c := by
  simp [sumFaces]

theorem sumFaces_add (f g : List Int → Int) :
    sumFaces sides count (fun values => f values + g values) =
      sumFaces sides count f + sumFaces sides count g :=
  Finset.sum_add_distrib

theorem mul_sumFaces (c : Int) (f : List Int → Int) :
    c * sumFaces sides count f = sumFaces sides count fun values => c * f values :=
  Finset.mul_sum ..

/-- Dice that are read one after the other. -/
theorem sumFaces_append (sides front back : Nat) (f : List Int → Int) :
    sumFaces sides (front + back) f =
      sumFaces sides front fun values => sumFaces sides back fun more => f (values ++ more) := by
  unfold sumFaces
  rw [← (Fin.appendEquiv front back).sum_comp, Fintype.sum_prod_type]
  refine Finset.sum_congr rfl fun fallen _ => Finset.sum_congr rfl fun more _ => ?_
  exact congrArg f (faces_append fallen more)

theorem sumFaces_succ (sides count : Nat) (f : List Int → Int) :
    sumFaces sides (count + 1) f =
      ∑ face : Fin sides, sumFaces sides count fun values =>
        f (((face : Nat) : Int) :: values) := by
  rw [Nat.add_comm, sumFaces_append]
  refine Fintype.sum_equiv (Equiv.funUnique (Fin 1) (Fin sides)) _ _ fun fallen => ?_
  simp [faces]

/-! ## Faces below a threshold -/

/-- As many faces lie below a threshold as the threshold says. -/
theorem sum_below (hl : 0 ≤ strength) (hu : strength ≤ sides) :
    ∑ face : Fin sides, (if ((face : Nat) : Int) < strength then 1 else 0 : Int) = strength := by
  lift strength to Nat using hl
  have hcard : (Finset.range sides).filter (fun face : Nat => (face : Int) < strength) =
      Finset.range strength := by
    ext face
    simp only [Finset.mem_filter, Finset.mem_range]
    omega
  rw [Fin.sum_univ_eq_sum_range fun face : Nat => if (face : Int) < strength then (1 : Int) else 0,
    Finset.sum_boole, hcard, Finset.card_range]

theorem sum_not_below (hl : 0 ≤ strength) (hu : strength ≤ sides) :
    ∑ face : Fin sides, (if strength ≤ ((face : Nat) : Int) then 1 else 0 : Int) =
      sides - strength := by
  have hboth : ∑ face : Fin sides, (if ((face : Nat) : Int) < strength then 1 else 0 : Int) +
      ∑ face : Fin sides, (if strength ≤ ((face : Nat) : Int) then 1 else 0 : Int) = sides := by
    rw [← Finset.sum_add_distrib]
    refine (Finset.sum_congr rfl fun face _ => ?_ : _ = ∑ _face : Fin sides, (1 : Int)).trans ?_
    · split <;> split <;> omega
    · simp
  rw [sum_below hl hu] at hboth
  omega

/-- How many of a number of dice fall below a threshold, over all ways in which they may fall. -/
theorem sumFaces_count_below (hl : 0 ≤ strength) (hu : strength ≤ sides) (count : Nat) :
    sumFaces sides count (fun values => (values.countP (· < strength) : Nat)) =
      count * strength * sides ^ (count - 1) := by
  induction count with
  | zero => simp
  | succ count ih =>
    have hface (face : Fin sides) :
        sumFaces sides count (fun values =>
            ((((face : Nat) : Int) :: values).countP (· < strength) : Nat)) =
          count * strength * sides ^ (count - 1) +
            sides ^ count * (if ((face : Nat) : Int) < strength then 1 else 0) := by
      rw [← ih, ← sumFaces_const, ← sumFaces_add]
      refine sumFaces_congr fun values _ => ?_
      rw [List.countP_cons]
      split <;> simp_all
    rw [sumFaces_succ, Finset.sum_congr rfl fun face _ => hface face, Finset.sum_add_distrib,
      Fin.sum_const, nsmul_eq_mul, ← Finset.mul_sum,
      sum_below hl hu, Nat.add_sub_cancel]
    cases count with
    | zero => simp
    | succ count =>
      rw [Nat.add_sub_cancel]
      push_cast
      ring

/-- In how many ways none of a number of dice falls below a threshold. -/
theorem sumFaces_none_below (hl : 0 ≤ strength) (hu : strength ≤ sides) (count : Nat) :
    sumFaces sides count (fun values => if ∀ value ∈ values, strength ≤ value then 1 else 0) =
      (sides - strength) ^ count := by
  induction count with
  | zero => simp
  | succ count ih =>
    have hface (face : Fin sides) :
        sumFaces sides count (fun values =>
            if ∀ value ∈ ((face : Nat) : Int) :: values, strength ≤ value then 1 else 0) =
          (if strength ≤ ((face : Nat) : Int) then 1 else 0) * (sides - strength) ^ count := by
      simp only [List.forall_mem_cons]
      split
      · rename_i hle
        simpa [hle] using ih
      · rename_i hlt
        simp [hlt, sumFaces]
    rw [sumFaces_succ, Finset.sum_congr rfl fun face _ => hface face, ← Finset.sum_mul,
      sum_not_below hl hu, pow_succ, mul_comm]

end Salvo
