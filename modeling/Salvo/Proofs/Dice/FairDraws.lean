import Mathlib.Data.Finset.Card
import Mathlib.Logic.Function.Iterate
import Mathlib.Order.Interval.Finset.Nat
import Salvo.Proofs.Dice.SureHits

/-! # Fair draws

The generator gives out one word after the other, and a die shows the face of the first fair one
(`Generator.draw_of_fair`). The draw gives up after as many words as the generator has states, and
then no fair word could follow: a state that comes again brings the same words again.

The fair words are shared out evenly among the faces of a die (`Generator.card_fairWords`), whatever
the number of its sides. What a seed gives is therefore always a face
(`Generator.givesFaces`). -/

namespace Salvo.Generator

/-- The generator after so many words. -/
def after (g : Generator) (count : Nat) : Generator := (fun g => g.nextWord.2)^[count] g

/-- The word at a place, counted from zero. -/
def wordAt (g : Generator) (place : Nat) : Nat := (g.after place).nextWord.1

/-- The first fair word stands at `place`. -/
def IsFirstFair (g : Generator) (sides place : Nat) : Prop :=
  IsFair sides (g.wordAt place) ∧ ∀ earlier < place, ¬ IsFair sides (g.wordAt earlier)

variable {g : Generator} {sides place : Nat}

/-! ## The first fair word -/

theorem after_succ (g : Generator) (count : Nat) :
    g.after (count + 1) = g.nextWord.2.after count :=
  Function.iterate_succ_apply _ count g

theorem after_add (g : Generator) (count more : Nat) :
    g.after (count + more) = (g.after more).after count :=
  Function.iterate_add_apply _ count more g

/-- A number for each state. -/
def code (g : Generator) : Nat :=
  ((g.s0.toNat * 2 ^ 64 + g.s1.toNat) * 2 ^ 64 + g.s2.toNat) * 2 ^ 64 + g.s3.toNat

theorem code_lt (g : Generator) : g.code < patience := by
  have h0 := g.s0.toNat_lt
  have h1 := g.s1.toNat_lt
  have h2 := g.s2.toNat_lt
  have h3 := g.s3.toNat_lt
  simp only [code, patience]
  omega

theorem eq_of_code_eq {g other : Generator} (h : g.code = other.code) : g = other := by
  obtain ⟨s0, s1, s2, s3⟩ := g
  obtain ⟨t0, t1, t2, t3⟩ := other
  have h1 := s1.toNat_lt
  have h2 := s2.toNat_lt
  have h3 := s3.toNat_lt
  have h1' := t1.toNat_lt
  have h2' := t2.toNat_lt
  have h3' := t3.toNat_lt
  simp only [code] at h
  simp only [mk.injEq, ← UInt64.toNat_inj]
  omega

/-- Among more than `patience` words two come from one state. -/
theorem exists_after_eq (g : Generator) :
    ∃ first second, first < second ∧ second ≤ patience ∧ g.after first = g.after second := by
  have hcard : (Finset.range patience).card < (Finset.range (patience + 1)).card := by
    rw [Finset.card_range, Finset.card_range]
    exact Nat.lt_succ_self _
  obtain ⟨x, hx, y, hy, hne, heq⟩ := Finset.exists_ne_map_eq_of_card_lt_of_maps_to hcard
    (f := fun count => (g.after count).code) fun count _ => Finset.mem_range.mpr (code_lt _)
  have hx := Nat.le_of_lt_succ (Finset.mem_range.mp hx)
  have hy := Nat.le_of_lt_succ (Finset.mem_range.mp hy)
  rcases Nat.lt_or_gt_of_ne hne with hlt | hlt
  · exact ⟨x, y, hlt, hy, eq_of_code_eq heq⟩
  · exact ⟨y, x, hlt, hx, (eq_of_code_eq heq).symm⟩

/-- What follows the second of two equal states has followed the first one, too, and sooner. -/
theorem IsFirstFair.lt_of_after_eq (h : g.IsFirstFair sides place) {first second : Nat}
    (hlt : first < second) (heq : g.after first = g.after second) : place < second := by
  by_contra hlate
  have hsooner := h.2 (place - second + first) (by omega)
  rw [wordAt, after_add, heq, ← after_add, Nat.sub_add_cancel (Nat.le_of_not_lt hlate)] at hsooner
  exact hsooner h.1

/-- A fair word comes within `patience` words or never. -/
theorem IsFirstFair.lt_patience (h : g.IsFirstFair sides place) : place < patience := by
  obtain ⟨first, second, hlt, hle, heq⟩ := g.exists_after_eq
  exact Nat.lt_of_lt_of_le (h.lt_of_after_eq hlt heq) hle

theorem drawWithin_of_isFirstFair {patience : Nat} (h : g.IsFirstFair sides place)
    (hlt : place < patience) :
    drawWithin patience sides g = (faceOf sides (g.wordAt place), g.after (place + 1)) := by
  induction place generalizing g patience with
  | zero =>
    obtain ⟨patience, rfl⟩ := Nat.exists_eq_add_of_lt hlt
    exact if_pos h.1
  | succ place ih =>
    obtain ⟨patience, rfl⟩ : ∃ more, patience = more + 1 := ⟨patience - 1, by omega⟩
    have hnext : g.nextWord.2.IsFirstFair sides place := by
      refine ⟨?_, fun earlier hearlier => ?_⟩
      · rw [wordAt, ← after_succ]
        exact h.1
      · rw [wordAt, ← after_succ]
        exact h.2 _ (Nat.succ_lt_succ hearlier)
    have hunfair : ¬ IsFair sides g.nextWord.1 := h.2 0 (Nat.succ_pos place)
    simp only [drawWithin]
    rw [if_neg hunfair, ih hnext (by omega), wordAt, wordAt, ← after_succ, ← after_succ]

/-- A die shows the face of the first fair word and leaves the generator behind it. -/
theorem draw_of_fair (g : Generator) (sides : Nat) (h : ∃ place, IsFair sides (g.wordAt place)) :
    ∃ place, g.IsFirstFair sides place ∧
      g.draw sides = (faceOf sides (g.wordAt place), g.after (place + 1)) := by
  have hfirst : g.IsFirstFair sides (Nat.find h) :=
    ⟨Nat.find_spec h, fun _ hearlier => Nat.find_min h hearlier⟩
  exact ⟨_, hfirst, drawWithin_of_isFirstFair hfirst hfirst.lt_patience⟩

/-! ## Words and faces -/

/-- The words that are fair and give the face. -/
def fairWords (sides face : Nat) : Finset Nat :=
  {word ∈ Finset.range (2 ^ 32) | IsFair sides word ∧ faceOf sides word = face}

/-- The fair part of the low halves is a multiple of the sides. -/
theorem fairZone_eq (hpos : 0 < sides) (hlt : sides < 2 ^ 32) :
    fairZone sides + 1 = sides * 2 ^ (31 - sides.log2) ∧ fairZone sides + 1 ≤ 2 ^ 32 := by
  have hlog : sides.log2 ≤ 31 := by
    have := (Nat.log2_lt (Nat.ne_of_gt hpos)).mpr hlt
    omega
  have hle : 2 ^ sides.log2 ≤ sides := Nat.log2_self_le (Nat.ne_of_gt hpos)
  have hgt : sides < 2 ^ (sides.log2 + 1) := Nat.lt_log2_self
  have hshift : 2 ^ sides.log2 * 2 ^ (31 - sides.log2) = 2 ^ 31 := by
    rw [← Nat.pow_add, Nat.add_sub_cancel' hlog]
  have hleast : 2 ^ 31 ≤ sides * 2 ^ (31 - sides.log2) :=
    hshift ▸ Nat.mul_le_mul_right _ hle
  have hmost : sides * 2 ^ (31 - sides.log2) < 2 ^ 32 := by
    calc sides * 2 ^ (31 - sides.log2)
        < 2 ^ (sides.log2 + 1) * 2 ^ (31 - sides.log2) :=
          Nat.mul_lt_mul_of_pos_right hgt (Nat.two_pow_pos _)
      _ = 2 ^ 32 := by rw [← Nat.pow_add]; congr 1; omega
  simp only [fairZone, Nat.shiftLeft_eq]
  omega

/-- Each face of a die has as many fair words as any other. -/
theorem card_fairWords {face : Nat} (hlt : sides < 2 ^ 32) (hface : face < sides) :
    (fairWords sides face).card = 2 ^ (31 - sides.log2) := by
  have hpos : 0 < sides := Nat.lt_of_le_of_lt (Nat.zero_le _) hface
  obtain ⟨hzone, hmost⟩ := fairZone_eq hpos hlt
  generalize 2 ^ (31 - sides.log2) = share at hzone ⊢
  -- The products of the words with the sides that are at least some bound.
  have hfrom (bound word : Nat) : bound ≤ word * sides ↔ (bound + sides - 1) / sides ≤ word := by
    rw [Nat.div_le_iff_le_mul hpos]
    omega
  have hnext : (face * 2 ^ 32 + sides * share + sides - 1) / sides =
      (face * 2 ^ 32 + sides - 1) / sides + share := by
    rw [← Nat.add_mul_div_left _ _ hpos]
    congr 1
    omega
  have hall : (face + 1) * 2 ^ 32 ≤ sides * 2 ^ 32 := Nat.mul_le_mul_right _ hface
  have hwords : fairWords sides face =
      Finset.Ico ((face * 2 ^ 32 + sides - 1) / sides)
        ((face * 2 ^ 32 + sides - 1) / sides + share) := by
    ext word
    have hlow := hfrom (face * 2 ^ 32) word
    have hhigh := hfrom (face * 2 ^ 32 + sides * share) word
    rw [hnext] at hhigh
    have hrange : word * sides < sides * 2 ^ 32 → word < 2 ^ 32 := fun h =>
      Nat.lt_of_mul_lt_mul_left (Nat.mul_comm word sides ▸ h)
    rw [fairWords, Finset.mem_filter, Finset.mem_range, Finset.mem_Ico, IsFair, faceOf]
    omega
  rw [hwords, Nat.card_Ico, Nat.add_sub_cancel_left]

theorem nextWord_lt (g : Generator) : g.nextWord.1 < 2 ^ 32 := by
  have h := g.next.1.toNat_lt
  simp only [nextWord, UInt64.toNat_shiftRight, Nat.shiftRight_eq_div_pow]
  exact Nat.div_lt_of_lt_mul (by simpa using h)

theorem faceOf_lt {word : Nat} (hword : word < 2 ^ 32) (hpos : 0 < sides) :
    faceOf sides word < sides :=
  Nat.div_lt_of_lt_mul (Nat.mul_lt_mul_of_pos_right hword hpos)

theorem drawWithin_lt (patience : Nat) (g : Generator) (hpos : 0 < sides) :
    (drawWithin patience sides g).1 < sides := by
  have hword (g : Generator) : faceOf sides g.nextWord.1 < sides := faceOf_lt g.nextWord_lt hpos
  induction patience generalizing g with
  | zero => exact hword g
  | succ patience ih =>
    simp only [drawWithin]
    split
    · exact hword g
    · exact ih _

theorem draw_lt (g : Generator) (hpos : 0 < sides) : (g.draw sides).1 < sides :=
  drawWithin_lt patience g hpos

theorem mem_draws_lt (g : Generator) (count : Nat) (hpos : 0 < sides) :
    ∀ value ∈ (g.draws sides count).1, value < sides := by
  induction count generalizing g with
  | zero => exact List.forall_mem_nil _
  | succ count ih =>
    simp only [draws, List.forall_mem_cons]
    exact ⟨g.draw_lt hpos, ih _⟩

theorem givesFaces (sides : Int) (generator : Generator) :
    DiceSource.GivesFaces sides generator := by
  rintro asked values rest rfl h value hvalue
  change deal asked.sides asked.count generator = (.ok values, rest) at h
  unfold deal at h
  split at h
  · cases h
  · cases h
    obtain ⟨face, hface, rfl⟩ := List.mem_map.mp hvalue
    have hlt := mem_draws_lt generator asked.count (by omega) face hface
    simp only [isFace, Int.ofNat_eq_natCast, Bool.and_eq_true, decide_eq_true_eq]
    omega

end Salvo.Generator
