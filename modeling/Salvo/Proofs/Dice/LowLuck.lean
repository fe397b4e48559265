import Mathlib.Data.Rat.Floor
import Salvo.Proofs.Dice.Faces
import Salvo.Proofs.Dice.Hits
import Salvo.Proofs.Dice.Throwing

/-! # Low luck

In low luck the hits of a group are its power divided by the sides of a die, and one die decides
about the remainder. The two together are one division that rounds down
(`PowerTable.hits_low_luck`): the face of the die is what the rounding leaves to chance. Over all
faces the hits add up to the power, so that low luck agrees on average with the dice that it
replaces. -/

namespace Salvo

/-- A quotient that is rounded up when the face of a die is below its remainder. -/
theorem ediv_add_face {sides power value : Int} (hl : 0 ≤ value) (hu : value < sides) :
    (power + sides - 1 - value) / sides =
      power / sides + if value < power % sides then 1 else 0 := by
  have hpos : 0 < sides := by omega
  have hsplit := Int.mul_ediv_add_emod power sides
  have hrem := Int.emod_nonneg power (Int.ne_of_gt hpos)
  have hlt := Int.emod_lt_of_pos power hpos
  split
  · have heq : power + sides - 1 - value =
        (power % sides - 1 - value) + sides * (power / sides + 1) := by
      rw [Int.mul_add]
      omega
    rw [heq, Int.add_mul_ediv_left _ _ (Int.ne_of_gt hpos),
      Int.ediv_eq_zero_of_lt (by omega) (by omega), Int.zero_add]
  · have heq : power + sides - 1 - value =
        (power % sides + sides - 1 - value) + sides * (power / sides) := by omega
    rw [heq, Int.add_mul_ediv_left _ _ (Int.ne_of_gt hpos),
      Int.ediv_eq_zero_of_lt (by omega) (by omega), Int.zero_add, Int.add_zero]

namespace PowerTable

/-- What the group rolls in low luck, by the face that its die would show. It asks for one die, with
the remainder of its power as the threshold, unless there is no remainder. -/
structure LowLuckRolls (table : PowerTable) (label : DiceLabel) {sides : Nat}
    (roll : Fin sides → Roll) : Prop where
  none_asked : (sides : Int) ∣ table.totalPower → ∀ face, (roll face).dice = [] ∧
    ∀ {σ : Type} [DiceSource σ] (source : σ),
      table.throwDice true label source = (.ok (roll face), source)
  one_asked : ¬ (sides : Int) ∣ table.totalPower → ∀ face : Fin sides,
    (roll face).dice = [.scored (face : Nat) (table.totalPower % sides)] ∧
    ∀ {σ : Type} [DiceSource σ] (source rest : σ) (more : List Int),
      DiceSource.request ⟨sides, 1, label⟩ source = (.ok (((face : Nat) : Int) :: more), rest) →
      table.throwDice true label source = (.ok (roll face), rest)

variable {table : PowerTable} {sides : Nat}

/-- The values that a low-luck throw scores when its die would show the face. -/
def lowLuckValues (table : PowerTable) (face : Int) : List Int :=
  if table.diceSides ∣ table.totalPower then [] else [face]

theorem InRange.lowLuckRolls (h : table.InRange) (hsides : table.diceSides = sides)
    (label : DiceLabel) :
    table.LowLuckRolls label fun face : Fin sides =>
      table.rollOf true label.player (table.lowLuckValues (face : Nat)) where
  none_asked hdvd face := by
    rw [← hsides] at hdvd
    have hvalues : table.lowLuckValues (face : Nat) = [] := if_pos hdvd
    have hcount : table.diceCount true = 0 := if_pos hdvd
    rw [hvalues]
    refine ⟨?_, fun source => ?_⟩
    · unfold rollOf
      split <;> rfl
    · rw [h.throwDice_eq, if_pos hcount]
  one_asked hdvd face := by
    rw [← hsides] at hdvd ⊢
    have hvalues : table.lowLuckValues (face : Nat) = [((face : Nat) : Int)] := if_neg hdvd
    have hcount : table.diceCount true = 1 := if_neg hdvd
    -- Zero power is divided by any number of sides.
    have hpower : 0 < table.totalPower :=
      lt_of_le_of_ne h.totalPower_nonneg fun hzero => hdvd (hzero ▸ Int.dvd_zero _)
    rw [hvalues]
    refine ⟨?_, fun source rest more hrequest => ?_⟩
    · rw [h.rollOf_of_power hpower]
      rfl
    · have hdice := requestDice_eq_ok_iff.mpr ⟨hrequest, Nat.succ_le_succ (Nat.zero_le _)⟩
      rw [h.throwDice_eq, if_neg (by omega), hcount, hdice]
      dsimp only
      rw [h.rollOf_of_power hpower, h.rollOf_of_power hpower]
      rfl

/-- The hits in low luck are one division. -/
theorem InRange.hits_rollOf_low_luck (h : table.InRange) (hsides : table.diceSides = sides)
    (player : String) (face : Fin sides) :
    (table.rollOf true player (table.lowLuckValues (face : Nat))).hits =
      (table.totalPower + sides - 1 - (face : Nat)) / sides := by
  have hlt := face.isLt
  rw [ediv_add_face (Int.natCast_nonneg _) (by omega), ← hsides]
  by_cases hpower : 0 < table.totalPower
  · rw [h.rollOf_of_power hpower, if_pos rfl, lowLuckRoll, lowLuckValues]
    by_cases hdvd : table.diceSides ∣ table.totalPower
    · rw [if_pos hdvd, Int.emod_eq_zero_of_dvd hdvd, if_neg (by omega)]
      rfl
    · rw [if_neg hdvd]
      simp [sureHits, remainder, countHits_cons]
  · have hzero : table.totalPower = 0 := by
      have hnonneg := h.totalPower_nonneg
      omega
    rw [h.rollOf_of_no_power hpower, hzero, Int.zero_ediv, Int.zero_emod, if_neg (by omega)]
    rfl

/-- More power means no fewer hits in low luck, whatever face the die shows. -/
theorem InRange.hits_low_luck_mono {other : PowerTable} (h : table.InRange)
    (hother : other.InRange) (hsides : table.diceSides = sides) (hsame : other.diceSides = sides)
    (hpower : table.totalPower ≤ other.totalPower) (player : String) (face : Fin sides) :
    (table.rollOf true player (table.lowLuckValues (face : Nat))).hits ≤
      (other.rollOf true player (other.lowLuckValues (face : Nat))).hits := by
  rw [h.hits_rollOf_low_luck hsides, hother.hits_rollOf_low_luck hsame]
  exact Int.ediv_le_ediv (by have := face.isLt; omega) (by omega)

/-- Over all faces the quotients add up to the power. -/
theorem sum_ediv_faces (hpos : 1 ≤ sides) (power : Int) :
    ∑ face : Fin sides, (power + sides - 1 - (face : Nat)) / (sides : Int) = power := by
  have hrem := Int.emod_nonneg power (by omega : (sides : Int) ≠ 0)
  have hlt := Int.emod_lt_of_pos power (by omega : (0 : Int) < sides)
  have hface (face : Fin sides) : (power + sides - 1 - (face : Nat)) / (sides : Int) =
      power / sides + if ((face : Nat) : Int) < power % sides then 1 else 0 :=
    ediv_add_face (Int.natCast_nonneg _) (by omega)
  rw [Finset.sum_congr rfl fun face _ => hface face, Finset.sum_add_distrib, Fin.sum_const,
    nsmul_eq_mul, sum_below hrem (Int.le_of_lt hlt),
    Int.mul_ediv_add_emod]

/-- Such a quotient is the exact one, rounded down or up. -/
theorem ediv_face_eq_floor_or_ceil (power : Int) (face : Fin sides) :
    (power + sides - 1 - (face : Nat)) / (sides : Int) = ⌊(power : ℚ) / sides⌋ ∨
      (power + sides - 1 - (face : Nat)) / (sides : Int) = ⌈(power : ℚ) / sides⌉ := by
  have hlt := face.isLt
  rw [ediv_add_face (Int.natCast_nonneg _) (by omega), Rat.floor_intCast_div_natCast,
    Rat.ceil_intCast_div_natCast, Int.neg_ediv]
  split
  · rename_i hbelow
    have hdvd : ¬ (sides : Int) ∣ power := fun hdvd => by
      rw [Int.emod_eq_zero_of_dvd hdvd] at hbelow
      omega
    right
    rw [if_neg hdvd, Int.sign_eq_one_of_pos (by omega)]
    omega
  · left
    omega

/-- In low luck the hits of a group are its power divided by the sides of a die, rounded down
after the face of the die has been taken off, so that a face below the remainder rounds up. The die
is rolled for a remainder only. Over all faces the hits add up to the power, a lower face or more
power never means fewer hits, and no throw is a whole hit away from the exact quotient. -/
theorem hits_low_luck (units : List Combatant) (calculator : Calculator) (label : DiceLabel)
    (sides : Nat) (hsides : calculator.diceSides = sides) (hpos : 1 ≤ sides) :
    let table := build units calculator
    let power := table.totalPower
    ∃ roll : Fin sides → Roll, table.LowLuckRolls label roll ∧
      (¬ (sides : Int) ∣ power → 0 < power % sides ∧ power % sides < sides) ∧
      (∀ face, (roll face).hits = (power + sides - 1 - (face : Nat)) / sides) ∧
      ∑ face, (roll face).hits = power ∧
      (∀ face, (roll face).hits = ⌊(power : ℚ) / sides⌋ ∨
        (roll face).hits = ⌈(power : ℚ) / sides⌉) ∧
      (∀ face higher, face ≤ higher → (roll higher).hits ≤ (roll face).hits) ∧
      ∀ (units' : List Combatant) (calculator' : Calculator), calculator'.diceSides = sides →
        power ≤ (build units' calculator').totalPower →
        ∃ roll' : Fin sides → Roll, (build units' calculator').LowLuckRolls label roll' ∧
          ∀ face, (roll face).hits ≤ (roll' face).hits := by
  intro table power
  have hrange : table.InRange := inRange_build units calculator
  have hhits (face : Fin sides) := hrange.hits_rollOf_low_luck hsides label.player face
  refine ⟨_, hrange.lowLuckRolls hsides label, fun hdvd => ?_, hhits, ?_, fun face => ?_,
    fun face higher hle => ?_, fun units' calculator' hsides' hpower => ?_⟩
  · have hrem := Int.emod_nonneg power (by omega : (sides : Int) ≠ 0)
    have hne : power % sides ≠ 0 := fun hzero => hdvd (Int.dvd_of_emod_eq_zero hzero)
    exact ⟨by omega, Int.emod_lt_of_pos power (by omega)⟩
  · rw [Finset.sum_congr rfl fun face _ => hhits face]
    exact sum_ediv_faces hpos power
  · rw [hhits]
    exact ediv_face_eq_floor_or_ceil power face
  · rw [hhits, hhits]
    have hval : (face : Nat) ≤ higher := hle
    exact Int.ediv_le_ediv (by omega) (by omega)
  · have hrange' : (build units' calculator').InRange := inRange_build units' calculator'
    refine ⟨_, hrange'.lowLuckRolls hsides' label, fun face => ?_⟩
    rw [hhits, hrange'.hits_rollOf_low_luck hsides' label.player face]
    exact Int.ediv_le_ediv (by omega) (by omega)

/-- Armour and infantry with a power of ten hit once for sure, and a second time when the die falls
below the remainder of four. -/
theorem hits_low_luck_of_armour :
    let unit (id : Nat) (name : String) : Combatant := ⟨id, { name }, { name := "Germans" }⟩
    let units := [unit 0 "armour", unit 1 "infantry"]
    let calculator : Calculator :=
      { diceSides := 6
        values := fun unit =>
          if unit.id = 0 then { base := 4, strength := 4, rolls := 2 }
          else { base := 2, strength := 2, rolls := 1 } }
    let table := build units calculator
    let label : DiceLabel := ⟨"Germans", .combat, "Germans fire"⟩
    table.totalPower = 10 ∧ ¬ ((6 : Nat) : Int) ∣ 10 ∧
      ∃ roll : Fin 6 → Roll, table.LowLuckRolls label roll ∧
        (∀ face, (roll face).hits = if face < 4 then 2 else 1) ∧ ∑ face, (roll face).hits = 10 := by
  intro unit units calculator table label
  have hpower : table.totalPower = 10 := by decide
  obtain ⟨roll, hroll, -, hhits, hsum, -⟩ := hits_low_luck units calculator label 6 rfl (by decide)
  refine ⟨hpower, by decide, roll, hroll, fun face => ?_, hsum.trans hpower⟩
  rw [hhits, show (build units calculator).totalPower = 10 from hpower]
  revert face
  decide

end PowerTable

end Salvo
