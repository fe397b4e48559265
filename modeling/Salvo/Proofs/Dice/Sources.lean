import Salvo.Amount
import Salvo.Dice.Throw
import Salvo.Proofs.FirstFailure

/-! # What sources deal

`Deals` is the answer of a source as a throw sees it: the source is asked for dice, unless there
are none to be asked for, and an answer that is too short does not count. A script deals its first
values, and a generator as many as it is asked for.

An answer may have more values than were asked for. `DiceSource.Measured` bounds it by the range of
amounts, as every request is. -/

namespace Salvo

variable {σ : Type} [DiceSource σ]

theorem requestDice_eq_ok_iff {asked : DiceRequest} {source rest : σ} {values : List Int} :
    requestDice asked source = (.ok values, rest) ↔
      DiceSource.request asked source = (.ok values, rest) ∧ asked.count ≤ values.length := by
  unfold requestDice
  split
  · rename_i herror
    simp [herror]
  · rename_i answer left hanswer
    rw [hanswer]
    split
    · rename_i hshort
      refine iff_of_false (by simp) ?_
      rintro ⟨heq, hcount⟩
      cases heq
      omega
    · rename_i hlong
      constructor
      · intro heq
        cases heq
        exact ⟨rfl, by omega⟩
      · rintro ⟨heq, _⟩
        cases heq
        rfl

theorem requestDice_of_ok {asked : DiceRequest} {source rest : σ} {values : List Int}
    (h : DiceSource.request asked source = (.ok values, rest)) :
    requestDice asked source =
      if values.length < asked.count then
        (.error (.shortRoll asked.count values.length), rest)
      else (.ok values, rest) := by
  unfold requestDice
  rw [h]

theorem requestDice_of_error {asked : DiceRequest} {source rest : σ} {cause : DiceError}
    (h : DiceSource.request asked source = (.error cause, rest)) :
    requestDice asked source = (.error (.dice cause), rest) := by
  unfold requestDice
  rw [h]

theorem request_of_requestDice_eq_error {asked : DiceRequest} {source rest : σ}
    {error : CombatError} (h : requestDice asked source = (.error error, rest)) :
    (∃ cause, DiceSource.request asked source = (.error cause, rest) ∧ error = .dice cause) ∨
    ∃ values, DiceSource.request asked source = (.ok values, rest) ∧
      values.length < asked.count ∧ error = .shortRoll asked.count values.length := by
  unfold requestDice at h
  split at h
  · rename_i cause left hcause
    cases h
    exact .inl ⟨cause, hcause, rfl⟩
  · rename_i answer left hanswer
    split at h
    · rename_i hshort
      cases h
      exact .inr ⟨answer, hanswer, hshort, rfl⟩
    · cases h

/-- The source gives `values` when it is asked and goes on as `rest`. For no dice it is not
asked. -/
def Deals (asked : DiceRequest) (source : σ) (values : List Int) (rest : σ) : Prop :=
  if asked.count = 0 then values = [] ∧ rest = source
  else requestDice asked source = (.ok values, rest)

namespace Deals

variable {asked : DiceRequest} {source rest : σ} {values : List Int}

theorem count_le (h : Deals asked source values rest) : asked.count ≤ values.length := by
  unfold Deals at h
  split at h
  · omega
  · exact (requestDice_eq_ok_iff.mp h).2

theorem eq_nil (h : Deals asked source values rest) (hcount : asked.count = 0) : values = [] := by
  rw [Deals, if_pos hcount] at h
  exact h.1

end Deals

/-! ## Scripts and generators -/

theorem Script.deal_eq_ok {sides : Int} {count : Nat} {script rest : Script} {values : List Int}
    (h : script.deal sides count = (.ok values, rest)) :
    count ≤ script.values.length ∧ values = script.values.take count ∧
      rest = ⟨script.values.drop count, script.consumed + count⟩ := by
  unfold deal at h
  split at h
  · cases h
  · split at h
    · cases h
    · dsimp only at h
      split at h
      · cases h
      · cases h
        exact ⟨by omega, rfl, rfl⟩

/-- What a script deals are faces of a die. -/
theorem Script.faces_of_deal_eq_ok {sides : Int} {count : Nat} {script rest : Script}
    {values : List Int} (h : script.deal sides count = (.ok values, rest)) :
    1 ≤ sides ∧ ∀ value ∈ values, isFace sides value := by
  unfold deal at h
  split at h
  · cases h
  · split at h
    · cases h
    · dsimp only at h
      split at h
      · cases h
      · rename_i hfaces
        cases h
        exact ⟨by omega, by simpa using hfaces⟩

theorem Script.deal_of_short {sides : Int} {count : Nat} {script : Script} (hsides : 1 ≤ sides)
    (hcount : script.values.length < count) :
    script.deal sides count = (.error (.exhausted count script.values.length), script) := by
  unfold deal
  rw [if_neg (by omega), if_pos hcount]

/-- A script fails where it ends, and at a value that is no face of the die. -/
theorem Script.cause_of_deal_eq_error {sides : Int} {count : Nat} {script rest : Script}
    {cause : DiceError} (hsides : 1 ≤ sides) (h : script.deal sides count = (.error cause, rest)) :
    cause = .exhausted count script.values.length ∨ ∃ value, cause = .outOfRange value sides := by
  unfold deal at h
  rw [if_neg (by omega)] at h
  split at h
  · cases h
    exact .inl rfl
  · dsimp only at h
    split at h
    · cases h
      exact .inr ⟨_, rfl⟩
    · cases h

/-- A script deals its first values if they are faces of the die. -/
theorem Script.deal_of_faces {sides : Int} {count : Nat} {script : Script} (hsides : 1 ≤ sides)
    (hcount : count ≤ script.values.length)
    (hfaces : ∀ value ∈ script.values.take count, isFace sides value) :
    script.deal sides count = (.ok (script.values.take count),
      ⟨script.values.drop count, script.consumed + count⟩) := by
  have hnone : (script.values.take count).find? (!isFace sides ·) = none :=
    List.find?_eq_none.mpr fun value hvalue => by simp [hfaces value hvalue]
  unfold deal
  rw [if_neg (by omega), if_neg (by omega)]
  dsimp only
  rw [hnone]

theorem Deals.script {asked : DiceRequest} {script rest : Script} {values : List Int}
    (h : Deals asked script values rest) :
    asked.count ≤ script.values.length ∧ values = script.values.take asked.count ∧
      rest = ⟨script.values.drop asked.count, script.consumed + asked.count⟩ := by
  unfold Deals at h
  split at h
  · rename_i hcount
    obtain ⟨rfl, rfl⟩ := h
    rw [hcount]
    exact ⟨Nat.zero_le _, rfl, rfl⟩
  · exact Script.deal_eq_ok (requestDice_eq_ok_iff.mp h).1

/-- A script that is cut short still deals what it has, and fails where it ends. -/
theorem Deals.shortened {asked : DiceRequest} {values more dealt : List Int} {consumed : Nat}
    {rest : Script} (h : Deals asked (⟨values ++ more, consumed⟩ : Script) dealt rest) :
    if asked.count ≤ values.length then
      Deals asked (⟨values, consumed⟩ : Script) dealt
        ⟨values.drop asked.count, consumed + asked.count⟩
    else
      requestDice asked (⟨values, consumed⟩ : Script) =
        (.error (.dice (.exhausted asked.count values.length)), ⟨values, consumed⟩) := by
  unfold Deals at h ⊢
  split
  · rename_i hcount
    split
    · rename_i hzero
      rw [if_pos hzero] at h
      rw [hzero]
      exact ⟨h.1, rfl⟩
    · rename_i hsome
      rw [if_neg hsome, requestDice_eq_ok_iff] at h
      obtain ⟨hsides, hfaces⟩ := Script.faces_of_deal_eq_ok h.1
      obtain ⟨_, rfl, _⟩ := Script.deal_eq_ok h.1
      rw [List.take_append_of_le_length hcount] at hfaces ⊢
      exact requestDice_eq_ok_iff.mpr ⟨Script.deal_of_faces hsides hcount hfaces, by simp [hcount]⟩
  · rename_i hcount
    rw [if_neg (by omega), requestDice_eq_ok_iff] at h
    obtain ⟨hsides, _⟩ := Script.faces_of_deal_eq_ok h.1
    exact requestDice_of_error (Script.deal_of_short hsides (by simpa using hcount))

theorem Generator.length_of_deal_eq_ok {sides : Int} {count : Nat} {generator rest : Generator}
    {values : List Int} (h : generator.deal sides count = (.ok values, rest)) :
    values.length = count := by
  unfold deal at h
  split at h
  · cases h
  · cases h
    rw [List.length_map, length_draws]

/-! ## The length of answers -/

namespace DiceSource

/-- The source as the requests leave it, whatever it answers. -/
def after (source : σ) (asked : List DiceRequest) : σ :=
  asked.foldl (fun source asked => (request asked source).2) source

/-- A source is to give as many values as it is asked for, and a few more do no harm: no answer,
now or later, has more than were asked for and more than the range of amounts. -/
def Measured (source : σ) : Prop :=
  ∀ earlier asked values rest, request asked (after source earlier) = (.ok values, rest) →
    values.length ≤ max asked.count Amount.most.toNat

theorem Measured.rest {source rest : σ} (h : Measured source) {asked : DiceRequest}
    {values : List Int} (hdeals : Deals asked source values rest) : Measured rest := by
  unfold Deals at hdeals
  split at hdeals
  · exact hdeals.2 ▸ h
  · intro earlier
    have hrest : rest = (request asked source).2 := by
      rw [(requestDice_eq_ok_iff.mp hdeals).1]
    rw [hrest]
    exact h (asked :: earlier)

theorem Measured.length_le {source rest : σ} (h : Measured source) {asked : DiceRequest}
    {values : List Int} (hdeals : Deals asked source values rest)
    (hcount : asked.count ≤ Amount.most.toNat) : values.length ≤ Amount.most.toNat := by
  unfold Deals at hdeals
  split at hdeals
  · rw [hdeals.1]
    exact Nat.zero_le _
  · have hle := h [] asked values rest (requestDice_eq_ok_iff.mp hdeals).1
    rwa [Nat.max_eq_right hcount] at hle

end DiceSource

theorem Script.measured (script : Script) : DiceSource.Measured script := by
  intro earlier asked values rest h
  obtain ⟨hcount, rfl, _⟩ := deal_eq_ok h
  rw [List.length_take_of_le hcount]
  exact Nat.le_max_left ..

theorem Generator.measured (generator : Generator) : DiceSource.Measured generator := by
  intro earlier asked values rest h
  rw [length_of_deal_eq_ok h]
  exact Nat.le_max_left ..

/-- Prepared answers are measured if each of them is in the range of amounts. -/
theorem Batches.measured {batches : List (List Int)}
    (h : ∀ batch ∈ batches, batch.length ≤ Amount.most.toNat) :
    DiceSource.Measured (Batches.mk batches) := by
  intro earlier
  induction earlier generalizing batches with
  | nil =>
    intro asked values rest hdeal
    cases batches with
    | nil =>
      cases hdeal
      exact Nat.zero_le _
    | cons batch batches =>
      cases hdeal
      exact Nat.le_trans (h values List.mem_cons_self) (Nat.le_max_right ..)
  | cons _ earlier ih =>
    cases batches with
    | nil => exact ih h
    | cons batch batches => exact ih fun other hother => h other (List.mem_cons_of_mem _ hother)

end Salvo
