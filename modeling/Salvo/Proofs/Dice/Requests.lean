import Salvo.Proofs.Dice.Sources

/-! # What sources are asked for

`Consulted` follows a source through the requests that are made of it, up to the first that fails.
Requests are sound if they ask for at least one die with at least one side, and a source is
dependable if it answers them: no request fails then (`Consulted.failure_eq_none`).

A `Recorder` writes down what its source is asked for. -/

namespace Salvo

structure DiceRequest.Sound (asked : DiceRequest) : Prop where
  sides_pos : 1 ≤ asked.sides
  count_pos : 1 ≤ asked.count

variable {σ : Type} [DiceSource σ]

/-- The sound requests that are made of a source in turn, and what is left of it. Only the last of
them fails, if one does. -/
inductive Consulted : σ → List DiceRequest → Option CombatError → σ → Prop
  | nil (source : σ) : Consulted source [] none source
  | failed {asked : DiceRequest} {source rest : σ} {error : CombatError} : asked.Sound →
      requestDice asked source = (.error error, rest) → Consulted source [asked] (some error) rest
  | cons {asked : DiceRequest} {requests : List DiceRequest} {source next rest : σ}
      {values : List Int} {failure : Option CombatError} : asked.Sound →
      requestDice asked source = (.ok values, next) → Consulted next requests failure rest →
      Consulted source (asked :: requests) failure rest

namespace DiceSource

/-- The source answers sound requests, now and later, with as many values as it is asked for. -/
def Dependable (source : σ) : Prop :=
  ∀ earlier, (∀ asked ∈ earlier, asked.Sound) → ∀ asked, asked.Sound →
    ∃ values rest, request asked (after source earlier) = (.ok values, rest) ∧
      asked.count ≤ values.length

end DiceSource

namespace Consulted

variable {source rest : σ} {requests : List DiceRequest} {failure : Option CombatError}

theorem sound (h : Consulted source requests failure rest) : ∀ asked ∈ requests, asked.Sound := by
  induction h with
  | nil => exact List.forall_mem_nil _
  | failed hsound _ => exact List.forall_mem_singleton.mpr hsound
  | cons hsound _ _ ih => exact List.forall_mem_cons.mpr ⟨hsound, ih⟩

theorem exists_last {error : CombatError} (h : Consulted source requests (some error) rest) :
    ∃ earlier last, requests = earlier ++ [last] ∧
      requestDice last (DiceSource.after source earlier) = (.error error, rest) := by
  generalize hfailure : some error = failure at h
  induction h with
  | nil => cases hfailure
  | failed _ hfailed =>
    cases hfailure
    exact ⟨[], _, rfl, hfailed⟩
  | @cons asked requests source next rest values failure _ hanswered _ ih =>
    obtain ⟨earlier, last, rfl, hlast⟩ := ih hfailure
    have hnext : next = (DiceSource.request asked source).2 := by
      rw [(requestDice_eq_ok_iff.mp hanswered).1]
    refine ⟨asked :: earlier, last, rfl, ?_⟩
    rw [DiceSource.after, List.foldl_cons, ← hnext]
    exact hlast

/-- A dependable source fails no request. -/
theorem failure_eq_none (h : Consulted source requests failure rest)
    (hsource : DiceSource.Dependable source) : failure = none := by
  cases failure with
  | none => rfl
  | some error =>
    obtain ⟨earlier, last, rfl, hlast⟩ := h.exists_last
    obtain ⟨hearlier, hsound⟩ := List.forall_mem_append.mp h.sound
    obtain ⟨values, left, hanswer, hcount⟩ :=
      hsource earlier hearlier last (List.forall_mem_singleton.mp hsound)
    rw [requestDice_eq_ok_iff.mpr ⟨hanswer, hcount⟩] at hlast
    cases hlast

end Consulted

theorem Generator.dependable (generator : Generator) : DiceSource.Dependable generator := by
  intro earlier _ asked hasked
  have hsides : ¬ asked.sides < 1 := Int.not_lt.mpr hasked.sides_pos
  refine ⟨_, _, if_neg hsides, Nat.le_of_eq ?_⟩
  rw [List.length_map, length_draws]

/-! ## Recorders -/

/-- Passes requests on to a source and writes them down. -/
structure Recorder (σ : Type) where
  source : σ
  requests : List DiceRequest := []

namespace Recorder

instance : DiceSource (Recorder σ) where
  request asked recorder :=
    let (answer, rest) := DiceSource.request asked recorder.source
    (answer, { source := rest, requests := recorder.requests ++ [asked] })

theorem requestDice_eq (asked : DiceRequest) (source : σ) (earlier : List DiceRequest) :
    requestDice asked (⟨source, earlier⟩ : Recorder σ) =
      ((requestDice asked source).1, ⟨(requestDice asked source).2, earlier ++ [asked]⟩) := by
  have hrequest : DiceSource.request asked (⟨source, earlier⟩ : Recorder σ) =
      ((DiceSource.request asked source).1,
        ⟨(DiceSource.request asked source).2, earlier ++ [asked]⟩) := rfl
  unfold requestDice
  rw [hrequest]
  rcases DiceSource.request asked source with ⟨_ | values, rest⟩
  · rfl
  · dsimp only
    split <;> rfl

end Recorder

end Salvo
