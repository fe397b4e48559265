import Mathlib.Data.List.Forall2
import Salvo.Proofs.Dice.Sources

/-! # The accounts of a script

A request that is dealt its dice takes them off the script, and one that meets a value that is no
face of its die loses as many values as it asked for. All other failures take nothing
(`DiceRequest.Takes`). So at any point of a run the script is what the requests have taken, one
batch after the other, and what is left of it, and it has counted the values that were dealt
(`Script.accounts`).

It does not matter whether dice are dealt to one request or to two. -/

namespace Salvo

/-- A request with this answer takes the batch off a script. -/
inductive DiceRequest.Takes (asked : DiceRequest) : Except DiceError (List Int) → List Int → Prop
  | dealt {batch : List Int} : batch.length = asked.count →
      (∀ value ∈ batch, isFace asked.sides value) → Takes asked (.ok batch) batch
  | discarded {batch : List Int} {value : Int} : batch.length = asked.count →
      batch.find? (!isFace asked.sides ·) = some value →
      Takes asked (.error (.outOfRange value asked.sides)) batch
  | invalidSides : asked.sides < 1 → Takes asked (.error (.invalidSides asked.sides)) []
  | exhausted {remaining : Nat} : remaining < asked.count →
      Takes asked (.error (.exhausted asked.count remaining)) []

namespace DiceSource

variable {σ : Type} [DiceSource σ]

/-- Requests made of a source in turn, whatever it answers, with their answers. -/
def exchanges (source : σ) : List DiceRequest → List (DiceRequest × Except DiceError (List Int))
  | [] => []
  | asked :: later => (asked, (request asked source).1) :: exchanges (request asked source).2 later

section

variable {source rest : σ} {asked : DiceRequest} {answer : Except DiceError (List Int)}

theorem exchanges_cons (h : request asked source = (answer, rest)) (later : List DiceRequest) :
    exchanges source (asked :: later) = (asked, answer) :: exchanges rest later := by
  rw [exchanges, h]

theorem after_cons (h : request asked source = (answer, rest)) (later : List DiceRequest) :
    after source (asked :: later) = after rest later := by
  rw [after, List.foldl_cons, h]
  rfl

end

end DiceSource

open DiceSource

namespace Script

/-- What a request does to a script. -/
theorem exists_takes {asked : DiceRequest} {script rest : Script}
    {answer : Except DiceError (List Int)} (h : request asked script = (answer, rest)) :
    ∃ batch, asked.Takes answer batch ∧ script.values = batch ++ rest.values ∧
      rest.consumed = script.consumed + if answer.isOk then asked.count else 0 := by
  change script.deal asked.sides asked.count = (answer, rest) at h
  unfold deal at h
  split at h
  · rename_i hsides
    cases h
    exact ⟨[], .invalidSides hsides, rfl, rfl⟩
  · split at h
    · rename_i hshort
      cases h
      exact ⟨[], .exhausted hshort, rfl, rfl⟩
    · rename_i hcount
      have hlength : (script.values.take asked.count).length = asked.count :=
        List.length_take_of_le (Nat.le_of_not_lt hcount)
      have hsplit := (List.take_append_drop asked.count script.values).symm
      dsimp only at h
      split at h
      · rename_i value hvalue
        cases h
        exact ⟨_, .discarded hlength hvalue, hsplit, rfl⟩
      · rename_i hfaces
        cases h
        exact ⟨_, .dealt hlength (by simpa using hfaces), hsplit, rfl⟩

/-- A failure takes nothing, unless a value was at fault. -/
theorem eq_of_request_eq_error {asked : DiceRequest} {script rest : Script} {error : DiceError}
    (h : request asked script = (.error error, rest))
    (hvalues : ∀ value sides, error ≠ .outOfRange value sides) : rest = script := by
  obtain ⟨batch, htakes, hsame, hconsumed⟩ := exists_takes h
  cases script
  cases rest
  cases htakes with
  | discarded => exact absurd rfl (hvalues _ _)
  | invalidSides =>
    cases hsame
    cases hconsumed
    rfl
  | exhausted =>
    cases hsame
    cases hconsumed
    rfl

theorem deal_eq_ok_iff {sides : Int} {count : Nat} {script rest : Script} {values : List Int} :
    script.deal sides count = (.ok values, rest) ↔
      1 ≤ sides ∧ count ≤ script.values.length ∧ values = script.values.take count ∧
        (∀ value ∈ values, isFace sides value) ∧
        rest = ⟨script.values.drop count, script.consumed + count⟩ := by
  constructor
  · intro h
    obtain ⟨hsides, hfaces⟩ := faces_of_deal_eq_ok h
    obtain ⟨hcount, hvalues, hrest⟩ := deal_eq_ok h
    exact ⟨hsides, hcount, hvalues, hfaces, hrest⟩
  · rintro ⟨hsides, hcount, rfl, hfaces, rfl⟩
    exact deal_of_faces hsides hcount hfaces

/-- Dice are dealt to one request just as they are to two, one after the other. -/
theorem deal_add_eq_ok_iff {sides : Int} {count more : Nat} {script rest : Script}
    {values : List Int} :
    script.deal sides (count + more) = (.ok values, rest) ↔
      ∃ first second next, script.deal sides count = (.ok first, next) ∧
        next.deal sides more = (.ok second, rest) ∧ values = first ++ second := by
  constructor
  · intro h
    obtain ⟨hsides, hcount, rfl, hfaces, rfl⟩ := deal_eq_ok_iff.mp h
    rw [List.take_add, List.forall_mem_append] at hfaces
    refine ⟨script.values.take count, (script.values.drop count).take more,
      ⟨script.values.drop count, script.consumed + count⟩, ?_, ?_, List.take_add⟩
    · exact deal_eq_ok_iff.mpr ⟨hsides, by omega, rfl, hfaces.1, rfl⟩
    · refine deal_eq_ok_iff.mpr ⟨hsides, ?_, rfl, hfaces.2, ?_⟩
      · rw [List.length_drop]
        omega
      · rw [List.drop_drop, Nat.add_assoc]
  · rintro ⟨first, second, next, hfirst, hsecond, rfl⟩
    obtain ⟨hsides, hcount, rfl, hfaces, rfl⟩ := deal_eq_ok_iff.mp hfirst
    obtain ⟨-, hmore, rfl, hrest, rfl⟩ := deal_eq_ok_iff.mp hsecond
    rw [List.length_drop] at hmore
    refine deal_eq_ok_iff.mpr ⟨hsides, by omega, List.take_add.symm, ?_, ?_⟩
    · exact List.forall_mem_append.mpr ⟨hfaces, hrest⟩
    · rw [List.drop_drop, Nat.add_assoc]

/-- How many values requests with these answers were dealt. -/
def dealt (exchanges : List (DiceRequest × Except DiceError (List Int))) : Nat :=
  ((exchanges.filter (·.2.isOk)).map (·.1.count)).sum

theorem dealt_cons (asked : DiceRequest) (answer : Except DiceError (List Int))
    (exchanges : List (DiceRequest × Except DiceError (List Int))) :
    dealt ((asked, answer) :: exchanges) =
      (if answer.isOk then asked.count else 0) + dealt exchanges := by
  unfold dealt
  rw [List.filter_cons]
  split
  · rfl
  · exact (Nat.zero_add _).symm

/-- Whatever is asked of a script, each request takes a batch of its own, the values that it is
dealt or as many that it discards. After any number of the requests the script is what these have
taken and what is left, and it has counted the values that they were dealt. A request without sides
and one for more values than are left change nothing. A request that is dealt its dice might as
well be two that are dealt theirs. -/
theorem accounts (script : Script) :
    (∀ requests, ∃ batches,
      List.Forall₂ (fun exchange batch => exchange.1.Takes exchange.2 batch)
        (exchanges script requests) batches ∧
      ∀ count,
        let rest := after script (requests.take count)
        script.values = (batches.take count).flatten ++ rest.values ∧
        rest.consumed = script.consumed + dealt ((exchanges script requests).take count)) ∧
    (∀ asked error rest, request asked script = (.error error, rest) →
      (∀ value sides, error ≠ .outOfRange value sides) → rest = script) ∧
    ∀ sides count more label values rest,
      request ⟨sides, count + more, label⟩ script = (.ok values, rest) ↔
        ∃ first second next, request ⟨sides, count, label⟩ script = (.ok first, next) ∧
          request ⟨sides, more, label⟩ next = (.ok second, rest) ∧ values = first ++ second := by
  refine ⟨fun requests => ?_, fun asked error rest => eq_of_request_eq_error,
    fun _ _ _ _ _ _ => deal_add_eq_ok_iff⟩
  induction requests generalizing script with
  | nil =>
    refine ⟨[], .nil, fun count => ?_⟩
    cases count <;> exact ⟨rfl, rfl⟩
  | cons asked requests ih =>
    cases hasked : request asked script with
    | mk answer next =>
      obtain ⟨batch, htakes, hvalues, hconsumed⟩ := exists_takes hasked
      obtain ⟨batches, hexchanges, hlater⟩ := ih next
      rw [exchanges_cons hasked]
      refine ⟨batch :: batches, .cons htakes hexchanges, fun count => ?_⟩
      cases count with
      | zero => exact ⟨rfl, rfl⟩
      | succ count =>
        obtain ⟨hrest, hcounted⟩ := hlater count
        rw [List.take_succ_cons, List.take_succ_cons, List.take_succ_cons, after_cons hasked,
          List.flatten_cons, dealt_cons]
        constructor
        · rw [hvalues, List.append_assoc, ← hrest]
        · rw [hcounted, hconsumed, Nat.add_assoc]

/-- The second request loses its values with the six, and the two behind it change nothing. -/
example :
    let asked (sides : Int) (count : Nat) : DiceRequest := ⟨sides, count, ⟨"Germans", .combat, ""⟩⟩
    let script : Script := { values := [3, 1, 6, 2] }
    let requests := [asked 6 1, asked 6 2, asked 0 1, asked 6 2, asked 4 1]
    (exchanges script requests).map (·.2) =
        [.ok [3], .error (.outOfRange 6 6), .error (.invalidSides 0), .error (.exhausted 2 1),
          .ok [2]] ∧
      after script requests = ⟨[], 2⟩ := by
  decide

end Script

end Salvo
