import Salvo.Json.Reader
import Salvo.Proofs.FirstFailure

/-! # What readers give

`Reader.Yields` says of a reader that its values have a property, whatever the text. A record has
a property if its defaults have it and every field keeps it, in whichever order the members of
an object come and however many of them are absent (`Yields.record`). -/

namespace Salvo.Json.Reader

variable {α β : Type} {reader : Reader α} {p : α → Prop} {q : β → Prop}

/-- All values that the reader gives have the property. -/
def Yields (reader : Reader α) (p : α → Prop) : Prop :=
  ∀ ⦃text value rest⦄, reader text = .ok (value, rest) → p value

theorem run_bind_eq_ok_iff {next : α → Reader β} {text rest : List Char} {result : β} :
    (reader >>= next) text = .ok (result, rest) ↔
      ∃ value left, reader text = .ok (value, left) ∧ next value left = .ok (result, rest) := by
  change (reader text >>= fun step => next step.1 step.2) = _ ↔ _
  rw [bind_eq_ok_iff, Prod.exists]

namespace Yields

theorem trivial (reader : Reader α) : reader.Yields fun _ => True := fun _ _ _ _ => True.intro

theorem pure {value : α} (h : p value) : Yields (Pure.pure value) p := by
  rintro text _ _ ⟨⟩
  exact h

theorem throw (problem : Problem) (p : α → Prop) :
    Yields (MonadExcept.throw problem : Reader α) p := by
  rintro text value rest ⟨⟩

theorem bind {next : α → Reader β} (h : reader.Yields p)
    (hnext : ∀ value, p value → (next value).Yields q) : (reader >>= next).Yields q := by
  intro text result rest hrun
  obtain ⟨value, left, hvalue, hresult⟩ := run_bind_eq_ok_iff.mp hrun
  exact hnext value (h hvalue) hresult

/-- What is read before does not matter. -/
theorem after {first : Reader α} {next : α → Reader β} (hnext : ∀ value, (next value).Yields q) :
    (first >>= next).Yields q :=
  (trivial first).bind fun value _ => hnext value

theorem ite {c : Prop} [Decidable c] {other : Reader α} (h : c → reader.Yields p)
    (hother : ¬ c → other.Yields p) : (if c then reader else other).Yields p := by
  split
  · exact h ‹_›
  · exact hother ‹_›

end Yields

theorem yields_wholeIn (least most : Int) :
    (wholeIn least most).Yields fun value => least ≤ value ∧ value ≤ most := by
  have hchecked : ∀ value : Int, Yields (α := Int)
      (if least ≤ value ∧ value ≤ most then Pure.pure value else throw .mismatch)
      fun value => least ≤ value ∧ value ≤ most :=
    fun value => .ite (fun h => .pure h) fun _ => .throw ..
  unfold wholeIn
  refine .after fun number => ?_
  split <;> exact .after hchecked

theorem Yields.elements (h : reader.Yields p) (fuel : List Char) (isFirst : Bool) :
    (elements reader fuel isFirst).Yields fun values => ∀ value ∈ values, p value := by
  induction fuel generalizing isFirst with
  | nil => exact .throw ..
  | cons _ fuel ih =>
    unfold Reader.elements
    refine .after fun goesOn => .ite (fun _ => ?_) fun _ => .pure (List.forall_mem_nil _)
    exact h.bind fun value hvalue => (ih false).bind fun values hvalues =>
      .pure (List.forall_mem_cons.mpr ⟨hvalue, hvalues⟩)

/-- A value of another type gives nothing. -/
theorem yields_mismatched (p : α → Prop) : (mismatched : Reader α).Yields p := by
  have hword {first : Reader Unit} : (first >>= fun _ => throw .mismatch).Yields p :=
    .after fun _ => .throw ..
  unfold mismatched
  -- All branches throw in the end, some of them after they have read a value.
  refine .after fun c => .ite (fun _ => hword) fun _ => .ite (fun _ => hword) fun _ =>
    .ite (fun _ => hword) fun _ => .ite (fun _ => .after fun _ => ?_) fun _ =>
    .ite (fun _ => ?_) fun _ => .ite (fun _ => hword) fun _ => .throw ..
  · exact .after fun _ => .throw ..
  · exact .after fun _ => .throw ..

theorem Yields.list (h : reader.Yields p) :
    (list reader).Yields fun values => ∀ value ∈ values, p value := by
  have hrest : Yields (do
      advance
      let values ← Reader.elements reader (← get) true
      endList
      return values) fun values => ∀ value ∈ values, p value :=
    .after fun _ => .after fun fuel => (h.elements fuel true).bind fun values hvalues =>
      .after fun _ => .pure hvalues
  unfold Reader.list
  refine .after fun c => .ite (fun _ => ?_) fun _ => hrest
  exact .after fun _ => hrest

/-! ## Records -/

/-- Reading the field into a record that has the property leaves it with the property. -/
def Field.Keeps (field : Field α) (p : α → Prop) : Prop :=
  field.read.Yields fun update => ∀ record, p record → p (update record)

theorem Field.keeps_required {name : String} {value : Reader β} {set : α → β → α}
    (hvalue : value.Yields q) (hset : ∀ record v, q v → p record → p (set record v)) :
    (Field.required name value set).Keeps p :=
  hvalue.bind fun v hv => .pure fun record => hset record v hv

theorem Field.keeps_optional {name : String} {value : Reader β} {set : α → β → α}
    (hvalue : value.Yields q) (hset : ∀ record v, q v → p record → p (set record v)) :
    (Field.optional name value set).Keeps p :=
  hvalue.bind fun v hv => .pure fun record => hset record v hv

section

variable {fields : List (Field α)} {value : α}

theorem yields_members (hfields : ∀ field ∈ fields, field.Keeps p) (fuel : List Char)
    (isFirst : Bool) (seen : List String) (h : p value) :
    (members fields fuel isFirst seen value).Yields p := by
  induction fuel generalizing isFirst seen value with
  | nil => exact .throw ..
  | cons _ fuel ih =>
    unfold members
    refine .after fun key => ?_
    split
    · split
      · exact .throw ..
      · exact .pure h
    · rename_i name
      split
      · exact .after fun _ => .after fun _ => ih false seen h
      · rename_i field hfield
        have hkeeps := hfields field (List.mem_of_find?_eq_some hfield)
        have hrest : Yields (do
            colon
            let update ← field.read
            members fields fuel false (name :: seen) (update value)) p :=
          .after fun _ => hkeeps.bind fun update hupdate =>
            ih false (name :: seen) (hupdate value h)
        exact .ite (fun _ => .after fun _ => hrest) fun _ => hrest

theorem yields_positions (hfields : ∀ field ∈ fields, field.Keeps p) (isFirst : Bool)
    (h : p value) : (positions fields isFirst value).Yields p := by
  induction fields generalizing isFirst value with
  | nil => exact .pure h
  | cons field fields ih =>
    obtain ⟨hfield, hfields⟩ := List.forall_mem_cons.mp hfields
    unfold positions
    refine .after fun goesOn => .ite (fun _ => ?_) fun _ => .ite (fun _ => .throw ..) fun _ => ?_
    · exact hfield.bind fun update hupdate => ih hfields false (hupdate value h)
    · exact ih hfields isFirst h

theorem Yields.record (hfields : ∀ field ∈ fields, field.Keeps p) (h : p value) :
    (record fields value).Yields p := by
  unfold Reader.record
  refine .after fun c => .ite (fun _ => ?_) fun _ => .ite (fun _ => ?_) fun _ => yields_mismatched p
  · exact .after fun _ => .after fun fuel => yields_members hfields fuel true [] h
  · exact .after fun _ => (yields_positions hfields true h).bind fun _ hread =>
      .after fun _ => .pure hread

end

/-! ## Converted values -/

theorem Yields.accept {convert : α → Except String β} (h : reader.Yields p)
    (hconvert : ∀ value result, p value → convert value = .ok result → q result) :
    (accept reader convert).Yields q := by
  unfold Reader.accept
  refine h.bind fun value hvalue => ?_
  split
  · rename_i result hresult
    exact .pure (hconvert value result hvalue hresult)
  · exact .throw ..

theorem Yields.of_parse (h : reader.Yields p) {text : String} {value : α}
    (hparse : parse reader text = .ok value) : p value := by
  unfold parse at hparse
  split at hparse
  · cases hparse
  · rename_i hread
    split at hparse
    · cases hparse
      exact h hread
    · cases hparse

end Salvo.Json.Reader
