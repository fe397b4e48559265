import Mathlib.Tactic.Tauto

/-! # Stages and first failures

Stages in a row succeed if each of them does, and fail with the first that fails
(`bind_eq_ok_iff`, `bind_eq_error_iff`). A stage that goes through a list fails with the first
element that does not have the property it asks for, which is what `IsFirstFailing` says of an
element. -/

namespace Salvo

/-! ## Stages -/

section

variable {ε ε' α β : Type} {step : Except ε α}

theorem bind_eq_ok_iff {next : α → Except ε β} {result : β} :
    step >>= next = .ok result ↔ ∃ value, step = .ok value ∧ next value = .ok result := by
  cases step <;> simp [bind, Except.bind]

theorem bind_eq_error_iff {next : α → Except ε β} {error : ε} :
    step >>= next = .error error ↔
      step = .error error ∨ ∃ value, step = .ok value ∧ next value = .error error := by
  cases step <;> simp [bind, Except.bind]

theorem mapError_eq_ok_iff {f : ε → ε'} {value : α} :
    step.mapError f = .ok value ↔ step = .ok value := by
  cases step <;> simp [Except.mapError]

theorem mapError_eq_error_iff {f : ε → ε'} {error : ε'} :
    step.mapError f = .error error ↔ ∃ cause, step = .error cause ∧ f cause = error := by
  cases step <;> simp [Except.mapError]

/-- A stage of which one shows the result has succeeded. -/
theorem exists_ok_of_toOption_map {f : α → β} {shown : β}
    (h : step.toOption.map f = some shown) : ∃ value, step = .ok value ∧ f value = shown := by
  cases step with
  | error error => cases h
  | ok value => exact ⟨value, rfl, Option.some.inj h⟩

end

/-! ## First failures -/

/-- The element is the first of the list that does not have the property. -/
def IsFirstFailing {α : Type} (p : α → Prop) (xs : List α) (x : α) : Prop :=
  ∃ before after, xs = before ++ x :: after ∧ (∀ y ∈ before, p y) ∧ ¬ p x

section

variable {α : Type} {p : α → Prop} {xs ys : List α} {x y : α}

theorem not_isFirstFailing_nil (p : α → Prop) (x : α) : ¬ IsFirstFailing p [] x := by
  rintro ⟨before, after, h, -⟩
  cases before <;> cases h

theorem isFirstFailing_cons :
    IsFirstFailing p (y :: ys) x ↔ ¬ p y ∧ x = y ∨ p y ∧ IsFirstFailing p ys x := by
  constructor
  · rintro ⟨before, after, h, hbefore, hx⟩
    cases before with
    | nil =>
      cases h
      exact .inl ⟨hx, rfl⟩
    | cons first before =>
      cases h
      obtain ⟨hfirst, hbefore⟩ := List.forall_mem_cons.mp hbefore
      exact .inr ⟨hfirst, before, after, rfl, hbefore, hx⟩
  · rintro (⟨hx, rfl⟩ | ⟨hy, before, after, rfl, hbefore, hx⟩)
    · exact ⟨[], ys, rfl, List.forall_mem_nil _, hx⟩
    · exact ⟨y :: before, after, rfl, List.forall_mem_cons.mpr ⟨hy, hbefore⟩, hx⟩

theorem exists_isFirstFailing_cons {r : α → Prop} :
    (∃ x, IsFirstFailing p (y :: ys) x ∧ r x) ↔
      ¬ p y ∧ r y ∨ p y ∧ ∃ x, IsFirstFailing p ys x ∧ r x := by
  simp only [isFirstFailing_cons]
  constructor
  · rintro ⟨x, ⟨hy, rfl⟩ | ⟨hy, hx⟩, hr⟩
    · exact .inl ⟨hy, hr⟩
    · exact .inr ⟨hy, x, hx, hr⟩
  · rintro (⟨hy, hr⟩ | ⟨hy, x, hx, hr⟩)
    · exact ⟨y, .inl ⟨hy, rfl⟩, hr⟩
    · exact ⟨x, .inr ⟨hy, hx⟩, hr⟩

theorem isFirstFailing_append :
    IsFirstFailing p (xs ++ ys) x ↔
      IsFirstFailing p xs x ∨ (∀ y ∈ xs, p y) ∧ IsFirstFailing p ys x := by
  induction xs with
  | nil => simp [not_isFirstFailing_nil]
  | cons first xs ih =>
    rw [List.cons_append, isFirstFailing_cons, isFirstFailing_cons, ih, List.forall_mem_cons]
    tauto

theorem IsFirstFailing.mem (h : IsFirstFailing p xs x) : x ∈ xs := by
  obtain ⟨before, after, rfl, -, -⟩ := h
  exact List.mem_append_right _ List.mem_cons_self

theorem IsFirstFailing.not (h : IsFirstFailing p xs x) : ¬ p x := by
  obtain ⟨before, after, -, -, hx⟩ := h
  exact hx

theorem IsFirstFailing.not_forall (h : IsFirstFailing p xs x) : ¬ ∀ y ∈ xs, p y :=
  fun hall => h.not (hall x h.mem)

theorem forall_or_exists_isFirstFailing (p : α → Prop) (xs : List α) :
    (∀ y ∈ xs, p y) ∨ ∃ x, IsFirstFailing p xs x := by
  induction xs with
  | nil => exact .inl (List.forall_mem_nil _)
  | cons y ys ih =>
    simp only [List.forall_mem_cons, isFirstFailing_cons]
    by_cases hy : p y
    · rcases ih with hall | ⟨x, hx⟩
      · exact .inl ⟨hy, hall⟩
      · exact .inr ⟨x, .inr ⟨hy, hx⟩⟩
    · exact .inr ⟨y, .inl ⟨hy, rfl⟩⟩

/-- A search for an element without a property finds the first. -/
theorem find?_eq_some_iff_isFirstFailing {q : α → Bool} (hq : ∀ y, q y = true ↔ ¬ p y) :
    xs.find? q = some x ↔ IsFirstFailing p xs x := by
  induction xs with
  | nil => simp [not_isFirstFailing_nil]
  | cons first xs ih =>
    rw [isFirstFailing_cons, ← ih, List.find?_cons]
    cases hfirst : q first with
    | true => simp [(hq first).mp hfirst, eq_comm]
    | false =>
      have hp : p first := by
        refine Classical.byContradiction fun hp => ?_
        rw [(hq first).mpr hp] at hfirst
        cases hfirst
      simp [hp]

theorem find?_eq_none_iff_forall {q : α → Bool} (hq : ∀ y, q y = true ↔ ¬ p y) :
    xs.find? q = none ↔ ∀ y ∈ xs, p y := by
  rw [List.find?_eq_none]
  simp only [hq, not_not]

end

end Salvo
