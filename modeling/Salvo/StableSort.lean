/-! # Stable sorting

`sortOn` sorts a list by a key, smallest first. Elements with equal keys keep their places among
themselves, so that sorting a part of a list gives that part of the sorted list.

The list is sorted by merging; `sortOn_cons` says that this is insertion of the elements from the
last to the first. -/

namespace Salvo

variable {α β : Type}

/-- Puts an element in front of the first one whose key is not smaller. -/
def insertOn (key : α → Int) (x : α) : List α → List α
  | [] => [x]
  | y :: ys => if key x ≤ key y then x :: y :: ys else y :: insertOn key x ys

/-- Goes on with `rest` once the elements with keys below that of `x`, and `x`, are in place. -/
def mergeInto (key : α → Int) (x : α) (rest : List α → List α) : List α → List α
  | [] => x :: rest []
  | y :: ys => if key x ≤ key y then x :: rest (y :: ys) else y :: mergeInto key x rest ys

/-- Merges two sorted lists. Of equal keys those of the first list come first. -/
def mergeOn (key : α → Int) : List α → List α → List α
  | [], ys => ys
  | x :: xs, ys => mergeInto key x (mergeOn key xs) ys

/-- Sorts a list by halves; a list has to be no longer than the fuel. -/
def mergeSortOn (key : α → Int) : Nat → List α → List α
  | fuel + 1, x :: y :: xs =>
    let all := x :: y :: xs
    let half := all.length / 2
    mergeOn key (mergeSortOn key fuel (all.take half)) (mergeSortOn key fuel (all.drop half))
  | _, xs => xs

/-- Sorts a list by a key that is computed once for each element. -/
def sortOn (key : α → Int) (xs : List α) : List α :=
  (mergeSortOn (·.1) xs.length (xs.map fun x => (key x, x))).map (·.2)

/-! ## Sorting by insertion -/

def insertAllOn (key : α → Int) (xs : List α) : List α := xs.foldr (insertOn key) []

theorem insertAllOn_cons (key : α → Int) (x : α) (xs : List α) :
    insertAllOn key (x :: xs) = insertOn key x (insertAllOn key xs) := rfl

theorem mergeOn_nil (key : α → Int) (xs : List α) : mergeOn key xs [] = xs := by
  induction xs with
  | nil => rfl
  | cons x xs ih => rw [mergeOn, mergeInto, ih]

theorem mergeOn_cons_cons (key : α → Int) (x y : α) (xs ys : List α) :
    mergeOn key (x :: xs) (y :: ys) =
      if key x ≤ key y then x :: mergeOn key xs (y :: ys) else y :: mergeOn key (x :: xs) ys := rfl

theorem mergeOn_singleton (key : α → Int) (x : α) (ys : List α) :
    mergeOn key [x] ys = insertOn key x ys := by
  induction ys with
  | nil => rfl
  | cons y ys ih => rw [mergeOn_cons_cons, insertOn, ih, mergeOn]

/-- An element that goes into the first list goes to the same place of the merged one. -/
theorem mergeOn_insertOn (key : α → Int) (x : α) (xs ys : List α) :
    mergeOn key (insertOn key x xs) ys = insertOn key x (mergeOn key xs ys) := by
  induction xs generalizing ys with
  | nil => exact mergeOn_singleton key x ys
  | cons z zs ih =>
    induction ys with
    | nil => rw [mergeOn_nil, mergeOn_nil]
    | cons y ys ihy =>
      by_cases hxz : key x ≤ key z
      · rw [insertOn, if_pos hxz] at ihy ⊢
        rw [mergeOn_cons_cons]
        by_cases hzy : key z ≤ key y
        · rw [if_pos (Int.le_trans hxz hzy), mergeOn_cons_cons, if_pos hzy, insertOn, if_pos hxz]
        · rw [mergeOn_cons_cons, if_neg hzy, ihy, insertOn]
      · rw [insertOn, if_neg hxz] at ihy ⊢
        rw [mergeOn_cons_cons, mergeOn_cons_cons]
        by_cases hzy : key z ≤ key y
        · rw [if_pos hzy, if_pos hzy, insertOn, if_neg hxz, ih]
        · have hxy : ¬ key x ≤ key y := by omega
          rw [if_neg hzy, if_neg hzy, insertOn, if_neg hxy, ihy]

theorem mergeOn_insertAllOn (key : α → Int) (xs ys : List α) :
    mergeOn key (insertAllOn key xs) (insertAllOn key ys) = insertAllOn key (xs ++ ys) := by
  induction xs with
  | nil => rfl
  | cons x xs ih => rw [insertAllOn_cons, mergeOn_insertOn, ih, List.cons_append, insertAllOn_cons]

theorem mergeSortOn_eq (key : α → Int) (fuel : Nat) (xs : List α) (h : xs.length ≤ fuel) :
    mergeSortOn key fuel xs = insertAllOn key xs := by
  induction fuel generalizing xs with
  | zero =>
    cases xs with
    | nil => rfl
    | cons x xs => simp at h
  | succ fuel ih =>
    match xs with
    | [] => rfl
    | [_] => rfl
    | x :: y :: xs =>
      simp only [List.length_cons] at h
      rw [mergeSortOn, ih, ih, mergeOn_insertAllOn, List.take_append_drop]
      · simp only [List.length_drop, List.length_cons]
        omega
      · simp only [List.length_take, List.length_cons]
        omega

theorem map_insertOn (f : α → β) (key : β → Int) (x : α) (xs : List α) :
    (insertOn (fun x => key (f x)) x xs).map f = insertOn key (f x) (xs.map f) := by
  induction xs with
  | nil => rfl
  | cons y ys ih =>
    simp only [insertOn, List.map_cons]
    split
    · rfl
    · rw [List.map_cons, ih]

theorem map_insertAllOn (f : α → β) (key : β → Int) (xs : List α) :
    (insertAllOn (fun x => key (f x)) xs).map f = insertAllOn key (xs.map f) := by
  induction xs with
  | nil => rfl
  | cons x xs ih => rw [insertAllOn_cons, map_insertOn, ih, List.map_cons, insertAllOn_cons]

theorem sortOn_eq (key : α → Int) (xs : List α) : sortOn key xs = insertAllOn key xs := by
  have h := map_insertAllOn (fun x => (key x, x)) (fun p : Int × α => p.1) xs
  rw [sortOn, mergeSortOn_eq _ _ _ (by simp), ← h]
  simp [Function.comp_def]

/-! ## Laws of sorting -/

@[simp] theorem sortOn_nil (key : α → Int) : sortOn key [] = [] := rfl

theorem sortOn_cons (key : α → Int) (x : α) (xs : List α) :
    sortOn key (x :: xs) = insertOn key x (sortOn key xs) := by
  rw [sortOn_eq, sortOn_eq, insertAllOn_cons]

theorem map_sortOn (f : α → β) (key : β → Int) (xs : List α) :
    (sortOn (fun x => key (f x)) xs).map f = sortOn key (xs.map f) := by
  rw [sortOn_eq, sortOn_eq, map_insertAllOn]

theorem perm_insertOn (key : α → Int) (x : α) (xs : List α) :
    (insertOn key x xs).Perm (x :: xs) := by
  induction xs with
  | nil => exact .refl _
  | cons y ys ih =>
    rw [insertOn]
    split
    · exact .refl _
    · exact (ih.cons y).trans (.swap x y ys)

theorem perm_sortOn (key : α → Int) (xs : List α) : (sortOn key xs).Perm xs := by
  induction xs with
  | nil => exact .refl _
  | cons x xs ih =>
    rw [sortOn_cons]
    exact (perm_insertOn key x _).trans (ih.cons x)

@[simp] theorem mem_sortOn {key : α → Int} {xs : List α} {x : α} :
    x ∈ sortOn key xs ↔ x ∈ xs :=
  (perm_sortOn key xs).mem_iff

theorem insertOn_of_forall {key : α → Int} {x : α} {xs : List α}
    (h : ∀ y ∈ xs, key x ≤ key y) : insertOn key x xs = x :: xs := by
  cases xs with
  | nil => rfl
  | cons y ys => rw [insertOn, if_pos (h y (by simp))]

theorem pairwise_insertOn {key : α → Int} {xs : List α} (h : xs.Pairwise (key · ≤ key ·)) (x : α) :
    (insertOn key x xs).Pairwise (key · ≤ key ·) := by
  induction xs with
  | nil => simp [insertOn]
  | cons y ys ih =>
    obtain ⟨hy, hys⟩ := List.pairwise_cons.mp h
    rw [insertOn]
    split
    · rename_i hxy
      refine List.pairwise_cons.mpr ⟨fun z hz => ?_, h⟩
      rcases List.mem_cons.mp hz with rfl | hz
      · exact hxy
      · exact Int.le_trans hxy (hy z hz)
    · rename_i hxy
      refine List.pairwise_cons.mpr ⟨fun z hz => ?_, ih hys⟩
      rcases List.mem_cons.mp ((perm_insertOn key x ys).mem_iff.mp hz) with rfl | hz
      · omega
      · exact hy z hz

theorem pairwise_sortOn (key : α → Int) (xs : List α) :
    (sortOn key xs).Pairwise (key · ≤ key ·) := by
  induction xs with
  | nil => exact .nil
  | cons x xs ih =>
    rw [sortOn_cons]
    exact pairwise_insertOn ih x

theorem pairwise_insertOn_of_pairwise {key : α → Int} {R : α → α → Prop} {x : α} {xs : List α}
    (h : xs.Pairwise fun y z => key y < key z ∨ key y = key z ∧ R y z) (hx : ∀ y ∈ xs, R x y) :
    (insertOn key x xs).Pairwise fun y z => key y < key z ∨ key y = key z ∧ R y z := by
  induction xs with
  | nil => exact List.pairwise_singleton ..
  | cons y ys ih =>
    obtain ⟨hy, hys⟩ := List.pairwise_cons.mp h
    obtain ⟨hxy, hxys⟩ := List.forall_mem_cons.mp hx
    rw [insertOn]
    split
    · rename_i hle
      refine List.pairwise_cons.mpr ⟨fun z hz => ?_, h⟩
      have hxz : key x ≤ key z := by
        rcases List.mem_cons.mp hz with rfl | hz
        · exact hle
        · have hyz := hy z hz
          omega
      rcases Int.lt_or_eq_of_le hxz with hlt | heq
      · exact .inl hlt
      · exact .inr ⟨heq, hx z hz⟩
    · rename_i hlt
      refine List.pairwise_cons.mpr ⟨fun z hz => ?_, ih hys hxys⟩
      rcases List.mem_cons.mp ((perm_insertOn key x ys).mem_iff.mp hz) with rfl | hz
      · exact .inl (Int.not_le.mp hlt)
      · exact hy z hz

/-- Sorting is stable: elements with equal keys stay in the order in which they were. -/
theorem pairwise_sortOn_of_pairwise (key : α → Int) {R : α → α → Prop} {xs : List α}
    (h : xs.Pairwise R) :
    (sortOn key xs).Pairwise fun x y => key x < key y ∨ key x = key y ∧ R x y := by
  induction xs with
  | nil => exact .nil
  | cons x xs ih =>
    obtain ⟨hx, hxs⟩ := List.pairwise_cons.mp h
    rw [sortOn_cons]
    refine pairwise_insertOn_of_pairwise (ih hxs) fun y hy => ?_
    exact hx y (mem_sortOn.mp hy)

theorem filter_insertOn {key : α → Int} {xs : List α} (h : xs.Pairwise (key · ≤ key ·))
    (p : α → Bool) (x : α) :
    (insertOn key x xs).filter p =
      if p x then insertOn key x (xs.filter p) else xs.filter p := by
  induction xs with
  | nil => simp [insertOn, List.filter_cons]
  | cons y ys ih =>
    obtain ⟨hy, hys⟩ := List.pairwise_cons.mp h
    rw [insertOn]
    split
    · rename_i hxy
      have hall : ∀ z ∈ (y :: ys).filter p, key x ≤ key z := by
        intro z hz
        rcases List.mem_cons.mp (List.mem_filter.mp hz).1 with rfl | hz
        · exact hxy
        · exact Int.le_trans hxy (hy z hz)
      rw [List.filter_cons, insertOn_of_forall hall]
    · rename_i hxy
      rw [List.filter_cons, ih hys, List.filter_cons]
      cases p y <;> cases p x <;> simp [insertOn, hxy]

/-- Sorting is stable: a part of a list is sorted as it is within the list. -/
theorem filter_sortOn (key : α → Int) (p : α → Bool) (xs : List α) :
    (sortOn key xs).filter p = sortOn key (xs.filter p) := by
  induction xs with
  | nil => rfl
  | cons x xs ih =>
    rw [sortOn_cons, filter_insertOn (pairwise_sortOn key xs), ih, List.filter_cons]
    split
    · rw [sortOn_cons]
    · rfl

theorem sortOn_congr {key other : α → Int} {xs : List α} (h : ∀ x ∈ xs, key x = other x) :
    sortOn key xs = sortOn other xs := by
  have hkeyed : xs.map (fun x => (key x, x)) = xs.map fun x => (other x, x) :=
    List.map_congr_left fun x hx => by rw [h x hx]
  rw [sortOn, sortOn, hkeyed]

theorem sortOn_of_pairwise {key : α → Int} {xs : List α} (h : xs.Pairwise (key · ≤ key ·)) :
    sortOn key xs = xs := by
  induction xs with
  | nil => rfl
  | cons x xs ih =>
    obtain ⟨hx, hxs⟩ := List.pairwise_cons.mp h
    rw [sortOn_cons, ih hxs, insertOn_of_forall hx]

/-- Sorting is stable: the elements of one key stay as they are. -/
theorem filter_key_sortOn (key : α → Int) (k : Int) (xs : List α) :
    (sortOn key xs).filter (key · = k) = xs.filter (key · = k) := by
  rw [filter_sortOn]
  refine sortOn_of_pairwise (List.pairwise_of_forall_mem_list fun x hx y hy => ?_)
  have hkey := of_decide_eq_true (List.mem_filter.mp hx).2
  have hother := of_decide_eq_true (List.mem_filter.mp hy).2
  omega

/-- Of two elements that are out of order the smaller one comes first. -/
theorem pair_sublist_sortOn_of_lt {key : α → Int} {x y : α} {xs : List α} (hx : x ∈ xs)
    (hy : y ∈ xs) (h : key x < key y) : [x, y].Sublist (sortOn key xs) := by
  have hsorted := pairwise_sortOn key xs
  have hmem : x ∈ sortOn key xs := mem_sortOn.mpr hx
  obtain ⟨before, after, hsplit⟩ := List.append_of_mem (mem_sortOn.mpr hy : y ∈ sortOn key xs)
  rw [hsplit] at hsorted hmem ⊢
  rcases List.mem_append.mp hmem with hbefore | hlater
  · exact (List.singleton_sublist.mpr hbefore).append
      (List.singleton_sublist.mpr List.mem_cons_self)
  · obtain ⟨hle, -⟩ := List.pairwise_cons.mp (List.pairwise_append.mp hsorted).2.1
    rcases List.mem_cons.mp hlater with rfl | hafter
    · exact absurd h (Int.lt_irrefl _)
    · exact absurd h (Int.not_lt.mpr (hle x hafter))

/-- Sorting is stable: two elements of one key stay in the order in which they were. -/
theorem pair_sublist_sortOn_of_eq {key : α → Int} {x y : α} {xs : List α}
    (hpair : [x, y].Sublist xs) (h : key x = key y) : [x, y].Sublist (sortOn key xs) := by
  have hkept : [x, y].filter (key · = key y) = [x, y] := by simp [h]
  have hsub := hpair.filter (key · = key y)
  rw [hkept, ← filter_key_sortOn] at hsub
  exact hsub.trans List.filter_sublist

/-! ## Sorting blocks -/

theorem foldr_insertOn_eq_append {key : α → Int} {xs ys : List α} {k : Int}
    (hxs : ∀ x ∈ xs, key x = k) (hys : ∀ y ∈ ys, k ≤ key y) :
    xs.foldr (insertOn key) ys = xs ++ ys := by
  induction xs with
  | nil => rfl
  | cons x xs ih =>
    rw [List.foldr_cons, ih fun z hz => hxs z (by simp [hz]), insertOn_of_forall, List.cons_append]
    intro y hy
    rw [hxs x (by simp)]
    rcases List.mem_append.mp hy with hy | hy
    · exact Int.le_of_eq (hxs y (by simp [hy])).symm
    · exact hys y hy

theorem insertOn_append {key : α → Int} {x : α} {xs ys : List α} (h : ∀ y ∈ xs, key y < key x) :
    insertOn key x (xs ++ ys) = xs ++ insertOn key x ys := by
  induction xs with
  | nil => rfl
  | cons z zs ih =>
    have hz := h z (by simp)
    rw [List.cons_append, insertOn, if_neg (by omega), ih fun y hy => h y (by simp [hy]),
      List.cons_append]

theorem foldr_insertOn_append {key : α → Int} {xs ys zs : List α}
    (h : ∀ x ∈ xs, ∀ y ∈ ys, key y < key x) :
    xs.foldr (insertOn key) (ys ++ zs) = ys ++ xs.foldr (insertOn key) zs := by
  induction xs with
  | nil => rfl
  | cons x xs ih =>
    rw [List.foldr_cons, List.foldr_cons, ih fun z hz => h z (by simp [hz]),
      insertOn_append fun y hy => h x (by simp) y hy]

theorem sortOn_append (key : α → Int) (xs ys : List α) :
    sortOn key (xs ++ ys) = xs.foldr (insertOn key) (sortOn key ys) := by
  induction xs with
  | nil => rfl
  | cons x xs ih => rw [List.cons_append, sortOn_cons, ih, List.foldr_cons]

theorem foldr_insertOn_flatMap {key : α → Int} {key' : β → Int} {f : β → List α}
    (h : ∀ b, ∀ x ∈ f b, key x = key' b) {bs : List β} (hbs : bs.Pairwise (key' · ≤ key' ·))
    (a : β) : (f a).foldr (insertOn key) (bs.flatMap f) = (insertOn key' a bs).flatMap f := by
  induction bs with
  | nil =>
    rw [insertOn, List.flatMap_nil, foldr_insertOn_eq_append (h a) (by simp), List.flatMap_cons,
      List.flatMap_nil]
  | cons b bs ih =>
    obtain ⟨hb, hbs⟩ := List.pairwise_cons.mp hbs
    rw [insertOn]
    split
    · rename_i hab
      refine (foldr_insertOn_eq_append (h a) fun y hy => ?_).trans List.flatMap_cons.symm
      obtain ⟨c, hc, hy⟩ := List.mem_flatMap.mp hy
      rw [h c y hy]
      rcases List.mem_cons.mp hc with rfl | hc
      · exact hab
      · exact Int.le_trans hab (hb c hc)
    · rename_i hab
      rw [List.flatMap_cons, List.flatMap_cons, foldr_insertOn_append, ih hbs]
      intro x hx y hy
      rw [h a x hx, h b y hy]
      omega

/-- A list of blocks, each of them with one key, is sorted by sorting the blocks. -/
theorem sortOn_flatMap {key : α → Int} {key' : β → Int} {f : β → List α}
    (h : ∀ b, ∀ x ∈ f b, key x = key' b) (bs : List β) :
    sortOn key (bs.flatMap f) = (sortOn key' bs).flatMap f := by
  induction bs with
  | nil => rfl
  | cons b bs ih =>
    rw [List.flatMap_cons, sortOn_append, ih, foldr_insertOn_flatMap h (pairwise_sortOn key' bs),
      sortOn_cons]

/-! ## Merge sort of the standard library -/

/-- Sorting by a key is the stable merge sort of the standard library. -/
theorem sortOn_eq_mergeSort (key : α → Int) (xs : List α) :
    sortOn key xs = xs.mergeSort fun x y => key x ≤ key y := by
  have htrans (x y z : α) (hxy : decide (key x ≤ key y)) (hyz : decide (key y ≤ key z)) :
      decide (key x ≤ key z) := by
    simp only [decide_eq_true_eq] at *
    exact Int.le_trans hxy hyz
  have htotal (x y : α) : decide (key x ≤ key y) || decide (key y ≤ key x) := by
    simpa using Int.le_total (key x) (key y)
  induction xs with
  | nil => simp
  | cons x xs ih =>
    obtain ⟨front, back, hcons, htail, hfront⟩ := List.mergeSort_cons htrans htotal x xs
    have hsorted := List.pairwise_mergeSort htrans htotal (x :: xs)
    rw [hcons] at hsorted
    have hback : ∀ y ∈ back, key x ≤ key y := fun y hy =>
      of_decide_eq_true ((List.pairwise_cons.mp (List.pairwise_append.mp hsorted).2.1).1 y hy)
    have hlt : ∀ y ∈ front, key y < key x := fun y hy => by simpa using hfront y hy
    rw [sortOn_cons, ih, htail, hcons, insertOn_append hlt, insertOn_of_forall hback]

end Salvo
