/-
Two lists side by side: what a search finds in one of them is related to
what it finds in the other, if the elements at each place are related and
the test says the same of both.
-/
import Mathlib.Data.List.Forall2

namespace QueryLint

variable {α β γ δ : Type} {R S : α → β → Prop} {p : α → Bool} {q : β → Bool}
  {xs : List α} {ys : List β}

/-- The elements at a place are elements. -/
theorem forall₂_mem (h : List.Forall₂ R xs ys) :
    List.Forall₂ (fun x y => x ∈ xs ∧ R x y) xs ys :=
  (List.forall₂_and_left xs ys).2 ⟨fun _ hx => hx, h⟩

theorem exists_mem_of_forall₂ (h : List.Forall₂ R xs ys) {x : α} (hx : x ∈ xs) :
    ∃ y ∈ ys, R x y := by
  induction h with
  | nil => cases hx
  | @cons x' y xs ys hxy _ ih =>
    rcases List.mem_cons.1 hx with rfl | hx
    · exact ⟨y, List.mem_cons_self, hxy⟩
    · obtain ⟨y', hy', hrel⟩ := ih hx
      exact ⟨y', List.mem_cons_of_mem y hy', hrel⟩

-- ============================================================== all that pass

/-- What passes a test may be more closely related. -/
theorem forall₂_filter (h : List.Forall₂ R xs ys) (hpq : ∀ x y, R x y → p x = q y)
    (hS : ∀ x y, R x y → p x = true → S x y) :
    List.Forall₂ S (xs.filter p) (ys.filter q) := by
  induction h with
  | nil => exact .nil
  | @cons x y xs ys hxy _ ih =>
    cases hx : p x with
    | true =>
      rw [List.filter_cons_of_pos hx, List.filter_cons_of_pos (hpq x y hxy ▸ hx)]
      exact .cons (hS x y hxy hx) ih
    | false =>
      have hy : ¬ q y = true := by
        rw [← hpq x y hxy, hx]
        exact Bool.false_ne_true
      rw [List.filter_cons_of_neg (by simp [hx]), List.filter_cons_of_neg hy]
      exact ih

theorem forall₂_takeWhile (h : List.Forall₂ R xs ys) (hpq : ∀ x y, R x y → p x = q y) :
    List.Forall₂ R (xs.takeWhile p) (ys.takeWhile q) := by
  induction h with
  | nil => exact .nil
  | @cons x y xs ys hxy _ ih =>
    rw [List.takeWhile_cons, List.takeWhile_cons, hpq x y hxy]
    split
    · exact .cons hxy ih
    · exact .nil

theorem map_eq_of_forall₂ {f : α → γ} {g : β → γ} (h : List.Forall₂ R xs ys)
    (hfg : ∀ x y, R x y → f x = g y) : xs.map f = ys.map g := by
  induction h with
  | nil => rfl
  | cons hxy _ ih => rw [List.map_cons, List.map_cons, hfg _ _ hxy, ih]

theorem filterMap_eq_of_forall₂ {f : α → Option γ} {g : β → Option γ}
    (h : List.Forall₂ R xs ys) (hfg : ∀ x y, R x y → f x = g y) :
    xs.filterMap f = ys.filterMap g := by
  induction h with
  | nil => rfl
  | cons hxy _ ih => rw [List.filterMap_cons, List.filterMap_cons, hfg _ _ hxy, ih]

theorem flatMap_eq_of_forall₂ {f : α → List γ} {g : β → List γ} (h : List.Forall₂ R xs ys)
    (hfg : ∀ x y, R x y → f x = g y) : xs.flatMap f = ys.flatMap g := by
  rw [List.flatMap_def, List.flatMap_def, map_eq_of_forall₂ h hfg]

-- ================================================================ one of them

theorem rel_head? (h : List.Forall₂ R xs ys) : Option.Rel R xs.head? ys.head? := by
  cases h with
  | nil => exact .none
  | cons hxy _ => exact .some hxy

theorem rel_getLast? (h : List.Forall₂ R xs ys) : Option.Rel R xs.getLast? ys.getLast? := by
  rw [← List.head?_reverse, ← List.head?_reverse]
  exact rel_head? (List.rel_reverse h)

theorem rel_find? (h : List.Forall₂ R xs ys) (hpq : ∀ x y, R x y → p x = q y)
    (hS : ∀ x y, R x y → p x = true → S x y) : Option.Rel S (xs.find? p) (ys.find? q) := by
  rw [← List.head?_filter, ← List.head?_filter]
  exact rel_head? (forall₂_filter h hpq hS)

theorem rel_findSome? {T : γ → δ → Prop} {f : α → Option γ} {g : β → Option δ}
    (h : List.Forall₂ R xs ys) (hfg : ∀ x y, R x y → Option.Rel T (f x) (g y)) :
    Option.Rel T (xs.findSome? f) (ys.findSome? g) := by
  rw [← List.head?_filterMap, ← List.head?_filterMap]
  exact rel_head? (List.rel_filterMap hfg h)

theorem rel_map {T : γ → δ → Prop} {f : α → γ} {g : β → δ} {x : Option α} {y : Option β}
    (h : Option.Rel R x y) (hfg : ∀ x y, R x y → T (f x) (g y)) :
    Option.Rel T (x.map f) (y.map g) := by
  cases h with
  | none => exact .none
  | some hxy => exact .some (hfg _ _ hxy)

theorem map_eq_of_rel {f : α → γ} {g : β → γ} {x : Option α} {y : Option β}
    (h : Option.Rel R x y) (hfg : ∀ x y, R x y → f x = g y) : x.map f = y.map g := by
  cases h with
  | none => rfl
  | some hxy => rw [Option.map_some, Option.map_some, hfg _ _ hxy]

theorem rel_or {x x' : Option α} {y y' : Option β} (h : Option.Rel R x y)
    (h' : Option.Rel R x' y') : Option.Rel R (x.or x') (y.or y') := by
  cases h with
  | none => exact h'
  | some hxy => exact .some hxy

theorem isSome_eq_of_rel {x : Option α} {y : Option β} (h : Option.Rel R x y) :
    y.isSome = x.isSome := by
  cases h with
  | none => rfl
  | some _ => rfl

theorem bind_eq_of_rel {f : α → Option γ} {g : β → Option γ} {x : Option α} {y : Option β}
    (h : Option.Rel R x y) (hfg : ∀ x y, R x y → f x = g y) : x.bind f = y.bind g := by
  cases h with
  | none => rfl
  | some hxy => exact hfg _ _ hxy

end QueryLint
