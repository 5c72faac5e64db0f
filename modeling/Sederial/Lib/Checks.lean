import Mathlib.Data.List.Forall2

/-!
# `Sederial.Lib.Checks`: computations that stop at the first error

A check is an `Except ε α`. It succeeds exactly when its parts do, and then a loop of checks has
checked every element. The lemmas take a successful check apart.
-/

set_option autoImplicit false

namespace Sederial.Lib

section

variable {ε ε' α β : Type}

/-- A check behind another one succeeds when both do. -/
theorem bind_eq_ok {x : Except ε α} {f : α → Except ε β} {b : β} :
    (x >>= f) = .ok b ↔ ∃ a, x = .ok a ∧ f a = .ok b := by
  cases x with
  | error e =>
    constructor
    · intro h
      cases h
    · intro ⟨a, h, _⟩
      cases h
  | ok a =>
    constructor
    · intro h
      exact ⟨a, rfl, h⟩
    · intro ⟨a', h, hf⟩
      cases h
      exact hf

/-- A change of the error does not change what succeeds. -/
theorem mapError_eq_ok {x : Except ε α} {g : ε → ε'} {a : α} :
    x.mapError g = .ok a ↔ x = .ok a := by
  cases x with
  | error e => exact ⟨nofun, nofun⟩
  | ok b =>
    constructor
    · intro h
      cases h
      rfl
    · intro h
      cases h
      rfl

/-- What is left of an outcome without its error. -/
theorem toOption_eq_some {x : Except ε α} {a : α} : x.toOption = some a ↔ x = .ok a := by
  cases x with
  | error e => exact ⟨nofun, nofun⟩
  | ok b =>
    constructor
    · intro h
      cases h
      rfl
    · intro h
      cases h
      rfl

/-- A loop of checks that succeeds has checked every element, in order. -/
theorem forall₂_of_mapM_eq_ok {f : α → Except ε β} {xs : List α} {ys : List β}
    (h : xs.mapM f = .ok ys) : List.Forall₂ (fun x y => f x = .ok y) xs ys := by
  induction xs generalizing ys with
  | nil =>
    cases h
    exact .nil
  | cons x xs ih =>
    rw [List.mapM_cons] at h
    obtain ⟨y, hy, h⟩ := bind_eq_ok.mp h
    obtain ⟨rest, hrest, h⟩ := bind_eq_ok.mp h
    cases h
    exact .cons hy (ih hrest)

/-- A loop of checks over the elements with their indices. -/
theorem forall₂_of_zipIdx_mapM_eq_ok {f : α × Nat → Except ε β} {R : α → β → Prop} {xs : List α}
    {ys : List β} (h : xs.zipIdx.mapM f = .ok ys)
    (hf : ∀ x i y, f (x, i) = .ok y → R x y) : List.Forall₂ R xs ys := by
  have hzip : List.Forall₂ (fun p y => R p.1 y) xs.zipIdx ys :=
    (forall₂_of_mapM_eq_ok h).imp fun p y hy => hf p.1 p.2 y hy
  have hmap := List.forall₂_map_left_iff.mpr hzip
  rwa [List.zipIdx_map_fst] at hmap

/-- A loop of checks succeeds exactly when every check does. -/
theorem mapM_eq_ok_iff {f : α → Except ε β} {xs : List α} {ys : List β} :
    xs.mapM f = .ok ys ↔ List.Forall₂ (fun x y => f x = .ok y) xs ys := by
  refine ⟨forall₂_of_mapM_eq_ok, fun h => ?_⟩
  induction h with
  | nil => rfl
  | cons hfirst hrest ih =>
    rw [List.mapM_cons]
    exact bind_eq_ok.mpr ⟨_, hfirst, bind_eq_ok.mpr ⟨_, ih, rfl⟩⟩

/-- And so does one over the elements with their indices. -/
theorem zipIdx_mapM_eq_ok_iff {f : α × Nat → Except ε β} {R : α → β → Prop} {xs : List α}
    {ys : List β} (hf : ∀ x i y, f (x, i) = .ok y ↔ R x y) :
    xs.zipIdx.mapM f = .ok ys ↔ List.Forall₂ R xs ys := by
  refine ⟨fun h => forall₂_of_zipIdx_mapM_eq_ok h fun x i y => (hf x i y).mp, fun h => ?_⟩
  have hzip : List.Forall₂ (fun p y => R p.1 y) xs.zipIdx ys := by
    rw [← List.forall₂_map_left_iff (f := Prod.fst), List.zipIdx_map_fst]
    exact h
  exact mapM_eq_ok_iff.mpr (hzip.imp fun p y hy => (hf p.1 p.2 y).mpr hy)

/-- Every result of a loop of checks comes from an element. -/
theorem exists_left_of_forall₂ {R : α → β → Prop} {xs : List α} {ys : List β}
    (h : List.Forall₂ R xs ys) {y : β} (hy : y ∈ ys) : ∃ x ∈ xs, R x y := by
  obtain ⟨i, hi, rfl⟩ := List.getElem_of_mem hy
  have hi' : i < xs.length := h.length_eq ▸ hi
  exact ⟨_, List.getElem_mem hi', h.get hi' hi⟩

/-- And every element has a result. -/
theorem exists_right_of_forall₂ {R : α → β → Prop} {xs : List α} {ys : List β}
    (h : List.Forall₂ R xs ys) {x : α} (hx : x ∈ xs) : ∃ y ∈ ys, R x y := by
  obtain ⟨i, hi, rfl⟩ := List.getElem_of_mem hx
  have hi' : i < ys.length := h.length_eq ▸ hi
  exact ⟨_, List.getElem_mem hi', h.get hi hi'⟩

/-- What the results of the checks have pairwise, the elements have. -/
theorem pairwise_of_forall₂ {R : α → β → Prop} {S : β → β → Prop} {T : α → α → Prop}
    {xs : List α} {ys : List β} (h : List.Forall₂ R xs ys) (hys : ys.Pairwise S)
    (hT : ∀ x x' y y', R x y → R x' y' → S y y' → T x x') : xs.Pairwise T := by
  induction h with
  | nil => exact .nil
  | @cons x y xs ys hxy hrest ih =>
    rw [List.pairwise_cons] at hys
    refine .cons (fun x' hx' => ?_) (ih hys.2)
    obtain ⟨y', hy', hxy'⟩ := exists_right_of_forall₂ hrest hx'
    exact hT x x' y y' hxy hxy' (hys.1 y' hy')

/-- Elements may be replaced by others with the same results. -/
theorem forall₂_replace {R : α → β → Prop} {S : α → α → Prop} {xs xs' : List α} {ys : List β}
    (h : List.Forall₂ R xs ys) (hsame : List.Forall₂ S xs xs')
    (hR : ∀ x x' y, R x y → S x x' → R x' y) : List.Forall₂ R xs' ys := by
  induction hsame generalizing ys with
  | nil =>
    cases h
    exact .nil
  | cons hfirst _ ih =>
    cases h with
    | cons hresult hrest => exact .cons (hR _ _ _ hresult hfirst) (ih hrest)

end

end Sederial.Lib
