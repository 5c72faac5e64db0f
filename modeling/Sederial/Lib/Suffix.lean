import Mathlib.Data.List.Forall2
import Mathlib.Data.List.Infix
import Mathlib.Order.Antisymmetrization
import Mathlib.Order.Preorder.Chain

/-!
# `Sederial.Lib.Suffix`: suffix tests and longest matches

Facts about lists that a longest-suffix lookup rests on.

* A componentwise test over two zipped lists is a prefix test on their images
  (`zip_all_iff_isPrefix`), and over the reversed lists a suffix test
  (`zip_reverse_all_iff_isSuffix`).
* In a list of rules sorted by descending size, the first rule that matches is a largest
  one (`find?_size_max`). When rules of one size that match are equal, it is the only
  largest one.
-/

set_option autoImplicit false

namespace Sederial.Lib

variable {α β ρ : Type}

/-- Comparing two lists position by position through `f`, as far as the shorter second
list goes, tests whether its image is a prefix of the image of the first. -/
theorem zip_all_iff_isPrefix (same : α → α → Bool) (f : α → β)
    (hsame : ∀ a b, same a b = true ↔ f a = f b) :
    ∀ (l s : List α), s.length ≤ l.length →
      ((l.zip s).all (fun p => same p.1 p.2) = true ↔ s.map f <+: l.map f) := by
  intro l s
  induction s generalizing l with
  | nil => simp
  | cons b s ih =>
      intro hlen
      cases l with
      | nil => simp at hlen
      | cons a l =>
          have hrec := ih l (by simpa using hlen)
          simp only [List.zip_cons_cons, List.all_cons, Bool.and_eq_true, List.map_cons,
            List.cons_prefix_cons, hsame, hrec]
          exact and_congr_left fun _ => eq_comm

/-- Comparing two lists from their ends tests whether one image is a suffix of the
other. -/
theorem zip_reverse_all_iff_isSuffix (same : α → α → Bool) (f : α → β)
    (hsame : ∀ a b, same a b = true ↔ f a = f b) (l s : List α) (hlen : s.length ≤ l.length) :
    (l.reverse.zip s.reverse).all (fun p => same p.1 p.2) = true ↔ s.map f <:+ l.map f := by
  rw [zip_all_iff_isPrefix same f hsame _ _ (by simpa using hlen), List.map_reverse,
    List.map_reverse, List.reverse_prefix]

/-- Two lists have the same image exactly when their elements have, position by position. -/
theorem forall₂_image_iff (f : α → β) (l l' : List α) :
    List.Forall₂ (fun a b => f a = f b) l l' ↔ l.map f = l'.map f := by
  rw [← List.forall₂_eq_eq_eq, List.forall₂_map_left_iff, List.forall₂_map_right_iff]

/-- Two suffixes of one list with the same length are equal. -/
theorem isSuffix_eq_of_length_eq {l s t : List α} (hs : s <:+ l) (ht : t <:+ l)
    (hlen : s.length = t.length) : s = t := by
  have hst : s <:+ t := List.suffix_of_suffix_length_le hs ht (Nat.le_of_eq hlen)
  exact hst.eq_of_length hlen

/-- In a list sorted by descending size, the first element that satisfies `p` is at least
as large as every other one. -/
theorem find?_size_max (size : ρ → Nat) (p : ρ → Bool) {rules : List ρ} {r : ρ}
    (hsorted : rules.Pairwise fun a b => size b ≤ size a) (hfind : rules.find? p = some r) :
    ∀ r' ∈ rules, p r' = true → size r' ≤ size r := by
  induction rules with
  | nil => simp at hfind
  | cons a rest ih =>
      intro r' hmem hp
      rw [List.pairwise_cons] at hsorted
      rw [List.find?_cons] at hfind
      split at hfind
      · cases hfind
        rcases List.mem_cons.mp hmem with rfl | hrest
        · exact Nat.le_refl _
        · exact hsorted.1 r' hrest
      · rename_i hpa
        rcases List.mem_cons.mp hmem with rfl | hrest
        · rw [hp] at hpa
          cases hpa
        · exact ih hsorted.2 hfind r' hrest hp

/-! ### Descent -/

/-- Elements ordered by descent: `a ≤ b` when the key of `b` is a suffix of the key of `a`. -/
abbrev descent (key : α → List β) : Preorder α where
  le a b := key b <:+ key a
  le_refl a := List.suffix_refl (key a)
  le_trans _ _ _ hab hbc := hbc.trans hab

/-- Two elements stand for the same exactly when their keys are equal. -/
theorem antisymmRel_descent_iff (key : α → List β) {a b : α} :
    AntisymmRel (descent key).le a b ↔ key a = key b := by
  constructor
  · rintro ⟨hab, hba⟩
    exact List.IsSuffix.eq_of_length_le hba hab.length_le
  · intro h
    have hab : key b <:+ key a := by rw [h]
    have hba : key a <:+ key b := by rw [h]
    exact ⟨hab, hba⟩

/-- The elements above one element form a chain. -/
theorem isChain_descent (key : α → List β) (a : α) :
    IsChain (descent key).le {b | (descent key).le a b} := by
  intro b hb c hc _
  exact (List.suffix_or_suffix_of_suffix hb hc).symm

/-! ### Splitting at a separator -/

/-- A list may be mapped before it is split or after. -/
theorem splitOnPPrepend_map {α β : Type} (f : α → β) (p : β → Bool) (l acc : List α) :
    List.splitOnPPrepend p (l.map f) (acc.map f) =
      (List.splitOnPPrepend (fun a => p (f a)) l acc).map (List.map f) := by
  induction l generalizing acc with
  | nil => simp
  | cons a l ih =>
    rw [List.map_cons, List.splitOnPPrepend_cons_eq_if, List.splitOnPPrepend_cons_eq_if]
    split
    · rw [List.map_cons, List.map_reverse]
      exact congrArg _ (ih [])
    · exact ih (a :: acc)

/-- A change of the elements that keeps the separators commutes with splitting. -/
theorem splitOn_map {α : Type} [BEq α] [LawfulBEq α] (f : α → α) (separator : α)
    (h : ∀ a, f a = separator ↔ a = separator) (l : List α) :
    (l.map f).splitOn separator = (l.splitOn separator).map (List.map f) := by
  have hsame : (fun a => f a == separator) = fun a => a == separator := by
    funext a
    rw [Bool.eq_iff_iff, beq_iff_eq, beq_iff_eq]
    exact h a
  have hmap := splitOnPPrepend_map f (· == separator) l []
  rw [hsame] at hmap
  exact hmap

end Sederial.Lib
