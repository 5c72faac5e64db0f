import Sederial.Dns.NameOrder

/-!
# `Sederial.Proofs.NameDescent`: names are ordered by descent

`DomainName::eq` is defined through `is_subdomain_of`, which compares zipped labels from the
end. Both are statements about the labels in lower case: the order by suffix, and equality
(`isSubdomainOf_iff`, `beq_iff`). So names form a preorder whose equivalence is `==`, with the
root on top, and the ancestors of a name form a chain.

Routing rests on this. Duplicate detection needs that `==` is an equivalence. The longest match
is well defined because two matching suffixes with the same number of labels are equal.
-/

set_option autoImplicit false

namespace Sederial.Dns

open Sederial.Lib

/-- Two labels have the same bytes up to ASCII case. -/
def SameLetters (a b : List UInt8) : Prop :=
  List.Forall₂ (fun x y => toAsciiLowercase x = toAsciiLowercase y) a b

/-- Labels are the same letters exactly when their lower case forms are equal. -/
theorem sameLetters_iff (a b : List UInt8) :
    SameLetters a b ↔ a.map toAsciiLowercase = b.map toAsciiLowercase :=
  forall₂_image_iff toAsciiLowercase a b

namespace DomainName

/-- `a ≤ b` when `a` is below `b`. -/
instance : Preorder DomainName := descent folded

/-- The root. -/
instance : OrderTop DomainName where
  top := ⟨[]⟩
  le_top _ := List.nil_suffix

/-- The subdomain test is the order on names. -/
theorem isSubdomainOf_iff_le {a b : DomainName} : a.isSubdomainOf b = true ↔ a ≤ b :=
  isSubdomainOf_iff a b

/-- Names are equal exactly when each is below the other. -/
theorem beq_iff_antisymmRel {a b : DomainName} :
    (a == b) = true ↔ AntisymmRel (· ≤ ·) a b := by
  rw [beq_iff]
  exact (antisymmRel_descent_iff folded).symm

/-- Label lists have the same letters exactly when they are equal in lower case. -/
theorem forall₂_sameLetters_iff (a b : List (List UInt8)) :
    List.Forall₂ SameLetters a b ↔
      a.map (List.map toAsciiLowercase) = b.map (List.map toAsciiLowercase) := by
  have hsame : SameLetters = fun x y => x.map toAsciiLowercase = y.map toAsciiLowercase := by
    funext x y
    exact propext (sameLetters_iff x y)
  rw [hsame]
  exact forall₂_image_iff _ a b

/-- Names are equal exactly when their labels are, one by one, in the same letters. -/
theorem beq_iff_forall₂ (a b : DomainName) :
    (a == b) = true ↔ List.Forall₂ SameLetters a.labels b.labels := by
  rw [beq_iff, forall₂_sameLetters_iff]
  rfl

/-- A name is below a suffix exactly when its last labels are those of the suffix. -/
theorem isSubdomainOf_iff_forall₂ (name suffix : DomainName) :
    name.isSubdomainOf suffix = true ↔ ∃ front back, name.labels = front ++ back ∧
      List.Forall₂ SameLetters back suffix.labels := by
  rw [isSubdomainOf_iff]
  constructor
  · -- The labels split where their images do.
    rintro ⟨front, hfront⟩
    obtain ⟨front', back, hlabels, -, hback⟩ := List.map_eq_append_iff.mp hfront.symm
    exact ⟨front', back, hlabels, (forall₂_sameLetters_iff _ _).mpr hback⟩
  · rintro ⟨front, back, hlabels, hback⟩
    refine ⟨front.map (List.map toAsciiLowercase), ?_⟩
    unfold folded
    rw [hlabels, List.map_append, (forall₂_sameLetters_iff _ _).mp hback]

/-- Suffixes of one name. -/
theorem isSubdomainOf_chain {name a b : DomainName} (ha : name.isSubdomainOf a = true)
    (hb : name.isSubdomainOf b = true) :
    a.isSubdomainOf b = true ∨ b.isSubdomainOf a = true := by
  rw [isSubdomainOf_iff_le] at ha hb ⊢
  rw [isSubdomainOf_iff_le]
  exact (isChain_descent folded name).total ha hb

/-- Suffixes of one name with the same number of labels are equal. -/
theorem beq_of_labelCount_eq {name a b : DomainName} (ha : name.isSubdomainOf a = true)
    (hb : name.isSubdomainOf b = true) (hcount : a.labelCount = b.labelCount) :
    (a == b) = true := by
  rw [isSubdomainOf_iff] at ha hb
  rw [beq_iff]
  refine isSuffix_eq_of_length_eq ha hb ?_
  rw [length_folded, length_folded, hcount]

/-- Name order. `==` is an equivalence relation that compares complete labels and ignores ASCII
case. `isSubdomainOf` compares complete labels from the end. It is a partial order up to `==`,
it respects `==` on both sides, and the root is its greatest element. The suffixes of one name
form a chain, and two of them with the same number of labels are equal. -/
theorem isSubdomainOf_order :
    (Equivalence fun a b : DomainName => (a == b) = true) ∧
    (∀ a b : DomainName, (a == b) = true ↔ List.Forall₂ SameLetters a.labels b.labels) ∧
    (∀ a b : DomainName, a.isSubdomainOf b = true ↔ ∃ front back, a.labels = front ++ back ∧
      List.Forall₂ SameLetters back b.labels) ∧
    (∀ a : DomainName, a.isSubdomainOf a = true) ∧
    (∀ a b c : DomainName, a.isSubdomainOf b = true → b.isSubdomainOf c = true →
      a.isSubdomainOf c = true) ∧
    (∀ a b : DomainName, a.isSubdomainOf b = true → b.isSubdomainOf a = true →
      (a == b) = true) ∧
    (∀ a a' b b' : DomainName, (a == a') = true → (b == b') = true →
      a.isSubdomainOf b = a'.isSubdomainOf b') ∧
    (∀ a : DomainName, a.isSubdomainOf ⟨[]⟩ = true) ∧
    ∀ name a b : DomainName, name.isSubdomainOf a = true → name.isSubdomainOf b = true →
      (a.isSubdomainOf b = true ∨ b.isSubdomainOf a = true) ∧
      (a.labelCount = b.labelCount → (a == b) = true) := by
  refine ⟨?equivalence, beq_iff_forall₂, isSubdomainOf_iff_forall₂, ?refl, ?trans, ?antisymm,
    ?congr, ?root, fun name a b ha hb => ⟨isSubdomainOf_chain ha hb, beq_of_labelCount_eq ha hb⟩⟩
  case equivalence =>
    simp only [beq_iff_antisymmRel]
    exact ⟨AntisymmRel.refl _, AntisymmRel.symm, AntisymmRel.trans⟩
  case refl =>
    intro a
    exact isSubdomainOf_iff_le.mpr (le_refl a)
  case trans =>
    intro a b c hab hbc
    rw [isSubdomainOf_iff_le] at hab hbc ⊢
    exact le_trans hab hbc
  case antisymm =>
    intro a b hab hba
    rw [isSubdomainOf_iff_le] at hab hba
    exact beq_iff_antisymmRel.mpr ⟨hab, hba⟩
  case congr =>
    -- Equal names are below each other, so either side may be replaced by an equal one.
    intro a a' b b' ha hb
    rw [beq_iff_antisymmRel] at ha hb
    rw [Bool.eq_iff_iff, isSubdomainOf_iff_le, isSubdomainOf_iff_le]
    exact ha.le_congr hb
  case root =>
    intro a
    exact isSubdomainOf_iff_le.mpr le_top

end DomainName

end Sederial.Dns
