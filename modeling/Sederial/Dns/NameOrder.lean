import Sederial.Dns.Name
import Sederial.Lib.Suffix

/-!
# `Sederial.Dns.NameOrder`: equality and descent of names as list facts

`DomainName.folded` is the label list in lower case. `==` on names is equality of the
folded lists (`beq_iff`), and `isSubdomainOf` is the suffix order on them
(`isSubdomainOf_iff`). Later modules reason about names through these two equations and
never unfold the zipped comparison.
-/

set_option autoImplicit false

namespace Sederial.Dns

open Sederial.Lib

/-- Two labels are equal when their lower case forms are. -/
theorem eqIgnoreAsciiCase_iff (a b : List UInt8) :
    eqIgnoreAsciiCase a b = true ↔ a.map toAsciiLowercase = b.map toAsciiLowercase := by
  unfold eqIgnoreAsciiCase
  rw [Bool.and_eq_true, beq_iff_eq]
  constructor
  · rintro ⟨hlen, hall⟩
    have hpre := (zip_all_iff_isPrefix
      (fun x y => toAsciiLowercase x == toAsciiLowercase y) toAsciiLowercase
      (fun x y => beq_iff_eq) a b (Nat.le_of_eq hlen.symm)).mp hall
    exact (hpre.eq_of_length (by simp [hlen])).symm
  · intro h
    have hlen : a.length = b.length := by simpa using congrArg List.length h
    refine ⟨hlen, (zip_all_iff_isPrefix
      (fun x y => toAsciiLowercase x == toAsciiLowercase y) toAsciiLowercase
      (fun x y => beq_iff_eq) a b (Nat.le_of_eq hlen.symm)).mpr ?_⟩
    rw [h]

namespace DomainName

/-- The labels in lower case. -/
def folded (name : DomainName) : List (List UInt8) :=
  name.labels.map fun label => label.map toAsciiLowercase

/-- Folding keeps the number of labels. -/
@[simp] theorem length_folded (name : DomainName) : name.folded.length = name.labelCount := by
  simp [folded, labelCount]

/-- A name is below a suffix exactly when the folded suffix is a suffix of the folded
name. -/
theorem isSubdomainOf_iff (name suffix : DomainName) :
    name.isSubdomainOf suffix = true ↔ suffix.folded <:+ name.folded := by
  unfold isSubdomainOf
  rw [Bool.and_eq_true, decide_eq_true_iff]
  constructor
  · rintro ⟨hlen, hall⟩
    exact (zip_reverse_all_iff_isSuffix eqIgnoreAsciiCase _ eqIgnoreAsciiCase_iff _ _
      hlen).mp hall
  · intro h
    have hlen : suffix.labels.length ≤ name.labels.length := by
      simpa [labelCount] using h.length_le
    exact ⟨hlen, (zip_reverse_all_iff_isSuffix eqIgnoreAsciiCase _ eqIgnoreAsciiCase_iff _ _
      hlen).mpr h⟩

/-- Two names are equal exactly when their folded labels are. -/
theorem beq_iff (a b : DomainName) : (a == b) = true ↔ a.folded = b.folded := by
  show (a.labels.length == b.labels.length && a.isSubdomainOf b) = true ↔ _
  rw [Bool.and_eq_true, beq_iff_eq, isSubdomainOf_iff]
  constructor
  · rintro ⟨hlen, hsuffix⟩
    exact (hsuffix.eq_of_length (by simpa [labelCount] using hlen.symm)).symm
  · intro h
    refine ⟨?_, by rw [h]⟩
    simpa [labelCount] using congrArg List.length h

/-- The comparison of names is symmetric. -/
theorem beq_comm (a b : DomainName) : (a == b) = (b == a) := by
  rw [Bool.eq_iff_iff, beq_iff, beq_iff]
  exact eq_comm

/-- Every name equals itself. -/
@[simp] theorem beq_self (a : DomainName) : (a == a) = true := (beq_iff a a).mpr rfl

end DomainName

end Sederial.Dns
