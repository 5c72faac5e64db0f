import Sederial.Dns.NameOrder
import Sederial.Proofs.NameDecode

/-!
# `Sederial.Proofs.NameText`: names that are written as text

`DomainName::from_str` splits a text at its dots and accepts it when every piece is a label and the
name fits (`fromStr_eq_ok_iff`). It keeps the labels as they are (`fromStr_labels`). So the name in
lower case depends on the text in lower case and without its final dot only
(`fromStr_folded`), and two texts that differ in no more than that are one name.
-/

set_option autoImplicit false

namespace Sederial.Dns.DomainName

open Sederial.Lib

/-- A configured name in lower case and without its final dot. -/
def foldedText (text : List UInt8) : List UInt8 := (stripDot text).map toAsciiLowercase

/-- The labels of a text without a final dot. -/
def textLabels (text : List UInt8) : List (List UInt8) :=
  if text = [] then [] else text.splitOn 0x2e

/-- What `from_str` asks of a label. -/
structure TextLabel (label : List UInt8) : Prop where
  nonempty : label ≠ []
  short : label.length ≤ maxLabelLength
  bytes : ∀ b ∈ label, isLabelByte b = true

/-- The three checks of a label in presentation form are those of `TextLabel`. -/
theorem textLabel_iff (label : List UInt8) :
    (label.isEmpty || decide (label.length > maxLabelLength) || !label.all isLabelByte) = false ↔
      TextLabel label := by
  simp only [Bool.or_eq_false_iff, List.isEmpty_eq_false_iff, decide_eq_false_iff_not, Nat.not_lt,
    gt_iff_lt, Bool.not_eq_false', List.all_eq_true]
  constructor
  · rintro ⟨⟨hnonempty, hshort⟩, hbytes⟩
    exact ⟨hnonempty, hshort, hbytes⟩
  · intro h
    exact ⟨⟨h.nonempty, h.short⟩, h.bytes⟩

/-- The loop appends the labels. It succeeds when each of them passes its checks and the whole
name fits. -/
theorem pushLabels_eq_ok_iff {rest labels : List (List UInt8)} {length : Nat} {name : DomainName}
    (hlength : length ≤ maxNameLength) :
    pushLabels rest labels length = .ok name ↔
      name = ⟨labels ++ rest⟩ ∧ (∀ label ∈ rest, TextLabel label) ∧
        length + labelBytes rest ≤ maxNameLength := by
  -- The loop checks one label at a time and keeps `length` within the limit.
  induction rest generalizing labels length with
  | nil =>
    rw [pushLabels, List.append_nil]
    constructor
    · intro h
      cases h
      exact ⟨rfl, by simp, hlength⟩
    · rintro ⟨rfl, -, -⟩
      rfl
  | cons label rest ih =>
    have hsum : labelBytes (label :: rest) = (label.length + 1) + labelBytes rest := rfl
    rw [pushLabels, hsum]
    by_cases hlabel : TextLabel label
    · rw [(textLabel_iff label).mpr hlabel, if_neg Bool.false_ne_true]
      by_cases hfits : length + (label.length + 1) ≤ maxNameLength
      · rw [if_neg (Nat.not_lt.mpr hfits), ih hfits, List.append_assoc, List.forall_mem_cons,
          Nat.add_assoc]
        constructor
        · rintro ⟨hname, hrest, hall⟩
          exact ⟨hname, ⟨hlabel, hrest⟩, hall⟩
        · rintro ⟨hname, ⟨-, hrest⟩, hall⟩
          exact ⟨hname, hrest, hall⟩
      · rw [if_pos (Nat.not_le.mp hfits)]
        constructor
        · intro h
          cases h
        · rintro ⟨-, -, hall⟩
          omega
    · have hcheck := mt (textLabel_iff label).mp hlabel
      rw [Bool.not_eq_false] at hcheck
      rw [if_pos hcheck]
      constructor
      · intro h
        cases h
      · rintro ⟨-, hall, -⟩
        exact (hlabel (hall label List.mem_cons_self)).elim

/-- A text that is not the root is accepted label by label. -/
theorem fromStr_eq_ok_iff {text : List UInt8} {name : DomainName} (hroot : text ≠ [0x2e]) :
    fromStr text = .ok name ↔
      name = ⟨(stripDot text).splitOn 0x2e⟩ ∧
        (∀ label ∈ (stripDot text).splitOn 0x2e, TextLabel label) ∧
        1 + labelBytes ((stripDot text).splitOn 0x2e) ≤ maxNameLength := by
  rw [fromStr, if_neg hroot, pushLabels_eq_ok_iff (by decide), List.nil_append]

/-- What `from_str` accepts it keeps, label by label. -/
theorem fromStr_labels {text : List UInt8} {name : DomainName} (h : fromStr text = .ok name) :
    name.labels = textLabels (stripDot text) := by
  by_cases hroot : text = [0x2e]
  · subst hroot
    cases h
    rfl
  · obtain ⟨rfl, hrest, -⟩ := (fromStr_eq_ok_iff hroot).mp h
    unfold textLabels
    split
    · -- Without a byte there is one empty label, which is refused.
      rename_i hempty
      rw [hempty] at hrest
      exact ((hrest [] (List.mem_singleton.mpr rfl)).nonempty rfl).elim
    · rfl

/-- Folding makes no dot and removes none. -/
theorem toAsciiLowercase_eq_dot (b : UInt8) : toAsciiLowercase b = 0x2e ↔ b = 0x2e := by
  unfold toAsciiLowercase
  split
  · rename_i hupper
    rw [UInt8.le_iff_toNat_le, UInt8.le_iff_toNat_le] at hupper
    rw [← UInt8.toNat_inj, ← UInt8.toNat_inj, UInt8.toNat_add]
    simp only [UInt8.reduceToNat] at hupper ⊢
    omega
  · exact Iff.rfl

/-- A name in lower case is the name of its text in lower case. -/
theorem fromStr_folded {text : List UInt8} {name : DomainName} (h : fromStr text = .ok name) :
    name.folded = textLabels (foldedText text) := by
  unfold folded foldedText
  rw [fromStr_labels h]
  unfold textLabels
  by_cases hempty : stripDot text = []
  · rw [hempty]
    rfl
  · rw [if_neg hempty, if_neg fun h => hempty (List.map_eq_nil_iff.mp h)]
    exact (splitOn_map toAsciiLowercase 0x2e toAsciiLowercase_eq_dot _).symm

/-- Two texts that differ in case and in a final dot only are one name. -/
theorem beq_of_foldedText {text text' : List UInt8} {name name' : DomainName}
    (h : fromStr text = .ok name) (h' : fromStr text' = .ok name')
    (hsame : foldedText text = foldedText text') : (name == name') = true := by
  rw [beq_iff, fromStr_folded h, fromStr_folded h', hsame]

end Sederial.Dns.DomainName
