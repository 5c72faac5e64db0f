import Sederial.Proofs.NameBytes
import Sederial.Proofs.NameText

/-!
# `Sederial.Proofs.NameCodec`: the round trip of names

`encode` writes a name without looking at any limit. It relies on its callers: names come
from `decode` and from `from_str`, and both make only names that satisfy
`DomainName.Valid` (`DecodesTo.valid`, `fromStr_valid`). For those the length byte of a label
is the label length, with its two tag bits clear (`tag_of_length`), and `decode` reads back
what was written wherever it stands.
-/

set_option autoImplicit false

namespace Sederial.Dns

open Sederial.Lib

namespace DomainName

/-- The labels `pushLabels` has taken so far, with their encoded length. -/
structure Taken (labels : List (List UInt8)) (length : Nat) : Prop where
  each : ∀ label ∈ labels, 1 ≤ label.length ∧ label.length ≤ 63
  encoded : length = encodedLength labels
  length : length ≤ 255

/-- The encoded length of two lists of labels is one length and the bytes of the other's labels. -/
theorem encodedLength_append (labels labels' : List (List UInt8)) :
    encodedLength (labels ++ labels') = encodedLength labels + labelBytes labels' := by
  simp only [encodedLength, labelBytes, List.map_append, List.sum_append]
  omega

/-- A label that passes the checks of `from_str` has 1 to 63 bytes. -/
theorem TextLabel.length {label : List UInt8} (h : TextLabel label) :
    1 ≤ label.length ∧ label.length ≤ 63 :=
  ⟨List.length_pos_of_ne_nil h.nonempty, h.short⟩

/-- The loop of `from_str` keeps the limits. -/
theorem pushLabels_valid {rest labels : List (List UInt8)} {length : Nat} {name : DomainName}
    (htaken : Taken labels length) (h : pushLabels rest labels length = .ok name) :
    name.Valid := by
  obtain ⟨rfl, hrest, hall⟩ := (pushLabels_eq_ok_iff htaken.length).mp h
  refine ⟨fun label hmem => ?_, ?_⟩
  · rcases List.mem_append.mp hmem with hmem | hmem
    · exact htaken.each label hmem
    · exact (hrest label hmem).length
  · rw [encodedLength_append, ← htaken.encoded]
    exact hall

/-- Names written as text keep the limits. -/
theorem fromStr_valid {text : List UInt8} {name : DomainName} (h : fromStr text = .ok name) :
    name.Valid := by
  unfold fromStr at h
  split at h
  · cases h
    exact ⟨by simp, by decide⟩
  · exact pushLabels_valid ⟨by simp, rfl, by decide⟩ h

/-- The length byte of a label carries no tag. -/
theorem tag_of_length {label : List UInt8} (h : label.length ≤ 63) :
    (UInt8.ofNat label.length).toNat = label.length ∧
      UInt8.ofNat label.length &&& labelTagMask = 0 := by
  have hbyte : (UInt8.ofNat label.length).toNat = label.length := by
    rw [UInt8.toNat_ofNat']
    omega
  refine ⟨hbyte, (tag_eq_zero_iff _).mpr ?_⟩
  rw [hbyte]
  exact h

/-- What was encoded is decoded, wherever it stands. -/
theorem Valid.decode_encode {name : DomainName} (h : name.Valid) (pre post : List UInt8) :
    decode (pre ++ name.encode ++ post) pre.length
      = .ok (name, pre.length + name.encode.length) := by
  have hname := NameAt.encode pre post name.labels h.labels
  have hwire : pre ++ name.encode ++ post
      = pre ++ (encodeLabels name.labels ++ 0 :: post) := by
    simp [encode_eq]
  have hend : pre.length + name.encode.length
      = pre.length + (encodeLabels name.labels).length + 1 := by
    rw [encode_eq, List.length_append]
    rfl
  rw [hwire, hend]
  -- The encoding has no pointer, so no limit but the length is in question.
  exact decode_eq_ok_iff.mpr ⟨0, Nat.zero_le _, hname, h.length⟩

/-- Name codec round trip. Every name that `decode` or `from_str` makes has labels of 1 to 63
bytes and an encoding of at most 255 bytes. The encoding of such a name is decoded to the same
label bytes wherever it stands, and the cursor ends behind it. No length byte in it is a pointer
or has a reserved tag. -/
theorem codec_roundTrip {name : DomainName}
    (h : (∃ wire cursor next, decode wire cursor = .ok (name, next)) ∨
      ∃ text, fromStr text = .ok name) :
    (∀ label ∈ name.labels, 1 ≤ label.length ∧ label.length ≤ 63) ∧
      name.encode.length ≤ 255 ∧
      (∀ pre post : List UInt8, decode (pre ++ name.encode ++ post) pre.length
        = .ok (name, pre.length + name.encode.length)) ∧
      ∀ label ∈ name.labels, (UInt8.ofNat label.length).toNat = label.length ∧
        UInt8.ofNat label.length &&& labelTagMask = 0 := by
  have hvalid : name.Valid := by
    rcases h with ⟨wire, cursor, next, h⟩ | ⟨text, h⟩
    · exact (decode_eq_ok_iff.mp h).valid
    · exact fromStr_valid h
  refine ⟨hvalid.labels, ?_, hvalid.decode_encode,
    fun label hmem => tag_of_length (hvalid.labels label hmem).2⟩
  rw [length_encode]
  exact hvalid.length

/-- The configured name `a.lan` stands behind two bytes and in front of one. -/
theorem codec_roundTrip_lan :
    fromStr [0x61, 0x2e, 0x6c, 0x61, 0x6e, 0x2e] = .ok ⟨[[0x61], [0x6c, 0x61, 0x6e]]⟩ ∧
      decode ([1, 2] ++ encode ⟨[[0x61], [0x6c, 0x61, 0x6e]]⟩ ++ [3]) 2
        = .ok (⟨[[0x61], [0x6c, 0x61, 0x6e]]⟩, 9) := by
  have htext : fromStr [0x61, 0x2e, 0x6c, 0x61, 0x6e, 0x2e]
      = .ok ⟨[[0x61], [0x6c, 0x61, 0x6e]]⟩ := by
    decide +kernel
  exact ⟨htext, (codec_roundTrip (.inr ⟨_, htext⟩)).2.2.1 [1, 2] [3]⟩

end DomainName

end Sederial.Dns
