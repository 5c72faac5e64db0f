import Sederial.Proofs.NameDecode

/-!
# `Sederial.Proofs.NameBytes`: which bytes a name depends on, and the codec round trip

`NameReads wire p i` says that decoding the name at `p` looks at offset `i`. A derivation
survives every change of the message that leaves those offsets alone (`NameAt.congr`).
Decoding never looks at the header (`NameReads.afterHeader`), so it does not see the
transaction ID. It never looks past the end of the message (`NameReads.lt_length`), so it does
not see what is appended.

`NameAt.encode` is the round trip: the bytes `DomainName.encode` appends decode to the
labels they were made from, wherever they stand.
-/

set_option autoImplicit false

namespace Sederial.Dns

open Sederial.Lib
open DomainName (Hop nameAt_of_hop)

/-- Decoding the name at `p` looks at offset `i`. -/
inductive NameReads (wire : List UInt8) : Nat → Nat → Prop
  | head (p : Nat) : NameReads wire p p
  | body {p i : Nat} {length : UInt8} (head : wire[p]? = some length)
      (short : length.toNat ≤ 63) (after : p < i) (inside : i < p + 1 + length.toNat) :
      NameReads wire p i
  | tail {p : Nat} {high : UInt8} (head : wire[p]? = some high) (tag : 192 ≤ high.toNat) :
      NameReads wire p (p + 1)
  | hop {p q i : Nat} (hop : Hop wire p q) (rest : NameReads wire q i) : NameReads wire p i

/-- A name behind the header never looks at the header. -/
theorem NameReads.afterHeader {wire : List UInt8} {p i : Nat} (h : NameReads wire p i) :
    ∀ {labels : List (List UInt8)} {k e : Nat}, NameAt wire p labels k e → 12 ≤ p → 12 ≤ i := by
  induction h with
  | head p => intro _ _ _ _ hp; exact hp
  | body _ _ after _ => intro _ _ _ _ hp; omega
  | tail _ _ => intro _ _ _ _ hp; omega
  | hop hhop _ ih =>
      intro _ _ _ hname hp
      obtain ⟨_, _, _, hname', -, hq⟩ := nameAt_of_hop hname hhop
      exact ih hname' (hq hp)

/-- A name looks at bytes of the message only. -/
theorem NameReads.lt_length {wire : List UInt8} {p i : Nat} (h : NameReads wire p i) :
    ∀ {labels : List (List UInt8)} {k e : Nat}, NameAt wire p labels k e → i < wire.length := by
  induction h with
  | head p =>
    intro labels k e hname
    obtain ⟨b, head⟩ := hname.exists_head
    exact (List.getElem?_eq_some_iff.mp head).1
  | @body p i length head short after inside =>
    intro labels k e hname
    have nonempty : 1 ≤ length.toNat := by omega
    obtain ⟨_, _, -, bytes, -⟩ := hname.of_label head nonempty short
    have hstop := (slice_eq_some_iff.mp bytes).2.1
    omega
  | tail head tag =>
    intro labels k e hname
    obtain ⟨_, _, tail, -⟩ := hname.of_pointer head tag
    exact (List.getElem?_eq_some_iff.mp tail).1
  | hop hhop _ ih =>
    intro labels k e hname
    obtain ⟨_, _, _, hname', -, -⟩ := nameAt_of_hop hname hhop
    exact ih hname'

/-- Decoding the root looks at one byte. -/
theorem NameReads.eq_of_root {wire : List UInt8} {p i : Nat} (h : NameReads wire p i)
    (hroot : wire[p]? = some 0) : i = p := by
  cases h with
  | head => rfl
  | body head _ after inside =>
      rw [hroot] at head
      cases head
      exact absurd (Nat.lt_of_lt_of_le inside (Nat.succ_le_of_lt after)) (Nat.lt_irrefl _)
  | tail head tag =>
      rw [hroot] at head
      cases head
      exact absurd tag (by decide)
  | hop hhop _ =>
      cases hhop with
      | label head nonempty _ =>
          rw [hroot] at head
          cases head
          exact absurd nonempty (by decide)
      | pointer head _ tag =>
          rw [hroot] at head
          cases head
          exact absurd tag (by decide)

namespace NameAt

/-- A derivation survives every change that keeps the bytes it looks at. -/
theorem congr {wire wire' : List UInt8} {p : Nat} {labels : List (List UInt8)} {k e : Nat}
    (h : NameAt wire p labels k e) (hagree : AgreeOn (NameReads wire p) wire wire') :
    NameAt wire' p labels k e := by
  induction h with
  | root head => exact .root (by rw [← hagree _ (.head _), head])
  | label head nonempty short bytes _ ih =>
      refine .label (by rw [← hagree _ (.head _), head]) nonempty short ?_ (ih fun i hi => ?_)
      · rw [← bytes]
        refine (slice_congr_of_lt (by omega) fun i hi => ?_).symm
        exact hagree i (.body head short (by omega) (by omega))
      · exact hagree i (.hop (.label head nonempty short) hi)
  | pointer head tail tag offset afterHeader backward _ ih =>
      refine .pointer (by rw [← hagree _ (.head _), head])
        (by rw [← hagree _ (.tail head tag), tail]) tag offset afterHeader backward
        (ih fun i hi => ?_)
      subst offset
      exact hagree i (.hop (.pointer head tail tag) hi)

/-- A name takes at least one byte. -/
theorem lt_end {wire : List UInt8} {p : Nat} {labels : List (List UInt8)} {k e : Nat}
    (h : NameAt wire p labels k e) : p < e := by
  induction h with
  | root _ => omega
  | label _ _ _ _ _ ih => omega
  | pointer _ _ _ _ _ _ _ _ => omega

/-- Every derived label has 1 to 63 bytes. -/
theorem label_length {wire : List UInt8} {p : Nat} {labels : List (List UInt8)} {k e : Nat}
    (h : NameAt wire p labels k e) :
    ∀ label ∈ labels, 1 ≤ label.length ∧ label.length ≤ 63 := by
  induction h with
  | root _ => simp
  | label _ nonempty short bytes _ ih =>
      intro l hl
      rcases List.mem_cons.mp hl with rfl | hl
      · have hlen := length_of_slice_eq_some bytes
        omega
      · exact ih l hl
  | pointer _ _ _ _ _ _ _ ih => exact ih

end NameAt

/-- A name the service can hold: labels of 1 to 63 bytes, at most 255 bytes encoded. -/
structure DomainName.Valid (name : DomainName) : Prop where
  labels : ∀ label ∈ name.labels, 1 ≤ label.length ∧ label.length ≤ 63
  length : encodedLength name.labels ≤ 255

namespace DecodesTo

variable {wire wire' : List UInt8} {p e : Nat} {labels : List (List UInt8)}

/-- A name that decodes is within the bounds of a name. -/
theorem valid (h : DecodesTo wire p labels e) : DomainName.Valid ⟨labels⟩ := by
  obtain ⟨k, -, hname, hlen⟩ := h
  exact ⟨hname.label_length, hlen⟩

/-- A name that decodes has at least one byte. -/
theorem lt_end (h : DecodesTo wire p labels e) : p < e := by
  obtain ⟨k, -, hname, -⟩ := h
  exact hname.lt_end

/-- At most one name decodes at a position, with one end. -/
theorem unique {labels' : List (List UInt8)} {e' : Nat} (h : DecodesTo wire p labels e)
    (h' : DecodesTo wire p labels' e') : labels = labels' ∧ e = e' := by
  obtain ⟨k, -, hname, -⟩ := h
  obtain ⟨k', -, hname', -⟩ := h'
  obtain ⟨hl, -, he⟩ := hname.unique hname'
  exact ⟨hl, he⟩

/-- A name decodes alike in any message with the same bytes where it was read. -/
theorem congr (h : DecodesTo wire p labels e)
    (hagree : AgreeOn (NameReads wire p) wire wire') : DecodesTo wire' p labels e := by
  obtain ⟨k, hk, hname, hlen⟩ := h
  exact ⟨k, hk, hname.congr hagree, hlen⟩

/-- A name behind the header is the same in every message that agrees behind the
header. -/
theorem congr_afterHeader (h : DecodesTo wire p labels e) (hp : 12 ≤ p)
    (hagree : AgreeOn (fun i => 12 ≤ i) wire wire') : DecodesTo wire' p labels e := by
  obtain ⟨k, -, hname, -⟩ := id h
  exact h.congr fun i hi => hagree i (hi.afterHeader hname hp)

end DecodesTo

/-! ### The round trip of the uncompressed encoding -/

/-- The encoded bytes of a label list before the root byte. -/
def encodeLabels (labels : List (List UInt8)) : List UInt8 :=
  labels.flatMap fun label => UInt8.ofNat label.length :: label

/-- A name is written as its labels and the root. -/
theorem encode_eq (name : DomainName) : name.encode = encodeLabels name.labels ++ [0] := rfl

/-- The labels and the root have the encoded length of the name. -/
theorem length_encodeLabels (labels : List (List UInt8)) :
    (encodeLabels labels).length + 1 = encodedLength labels := by
  induction labels with
  | nil => rfl
  | cons label labels ih =>
      simp only [encodeLabels, encodedLength, List.flatMap_cons, List.length_append,
        List.length_cons, List.map_cons, List.sum_cons] at ih ⊢
      omega

/-- A name is written in its encoded length. -/
theorem length_encode (name : DomainName) : name.encode.length = encodedLength name.labels := by
  rw [encode_eq, List.length_append, List.length_singleton, length_encodeLabels]

/-- The uncompressed encoding of a label list derives that list wherever it stands. -/
theorem NameAt.encode (pre post : List UInt8) (labels : List (List UInt8))
    (hlabels : ∀ label ∈ labels, 1 ≤ label.length ∧ label.length ≤ 63) :
    NameAt (pre ++ (encodeLabels labels ++ 0 :: post)) pre.length labels 0
      (pre.length + (encodeLabels labels).length + 1) := by
  induction labels generalizing pre with
  | nil =>
      exact .root (by simp [encodeLabels])
  | cons label labels ih =>
      obtain ⟨hpos, hshort⟩ := hlabels label (by simp)
      have hbyte : (UInt8.ofNat label.length).toNat = label.length := by
        rw [UInt8.toNat_ofNat']
        omega
      -- The remaining labels are encoded after this one, so `ih` runs with a longer prefix.
      have hrest := ih (pre ++ UInt8.ofNat label.length :: label)
        (fun l hl => hlabels l (by simp [hl]))
      have hsplit : pre ++ (encodeLabels (label :: labels) ++ 0 :: post)
          = (pre ++ UInt8.ofNat label.length :: label) ++ (encodeLabels labels ++ 0 :: post) := by
        simp [encodeLabels]
      have hlen : (pre ++ UInt8.ofNat label.length :: label).length
          = pre.length + 1 + (UInt8.ofNat label.length).toNat := by
        rw [hbyte, List.length_append, List.length_cons]
        omega
      have hend : pre.length + (encodeLabels (label :: labels)).length + 1
          = (pre ++ UInt8.ofNat label.length :: label).length
            + (encodeLabels labels).length + 1 := by
        rw [hlen, hbyte]
        simp only [encodeLabels, List.flatMap_cons, List.length_append, List.length_cons]
        omega
      rw [hend, hsplit]
      have hhead : ((pre ++ UInt8.ofNat label.length :: label)
          ++ (encodeLabels labels ++ 0 :: post))[pre.length]?
          = some (UInt8.ofNat label.length) := by
        simp
      refine .label hhead (by omega) (by omega) ?_ (hlen ▸ hrest)
      -- The label stands behind the prefix and its own length byte.
      have hslice := slice_append (pre ++ [UInt8.ofNat label.length]) label
        (encodeLabels labels ++ 0 :: post) rfl
      simp only [List.append_assoc, List.length_append, List.length_singleton,
        List.singleton_append] at hslice
      rw [hbyte, List.append_assoc, List.cons_append]
      exact hslice

end Sederial.Dns
