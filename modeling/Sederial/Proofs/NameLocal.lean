import Sederial.Proofs.CookieRetry

/-!
# `Sederial.Proofs.NameLocal`: how far a name looks

An encoded name ends physically at its root byte or at its first pointer (`NameEnds`). What
follows a pointer is decoded elsewhere. `decode` only asks that the target lies before the
pointer. From there it reads forward, and nothing stops it from reading on past the pointer,
into bytes that are no part of the name.

* `decode_local_iff`: the bytes up to the physical end determine the name exactly when it
  looks back (`NameLooksBack`), that is, when decoding looks at no byte behind that end.
* `PointsToPrior.looksBack`: a name whose pointers lead to names that end before the pointer
  looks back. These are the pointers to a prior occurrence.
* `decode_misaligned`: two messages with the same first 16 bytes hold different names there.
-/

set_option autoImplicit false

namespace Sederial.Dns

open Sederial.Lib
open DomainName (Hop decode decode_eq_ok_iff)

variable {wire wire' : List UInt8}

/-! ### The bytes a name looks at -/

namespace NameReads

variable {p i : Nat}

/-- A label is looked at before the rest of the name. -/
theorem of_label {length : UInt8} (h : NameReads wire p i) (head : wire[p]? = some length)
    (short : length.toNat ≤ 63) :
    i < p + 1 + length.toNat ∨ NameReads wire (p + 1 + length.toNat) i := by
  cases h with
  | head => exact .inl (by omega)
  | body head' _ _ inside =>
    rw [head] at head'
    cases head'
    exact .inl inside
  | tail head' tag =>
    rw [head] at head'
    cases head'
    omega
  | hop hhop rest =>
    cases hhop with
    | label head' _ _ =>
      rw [head] at head'
      cases head'
      exact .inr rest
    | pointer head' _ tag =>
      rw [head] at head'
      cases head'
      omega

/-- A pointer is looked at before the name it leads to. -/
theorem of_pointer {high low : UInt8} (h : NameReads wire p i) (head : wire[p]? = some high)
    (tail : wire[p + 1]? = some low) (tag : 192 ≤ high.toNat) :
    i < p + 2 ∨ NameReads wire ((high.toNat - 192) * 256 + low.toNat) i := by
  cases h with
  | head => exact .inl (by omega)
  | body head' short _ _ =>
    rw [head] at head'
    cases head'
    omega
  | tail _ _ => exact .inl (by omega)
  | hop hhop rest =>
    cases hhop with
    | label head' _ short =>
      rw [head] at head'
      cases head'
      omega
    | pointer head' tail' _ =>
      rw [head] at head'
      cases head'
      rw [tail] at tail'
      cases tail'
      exact .inr rest

end NameReads

/-- A hop only depends on bytes that the name looks at. -/
theorem DomainName.Hop.congr {p q : Nat} (h : Hop wire' p q)
    (hagree : AgreeOn (NameReads wire p) wire wire') : Hop wire p q := by
  cases h with
  | label head nonempty short =>
    exact .label (by rw [hagree p (.head p), head]) nonempty short
  | pointer head tail tag =>
    have hhead := (hagree p (.head p)).trans head
    exact .pointer hhead (by rw [hagree _ (.tail hhead tag), tail]) tag

/-- Two messages that agree on what a name looks at in the first, agree on what it looks at. -/
theorem NameReads.congr {p i : Nat} (h : NameReads wire' p i) :
    AgreeOn (NameReads wire p) wire wire' → NameReads wire p i := by
  induction h with
  | head p => exact fun _ => .head p
  | body head short after inside =>
    intro hagree
    exact .body (by rw [hagree _ (.head _), head]) short after inside
  | tail head tag =>
    intro hagree
    exact .tail (by rw [hagree _ (.head _), head]) tag
  | hop hhop _ ih =>
    intro hagree
    have hhop' := hhop.congr hagree
    exact .hop hhop' (ih fun j hj => hagree j (.hop hhop' hj))

/-! ### The physical end -/

/-- The encoded name at `p` ends physically at `e`: behind its root byte, or behind its first
pointer. -/
inductive NameEnds (wire : List UInt8) : Nat → Nat → Prop
  | root {p : Nat} (head : wire[p]? = some 0) : NameEnds wire p (p + 1)
  | label {p e : Nat} {length : UInt8} (head : wire[p]? = some length)
      (nonempty : 1 ≤ length.toNat) (short : length.toNat ≤ 63)
      (rest : NameEnds wire (p + 1 + length.toNat) e) : NameEnds wire p e
  | pointer {p : Nat} {high : UInt8} (head : wire[p]? = some high) (tag : 192 ≤ high.toNat) :
      NameEnds wire p (p + 2)

namespace NameEnds

variable {p e : Nat}

/-- A name that begins with the root ends behind it. -/
theorem of_root (h : NameEnds wire p e) (hroot : wire[p]? = some 0) : e = p + 1 := by
  cases h with
  | root _ => rfl
  | label head nonempty _ _ =>
    rw [hroot] at head
    cases head
    exact absurd nonempty (by decide)
  | pointer head tag =>
    rw [hroot] at head
    cases head
    exact absurd tag (by decide)

/-- A name that begins with a label ends where the rest of it does. -/
theorem of_label {length : UInt8} (h : NameEnds wire p e) (head : wire[p]? = some length)
    (nonempty : 1 ≤ length.toNat) (short : length.toNat ≤ 63) :
    NameEnds wire (p + 1 + length.toNat) e := by
  cases h with
  | root head' =>
    rw [head] at head'
    cases head'
    exact absurd nonempty (by decide)
  | label head' _ _ rest =>
    rw [head] at head'
    cases head'
    exact rest
  | pointer head' tag =>
    rw [head] at head'
    cases head'
    omega

/-- A name that begins with a pointer ends behind its two bytes. -/
theorem of_pointer {high : UInt8} (h : NameEnds wire p e) (head : wire[p]? = some high)
    (tag : 192 ≤ high.toNat) : e = p + 2 := by
  cases h with
  | root head' =>
    rw [head] at head'
    cases head'
    exact absurd tag (by decide)
  | label head' _ short _ =>
    rw [head] at head'
    cases head'
    omega
  | pointer _ _ => rfl

/-- A name has at least one byte. -/
theorem lt_end (h : NameEnds wire p e) : p < e := by
  induction h with
  | root _ => omega
  | label _ _ _ _ ih => omega
  | pointer _ _ => omega

end NameEnds

/-- A name that decodes ends where its bytes say. -/
theorem NameAt.ends {p : Nat} {labels : List (List UInt8)} {k e : Nat}
    (h : NameAt wire p labels k e) : NameEnds wire p e := by
  induction h with
  | root head => exact .root head
  | label head nonempty short _ _ ih => exact .label head nonempty short ih
  | pointer head _ tag _ _ _ _ _ => exact .pointer head tag

/-- The physical end is where the derivation ends. -/
theorem NameEnds.eq_end {p e : Nat} (h : NameEnds wire p e) :
    ∀ {labels : List (List UInt8)} {k e' : Nat}, NameAt wire p labels k e' → e = e' := by
  induction h with
  | root head =>
    intro labels k e' hname
    exact (hname.of_root head).2.2.symm
  | label head nonempty short _ ih =>
    intro labels k e' hname
    obtain ⟨_, _, -, -, hrest⟩ := hname.of_label head nonempty short
    exact ih hrest
  | pointer head tag =>
    intro labels k e' hname
    obtain ⟨_, _, -, -, -, -, rfl, -⟩ := hname.of_pointer head tag
    rfl

/-- Decoding the name at `p` looks at no byte behind its physical end. -/
def NameLooksBack (wire : List UInt8) (p : Nat) : Prop :=
  ∀ e, NameEnds wire p e → ∀ i, NameReads wire p i → i < e

/-- A name looks back exactly when its reads all stay in front of its end. -/
theorem NameAt.looksBack_iff {p : Nat} {labels : List (List UInt8)} {k e : Nat}
    (h : NameAt wire p labels k e) :
    NameLooksBack wire p ↔ ∀ i, NameReads wire p i → i < e := by
  constructor
  · intro hback
    exact hback e h.ends
  · intro hreads e' hends
    rwa [hends.eq_end h]

/-! ### Names that look back -/

/-- Each pointer of the name at `p` leads to a name that ends before the pointer. -/
inductive PointsToPrior (wire : List UInt8) : Nat → Prop
  | root {p : Nat} (head : wire[p]? = some 0) : PointsToPrior wire p
  | label {p : Nat} {length : UInt8} (head : wire[p]? = some length)
      (nonempty : 1 ≤ length.toNat) (short : length.toNat ≤ 63)
      (rest : PointsToPrior wire (p + 1 + length.toNat)) : PointsToPrior wire p
  | pointer {p e : Nat} {high low : UInt8} (head : wire[p]? = some high)
      (tail : wire[p + 1]? = some low) (tag : 192 ≤ high.toNat)
      (ends : NameEnds wire ((high.toNat - 192) * 256 + low.toNat) e) (prior : e ≤ p)
      (rest : PointsToPrior wire ((high.toNat - 192) * 256 + low.toNat)) : PointsToPrior wire p

/-- A name whose pointers lead to a prior occurrence looks back. -/
theorem PointsToPrior.looksBack {p : Nat} (h : PointsToPrior wire p) : NameLooksBack wire p := by
  induction h with
  | root head =>
    intro e hends i hreads
    rw [hends.of_root head, hreads.eq_of_root head]
    exact Nat.lt_succ_self _
  | label head nonempty short _ ih =>
    intro e hends i hreads
    have hrest := hends.of_label head nonempty short
    rcases hreads.of_label head short with hinside | hreads
    · exact Nat.lt_trans hinside hrest.lt_end
    · exact ih e hrest i hreads
  | pointer head tail tag ends prior _ ih =>
    intro e hends i hreads
    rw [hends.of_pointer head tag]
    rcases hreads.of_pointer head tail tag with hinside | hreads
    · exact hinside
    · -- The occurrence ends in front of the pointer, and so does all that it looks at.
      have hlt := ih _ ends i hreads
      omega

/-! ### Locality of `decode` -/

/-- The bytes up to the physical end determine the name. Every message that agrees with this one
on the first `next` bytes decodes to the same labels and the same cursor, exactly when the name
looks back. -/
theorem decode_local_iff {cursor next : Nat} {name : DomainName}
    (h : decode wire cursor = .ok (name, next)) :
    (∀ wire' : List UInt8, wire'.take next = wire.take next →
      decode wire' cursor = .ok (name, next)) ↔ NameLooksBack wire cursor := by
  have hdecodes := decode_eq_ok_iff.mp h
  obtain ⟨k, -, hname, -⟩ := id hdecodes
  rw [hname.looksBack_iff]
  constructor
  · intro hlocal i hreads
    -- The message cut off at the end of the name is one of those that agree with it.
    have hself : (wire.take next).take next = wire.take next := by
      rw [List.take_take, Nat.min_self]
    have hcut := decode_eq_ok_iff.mp (hlocal (wire.take next) hself)
    obtain ⟨_, -, hname', -⟩ := hcut
    have hlength : ∀ j, NameReads (wire.take next) cursor j → j < next := by
      intro j hj
      have hlt := hj.lt_length hname'
      rw [List.length_take] at hlt
      omega
    refine hlength i (hreads.congr fun j hj => ?_)
    exact List.getElem?_take_of_lt (hlength j hj)
  · -- A derivation survives every change behind what it looks at.
    intro hback wire' hagree
    refine decode_eq_ok_iff.mpr (hdecodes.congr fun i hreads => ?_)
    have hlt := hback i hreads
    rw [← List.getElem?_take_of_lt hlt, ← hagree, List.getElem?_take_of_lt hlt]

/-- A message with the name `a` behind the header, and behind it a pointer to that name. -/
def priorWire : List UInt8 := List.replicate 12 0 ++ [1, 0x61, 0, 192, 12]

/-- The pointer leads to a prior occurrence, so the bytes behind it do not matter. -/
theorem decode_local_prior :
    decode priorWire 15 = .ok (⟨[[0x61]]⟩, 17) ∧
      ∀ wire' : List UInt8, wire'.take 17 = priorWire.take 17 →
        decode wire' 15 = .ok (⟨[[0x61]]⟩, 17) := by
  have hdecode : decode priorWire 15 = .ok (⟨[[0x61]]⟩, 17) := by decide +kernel
  have hlength : priorWire[12]? = some 1 := by decide
  have hroot : priorWire[14]? = some 0 := by decide
  have hhigh : priorWire[15]? = some 192 := by decide
  have hlow : priorWire[16]? = some 12 := by decide
  have hends : NameEnds priorWire 12 15 := .label hlength (by decide) (by decide) (.root hroot)
  have hprior : PointsToPrior priorWire 12 :=
    .label hlength (by decide) (by decide) (.root hroot)
  have hback : PointsToPrior priorWire 15 :=
    .pointer hhigh hlow (by decide) hends (by decide) hprior
  exact ⟨hdecode, (decode_local_iff hdecode).mpr hback.looksBack⟩

/-- A cookie rewrite keeps the first 16 bytes of `misalignedQuery`, where its question name ends,
and yet the name has other labels. -/
theorem decode_misaligned :
    ∃ name name' : DomainName,
      misalignedRetry.wire.take 16 = misalignedQuery.wire.take 16 ∧
      decode misalignedQuery.wire 12 = .ok (name, 16) ∧
      decode misalignedRetry.wire 12 = .ok (name', 16) ∧ name.labels ≠ name'.labels := by
  refine ⟨⟨[[21], [192, 13, 0, 1, 0, 1, 0, 0, 41, 4, 208, 0, 0, 0, 0, 0, 12, 0, 10, 0, 8]]⟩,
    ⟨[[21], [192, 13, 0, 1, 0, 1, 0, 0, 41, 4, 208, 0, 0, 0, 0, 0, 20, 0, 10, 0, 16]]⟩, ?_, ?_,
    ?_, ?_⟩
  · decide
  · decide +kernel
  · decide +kernel
  · decide

end Sederial.Dns
