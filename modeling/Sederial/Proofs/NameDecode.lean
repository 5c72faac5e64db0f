import Sederial.Dns.Name
import Mathlib.Logic.Relation

/-!
# `Sederial.Proofs.NameDecode`: name decoding is exact

`NameAt wire p labels k e` is the declarative reading of an encoded name. It says that the
bytes of `wire` from offset `p` derive `labels` through `k` compression pointers, and that
the name ends physically at `e`: after its root byte when it has no pointer, and after its
first pointer otherwise. `DecodesTo` adds the two limits of the service, 128 pointers and
255 expanded bytes.

* `decode_eq_ok_iff`: `decode` succeeds exactly on the names with such a derivation.
* `decodeWithin_start`: the loop has returned after 383 iterations, on every input.
* `decode_compressionLoop`: the visited set only rejects a walk that really repeats.

The visited set is redundant for derivable names. A derivation is determined by its start
(`NameAt.unique`), so the number of its steps, labels plus pointers, is a function of the
position. It falls on every hop, and hence no target of a derivation comes back.
-/

set_option autoImplicit false

namespace Sederial.Dns

open Sederial.Lib

/-! ### Tag bits -/

/-- A property of all bytes, checked value by value. -/
theorem forall_uint8 {P : UInt8 → Prop} (h : ∀ n : Fin 256, P (UInt8.ofFin n)) : ∀ b, P b :=
  fun b => h b.toFin

/-- A byte with both tag bits set is 192 or more. -/
theorem tag_eq_pointer_iff (head : UInt8) :
    head &&& labelTagMask = pointerTag ↔ 192 ≤ head.toNat := by
  revert head
  apply forall_uint8
  decide +kernel

/-- A byte without a tag bit is 63 or less. -/
theorem tag_eq_zero_iff (head : UInt8) : head &&& labelTagMask = 0 ↔ head.toNat ≤ 63 := by
  revert head
  apply forall_uint8
  decide +kernel

/-- The low six bits. -/
theorem toNat_and_pointerOffsetMask (head : UInt8) :
    (head &&& pointerOffsetMask).toNat = head.toNat % 64 := by
  revert head
  apply forall_uint8
  decide +kernel

/-- The target of a pointer as a number. -/
theorem pointerTarget_eq {head : UInt8} (tail : UInt8) (h : 192 ≤ head.toNat) :
    DomainName.pointerTarget head tail = (head.toNat - 192) * 256 + tail.toNat := by
  have hlt := head.toNat_lt
  unfold DomainName.pointerTarget
  rw [toNat_word, toNat_and_pointerOffsetMask]
  omega

/-! ### The grammar of encoded names -/

/-- The bytes from offset `p` derive `labels` through `k` pointers, and the name ends
physically at `e`. -/
inductive NameAt (wire : List UInt8) : Nat → List (List UInt8) → Nat → Nat → Prop
  | root {p : Nat} (head : wire[p]? = some 0) : NameAt wire p [] 0 (p + 1)
  | label {p : Nat} {length : UInt8} {label : List UInt8} {labels : List (List UInt8)}
      {k e : Nat} (head : wire[p]? = some length) (nonempty : 1 ≤ length.toNat)
      (short : length.toNat ≤ 63)
      (bytes : slice wire (p + 1) (p + 1 + length.toNat) = some label)
      (rest : NameAt wire (p + 1 + length.toNat) labels k e) :
      NameAt wire p (label :: labels) k e
  | pointer {p : Nat} {high low : UInt8} {target : Nat} {labels : List (List UInt8)}
      {k e : Nat} (head : wire[p]? = some high) (tail : wire[p + 1]? = some low)
      (tag : 192 ≤ high.toNat) (offset : target = (high.toNat - 192) * 256 + low.toNat)
      (afterHeader : 12 ≤ target) (backward : target < p)
      (rest : NameAt wire target labels k e) :
      NameAt wire p labels (k + 1) (p + 2)

/-- The length of a label list on the wire without compression. -/
def encodedLength (labels : List (List UInt8)) : Nat :=
  1 + (labels.map fun label => label.length + 1).sum

/-- The bytes from offset `p` derive `labels` within the limits of the service. -/
def DecodesTo (wire : List UInt8) (p : Nat) (labels : List (List UInt8)) (e : Nat) : Prop :=
  ∃ k, k ≤ 128 ∧ NameAt wire p labels k e ∧ encodedLength labels ≤ 255

namespace NameAt

variable {wire : List UInt8} {p : Nat} {labels : List (List UInt8)} {k e : Nat}

/-- A name starts with a byte. -/
theorem exists_head (h : NameAt wire p labels k e) : ∃ b, wire[p]? = some b := by
  cases h with
  | root head => exact ⟨_, head⟩
  | label head _ _ _ _ => exact ⟨_, head⟩
  | pointer head _ _ _ _ _ _ => exact ⟨_, head⟩

/-- A derivation from the root byte. -/
theorem of_root (h : NameAt wire p labels k e) (head : wire[p]? = some 0) :
    labels = [] ∧ k = 0 ∧ e = p + 1 := by
  cases h with
  | root _ => exact ⟨rfl, rfl, rfl⟩
  | label head' nonempty _ _ _ =>
      rw [head] at head'
      cases head'
      exact absurd nonempty (by decide)
  | pointer head' _ tag _ _ _ _ =>
      rw [head] at head'
      cases head'
      exact absurd tag (by decide)

/-- A derivation from a length byte. -/
theorem of_label {length : UInt8} (h : NameAt wire p labels k e) (head : wire[p]? = some length)
    (nonempty : 1 ≤ length.toNat) (short : length.toNat ≤ 63) :
    ∃ label rest, labels = label :: rest ∧
      slice wire (p + 1) (p + 1 + length.toNat) = some label ∧
      NameAt wire (p + 1 + length.toNat) rest k e := by
  cases h with
  | root head' =>
      rw [head] at head'
      cases head'
      exact absurd nonempty (by decide)
  | label head' _ _ bytes rest =>
      rw [head] at head'
      cases head'
      exact ⟨_, _, rfl, bytes, rest⟩
  | pointer head' _ tag _ _ _ _ =>
      rw [head] at head'
      cases head'
      omega

/-- A derivation from the first byte of a pointer. -/
theorem of_pointer {high : UInt8} (h : NameAt wire p labels k e) (head : wire[p]? = some high)
    (tag : 192 ≤ high.toNat) :
    ∃ low k', wire[p + 1]? = some low ∧ 12 ≤ (high.toNat - 192) * 256 + low.toNat ∧
      (high.toNat - 192) * 256 + low.toNat < p ∧ k = k' + 1 ∧ e = p + 2 ∧
      ∃ e', NameAt wire ((high.toNat - 192) * 256 + low.toNat) labels k' e' := by
  cases h with
  | root head' =>
      rw [head] at head'
      cases head'
      exact absurd tag (by decide)
  | label head' _ short _ _ =>
      rw [head] at head'
      cases head'
      omega
  | pointer head' tail _ offset afterHeader backward rest =>
      rw [head] at head'
      cases head'
      subst offset
      exact ⟨_, _, tail, afterHeader, backward, rfl, rfl, _, rest⟩

end NameAt

/-- A position has at most one derivation. -/
theorem NameAt.unique {wire : List UInt8} {p : Nat} {labels labels' : List (List UInt8)}
    {k k' e e' : Nat} (h : NameAt wire p labels k e) (h' : NameAt wire p labels' k' e') :
    labels = labels' ∧ k = k' ∧ e = e' := by
  induction h generalizing labels' k' e' with
  | root head =>
      obtain ⟨rfl, rfl, rfl⟩ := h'.of_root head
      exact ⟨rfl, rfl, rfl⟩
  | label head nonempty short bytes _ ih =>
      obtain ⟨label', rest', rfl, bytes', hrest⟩ := h'.of_label head nonempty short
      rw [bytes] at bytes'
      cases bytes'
      obtain ⟨rfl, rfl, rfl⟩ := ih hrest
      exact ⟨rfl, rfl, rfl⟩
  | pointer head tail tag offset _ _ _ ih =>
      obtain ⟨low', n, tail', -, -, rfl, rfl, e', hrest⟩ := h'.of_pointer head tag
      rw [tail] at tail'
      cases tail'
      subst offset
      obtain ⟨rfl, rfl, -⟩ := ih hrest
      exact ⟨rfl, rfl, rfl⟩

/-! ### What one iteration can do -/

namespace DomainName

/-- The iteration that meets the root byte. -/
theorem decodeStep_eq_done_iff {wire : List UInt8} {s : DecodeState} {name : DomainName}
    {cursor : Nat} :
    decodeStep wire s = .ok (.done name cursor) ↔
      wire[s.position]? = some 0 ∧ name = ⟨s.labels⟩ ∧
        cursor = if s.jumped then s.cursor else s.position + 1 := by
  unfold decodeStep
  constructor
  · intro h
    -- Every branch but the one for the root byte fails or goes on.
    split at h
    · cases h
    · rename_i head hhead
      split at h
      · split at h
        · cases h
        · simp only at h
          split at h
          · cases h
          · split at h
            · cases h
            · split at h <;> cases h
      · split at h
        · simp only at h
          split at h
          · rename_i h0
            cases h
            exact ⟨by rw [hhead, h0], rfl, rfl⟩
          · split at h
            · cases h
            · split at h <;> cases h
        · cases h
  · rintro ⟨hhead, rfl, rfl⟩
    rw [hhead]
    have htag : ¬ ((0 : UInt8) &&& labelTagMask = pointerTag) := by decide
    have hzero : (0 : UInt8) &&& labelTagMask = 0 := by decide
    simp only [if_neg htag, if_pos hzero, if_true]

/-- An iteration that reads a label. -/
structure ReadsLabel (wire : List UInt8) (s s' : DecodeState) (length : UInt8)
    (label : List UInt8) : Prop where
  head : wire[s.position]? = some length
  nonempty : 1 ≤ length.toNat
  short : length.toNat ≤ 63
  bytes : slice wire (s.position + 1) (s.position + 1 + length.toNat) = some label
  fits : s.expanded + (length.toNat + 1) ≤ maxNameLength
  next : s' = { s with
    expanded := s.expanded + (length.toNat + 1)
    labels := s.labels ++ [label]
    position := s.position + 1 + length.toNat }

/-- An iteration that follows a pointer to `target`. -/
structure FollowsPointer (wire : List UInt8) (s s' : DecodeState) (high low : UInt8)
    (target : Nat) : Prop where
  head : wire[s.position]? = some high
  tail : wire[s.position + 1]? = some low
  tag : 192 ≤ high.toNat
  offset : target = (high.toNat - 192) * 256 + low.toNat
  fresh : target ∉ s.visited
  afterHeader : 12 ≤ target
  backward : target < s.position
  room : s.visited.length ≠ maxPointers
  next : s' = { s with
    visited := s.visited ++ [target]
    cursor := if s.jumped then s.cursor else s.position + 2
    jumped := true
    position := target }

/-- An iteration that goes round again reads a label or follows a pointer. -/
theorem decodeStep_next_cases {wire : List UInt8} {s s' : DecodeState}
    (h : decodeStep wire s = .ok (.next s')) :
    (∃ length label, ReadsLabel wire s s' length label) ∨
      ∃ high low target, FollowsPointer wire s s' high low target := by
  unfold decodeStep at h
  -- The nesting is that of the source: each check that fails returns an error.
  split at h
  · cases h
  · rename_i head hhead
    split at h
    -- A pointer: the target is in the message, behind the header and in front of the pointer.
    · rename_i htag
      rw [tag_eq_pointer_iff] at htag
      split at h
      · cases h
      · rename_i tail htail
        simp only [pointerTarget_eq tail htag] at h
        split at h
        · cases h
        · rename_i hfresh
          split at h
          · cases h
          · rename_i hbounds
            split at h
            · cases h
            · rename_i hroom
              right
              refine ⟨head, tail, _, hhead, htail, htag, rfl, ?_, ?_, ?_, hroom, ?_⟩
              · simpa using hfresh
              · simp only [headerLength] at hbounds
                omega
              · omega
              · cases h
                rfl
    -- A label, which is what is left of the two upper bits being neither `11` nor `00`.
    · split at h
      · rename_i hzero
        rw [tag_eq_zero_iff] at hzero
        simp only at h
        split at h
        · cases h
        · rename_i hne
          split at h
          · cases h
          · rename_i hfits
            split at h
            · cases h
            · rename_i label hlabel
              left
              have hpos : head.toNat ≠ 0 := fun h0 => hne (UInt8.toNat_inj.mp h0)
              refine ⟨head, label, hhead, by omega, hzero, hlabel, by omega, ?_⟩
              cases h
              rfl
      · cases h

/-- A label is read in one step. -/
theorem decodeStep_of_readsLabel {wire : List UInt8} {s s' : DecodeState} {length : UInt8}
    {label : List UInt8} (h : ReadsLabel wire s s' length label) :
    decodeStep wire s = .ok (.next s') := by
  obtain ⟨hhead, hpos, hshort, hbytes, hfits, rfl⟩ := h
  have htag : ¬ (length &&& labelTagMask = pointerTag) := by
    rw [tag_eq_pointer_iff]; omega
  have hzero : length &&& labelTagMask = 0 := (tag_eq_zero_iff length).mpr hshort
  have hne : ¬ length = 0 := by
    rintro rfl
    exact absurd hpos (by decide)
  unfold decodeStep
  simp only [hhead, if_neg htag, if_pos hzero, if_neg hne, hbytes]
  rw [if_neg (by omega)]

/-- A pointer is followed in one step. -/
theorem decodeStep_of_followsPointer {wire : List UInt8} {s s' : DecodeState}
    {high low : UInt8} {target : Nat} (h : FollowsPointer wire s s' high low target) :
    decodeStep wire s = .ok (.next s') := by
  obtain ⟨hhead, htail, htag, rfl, hfresh, hafter, hback, hroom, rfl⟩ := h
  have htag' : high &&& labelTagMask = pointerTag := (tag_eq_pointer_iff high).mpr htag
  unfold decodeStep
  simp only [hhead, if_pos htag', htail, pointerTarget_eq low htag, List.contains_iff_mem,
    if_neg hfresh, headerLength, if_neg hroom]
  rw [if_neg (by omega)]

/-! ### The loop -/

/-- The loop ends with the name. -/
theorem decodeLoop_of_done {wire : List UInt8} {s : DecodeState} (hs : s.InBounds)
    {name : DomainName} {cursor : Nat} (h : decodeStep wire s = .ok (.done name cursor)) :
    decodeLoop wire s hs = .ok (name, cursor) := by
  rw [decodeLoop]
  split
  all_goals
    rename_i hstep
    rw [h] at hstep
    cases hstep
  rfl

/-- The loop ends with the error. -/
theorem decodeLoop_of_error {wire : List UInt8} {s : DecodeState} (hs : s.InBounds)
    {error : ParseError} (h : decodeStep wire s = .error error) :
    decodeLoop wire s hs = .error error := by
  rw [decodeLoop]
  split
  all_goals
    rename_i hstep
    rw [h] at hstep
    cases hstep
  rfl

/-- The loop goes on behind a step. -/
theorem decodeLoop_of_next {wire : List UInt8} {s s' : DecodeState} (hs : s.InBounds)
    (h : decodeStep wire s = .ok (.next s')) :
    decodeLoop wire s hs = decodeLoop wire s' (decodeStep_next_budget hs h).1 := by
  rw [decodeLoop]
  split
  all_goals
    rename_i hstep
    rw [h] at hstep
    cases hstep
  rfl

/-- Induction over the iterations of the loop: the three ways an iteration can go. -/
theorem decodeLoop_induction (wire : List UInt8)
    {motive : (s : DecodeState) → s.InBounds → Prop}
    (error : ∀ s hs e, decodeStep wire s = .error e → motive s hs)
    (done : ∀ s hs name cursor, decodeStep wire s = .ok (.done name cursor) → motive s hs)
    (next : ∀ s hs s' (h : decodeStep wire s = .ok (.next s')),
      motive s' (decodeStep_next_budget hs h).1 → motive s hs) :
    ∀ s hs, motive s hs := by
  intro s hs
  induction hb : s.budget using Nat.strongRecOn generalizing s with
  | ind n ih =>
      cases h : decodeStep wire s with
      | error e => exact error s hs e h
      | ok outcome =>
          cases outcome with
          | done name cursor => exact done s hs name cursor h
          | next s' =>
              obtain ⟨hs', hlt⟩ := decodeStep_next_budget hs h
              exact next s hs s' h (ih _ (hb ▸ hlt) s' hs' rfl)

/-- The bytes the labels still to come add to the expanded length. -/
def labelBytes (labels : List (List UInt8)) : Nat :=
  (labels.map fun label => label.length + 1).sum

/-- Soundness of the loop: what it returns is derived from the current position, and the
limits held on the way. -/
theorem decodeLoop_sound {wire : List UInt8} :
    ∀ (s : DecodeState) (hs : s.InBounds) {name : DomainName} {cursor : Nat},
      decodeLoop wire s hs = .ok (name, cursor) →
      ∃ labels k e, NameAt wire s.position labels k e ∧ name.labels = s.labels ++ labels ∧
        cursor = (if s.jumped then s.cursor else e) ∧
        s.visited.length + k ≤ maxPointers ∧ s.expanded + labelBytes labels ≤ maxNameLength := by
  refine decodeLoop_induction wire ?error ?done ?next
  -- The induction follows the steps of the loop: the tree of the name grows at its front.
  case error =>
      intro s hs e h name cursor hloop
      rw [decodeLoop_of_error hs h] at hloop
      cases hloop
  case done =>
      intro s hs name cursor h name' cursor' hloop
      rw [decodeLoop_of_done hs h] at hloop
      cases hloop
      obtain ⟨hhead, rfl, rfl⟩ := decodeStep_eq_done_iff.mp h
      exact ⟨[], 0, s.position + 1, .root hhead, by simp, rfl, hs.visited,
        by simpa [labelBytes] using hs.expanded⟩
  case next =>
      intro s hs s' h ih name cursor hloop
      rw [decodeLoop_of_next hs h] at hloop
      obtain ⟨labels, k, e, hname, hlabels, hcursor, hv, he⟩ := ih hloop
      rcases decodeStep_next_cases h with ⟨length, label, hl⟩ | ⟨high, low, target, hp⟩
      -- A label was read, and it stands in front of the rest.
      · obtain ⟨hhead, hpos, hshort, hbytes, hfits, rfl⟩ := hl
        refine ⟨label :: labels, k, e, .label hhead hpos hshort hbytes hname, ?_, hcursor,
          hv, ?_⟩
        · simpa using hlabels
        · have hlen := length_of_slice_eq_some hbytes
          simp only [labelBytes, List.map_cons, List.sum_cons] at he ⊢
          omega
      -- A pointer was followed: the end of the name stands behind the first of them.
      · obtain ⟨hhead, htail, htag, hoff, -, hafter, hback, -, rfl⟩ := hp
        refine ⟨labels, k + 1, s.position + 2,
          .pointer hhead htail htag hoff hafter hback hname, hlabels, ?_, ?_, he⟩
        · simpa using hcursor
        · simp only [List.length_append, List.length_singleton] at hv
          omega

/-- Every visited target starts a derivation with at least `n` steps, labels plus
pointers. -/
def VisitedLonger (wire : List UInt8) (visited : List Nat) (n : Nat) : Prop :=
  ∀ t ∈ visited, ∃ labels k e, NameAt wire t labels k e ∧ n ≤ labels.length + k

/-- Completeness of the loop. Induction on the derivation; the steps still to make fall on
every hop, so a target that was visited before cannot come back. -/
theorem decodeLoop_complete {wire : List UInt8} {p : Nat} {labels : List (List UInt8)}
    {k e : Nat} (h : NameAt wire p labels k e) :
    ∀ (s : DecodeState) (hs : s.InBounds), s.position = p →
      s.visited.length + k ≤ maxPointers → s.expanded + labelBytes labels ≤ maxNameLength →
      VisitedLonger wire s.visited (labels.length + k) →
      decodeLoop wire s hs = .ok (⟨s.labels ++ labels⟩, if s.jumped then s.cursor else e) := by
  induction h with
  | root head =>
      rintro s hs rfl - - -
      rw [decodeLoop_of_done hs (decodeStep_eq_done_iff.mpr ⟨head, rfl, rfl⟩)]
      simp
  | @label p length label labels k e head nonempty short bytes rest ih =>
      rintro s hs rfl hv he hlonger
      have hlen := length_of_slice_eq_some bytes
      simp only [labelBytes, List.map_cons, List.sum_cons] at he
      have hstep : decodeStep wire s = .ok (.next _) := decodeStep_of_readsLabel
        ⟨head, nonempty, short, bytes, by omega, rfl⟩
      rw [decodeLoop_of_next hs hstep, ih _ _ rfl]
      · simp
      · exact hv
      · simp only [labelBytes]
        omega
      · intro t ht
        obtain ⟨ls, k', e', hname, hle⟩ := hlonger t ht
        simp only [List.length_cons] at hle
        exact ⟨ls, k', e', hname, by omega⟩
  | @pointer p high low target labels k e head tail tag offset afterHeader backward rest ih =>
      rintro s hs rfl hv he hlonger
      -- A visited target would start a derivation longer than its own remainder.
      have hfresh : target ∉ s.visited := by
        intro hmem
        obtain ⟨ls, k', e', hname, hle⟩ := hlonger target hmem
        obtain ⟨rfl, rfl, -⟩ := hname.unique rest
        omega
      have hstep : decodeStep wire s = .ok (.next _) := decodeStep_of_followsPointer
        ⟨head, tail, tag, offset, hfresh, afterHeader, backward, by omega, rfl⟩
      rw [decodeLoop_of_next hs hstep, ih _ _ rfl]
      · simp
      · simp only [List.length_append, List.length_singleton]
        omega
      · exact he
      · intro t ht
        rcases List.mem_append.mp ht with hmem | hmem
        · obtain ⟨ls, k', e', hname, hle⟩ := hlonger t hmem
          exact ⟨ls, k', e', hname, by omega⟩
        · rw [List.mem_singleton.mp hmem]
          exact ⟨labels, k, e, rest, Nat.le_refl _⟩

/-- `decode` succeeds exactly on the names with a derivation within the limits. -/
theorem decode_eq_ok_iff {wire : List UInt8} {cursor e : Nat} {name : DomainName} :
    decode wire cursor = .ok (name, e) ↔ DecodesTo wire cursor name.labels e := by
  constructor
  · intro h
    obtain ⟨labels, k, e', hname, hlabels, hcursor, hv, he⟩ :=
      decodeLoop_sound _ (DecodeState.start_inBounds cursor) h
    simp only [DecodeState.start, List.nil_append, Bool.false_eq_true, if_false,
      List.length_nil] at hname hlabels hcursor hv he
    subst hlabels hcursor
    exact ⟨k, by simpa [maxPointers] using hv, hname, he⟩
  · rintro ⟨k, hk, hname, hlen⟩
    have h := decodeLoop_complete hname (DecodeState.start cursor)
      (DecodeState.start_inBounds cursor) rfl (by simpa [DecodeState.start, maxPointers] using hk)
      hlen (by intro t ht; cases ht)
    exact h

/-! ### Termination and the visited set -/

/-- The outcome of the loop when it is cut off after `n` iterations. -/
def decodeWithin (wire : List UInt8) :
    Nat → DecodeState → Option (Except ParseError (DomainName × Nat))
  | 0, _ => none
  | n + 1, s =>
    match decodeStep wire s with
    | .error e => some (.error e)
    | .ok (.done name cursor) => some (.ok (name, cursor))
    | .ok (.next s') => decodeWithin wire n s'

/-- The loop returns within its budget. -/
theorem decodeWithin_eq {wire : List UInt8} :
    ∀ (s : DecodeState) (hs : s.InBounds) (n : Nat), s.budget < n →
      decodeWithin wire n s = some (decodeLoop wire s hs) := by
  refine decodeLoop_induction wire ?error ?done ?next
  case error =>
      intro s hs e h n hn
      cases n with
      | zero => omega
      | succ n => simp only [decodeWithin, h, decodeLoop_of_error hs h]
  case done =>
      intro s hs name cursor h n hn
      cases n with
      | zero => omega
      | succ n => simp only [decodeWithin, h, decodeLoop_of_done hs h]
  case next =>
      intro s hs s' h ih n hn
      cases n with
      | zero => omega
      | succ n =>
          have hlt := (decodeStep_next_budget hs h).2
          simp only [decodeWithin, h, decodeLoop_of_next hs h]
          exact ih n (by omega)

/-- At most 128 pointers, 254 label bytes and the final root byte: `decode` has returned
after 383 iterations. -/
theorem decodeWithin_start (wire : List UInt8) (cursor : Nat) :
    decodeWithin wire 383 (DecodeState.start cursor) = some (decode wire cursor) :=
  decodeWithin_eq _ (DecodeState.start_inBounds cursor) 383
    (by simp only [DecodeState.budget, DecodeState.start, maxPointers, maxNameLength,
          List.length_nil]; omega)

/-- One hop of the walk over an encoded name: past a label, or to the target of a
pointer. No limit and no bound on the target is imposed. -/
inductive Hop (wire : List UInt8) : Nat → Nat → Prop
  | label {p : Nat} {length : UInt8} (head : wire[p]? = some length)
      (nonempty : 1 ≤ length.toNat) (short : length.toNat ≤ 63) :
      Hop wire p (p + 1 + length.toNat)
  | pointer {p : Nat} {high low : UInt8} (head : wire[p]? = some high)
      (tail : wire[p + 1]? = some low) (tag : 192 ≤ high.toNat) :
      Hop wire p ((high.toNat - 192) * 256 + low.toNat)

/-- The walk from `p` comes back to an offset it has been at. -/
def WalkRepeats (wire : List UInt8) (p : Nat) : Prop :=
  ∃ t, Relation.ReflTransGen (Hop wire) p t ∧ Relation.TransGen (Hop wire) t t

/-- The hop an iteration makes. -/
theorem hop_of_next {wire : List UInt8} {s s' : DecodeState}
    (h : decodeStep wire s = .ok (.next s')) : Hop wire s.position s'.position := by
  rcases decodeStep_next_cases h with ⟨length, label, hl⟩ | ⟨high, low, target, hp⟩
  · rw [hl.next]
    exact .label hl.head hl.nonempty hl.short
  · rw [hp.next, hp.offset]
    exact .pointer hp.head hp.tail hp.tag

/-- The iteration that reports a loop is at a pointer to a visited target. -/
theorem decodeStep_compressionLoop {wire : List UInt8} {s : DecodeState}
    (h : decodeStep wire s = .error .compressionLoop) :
    ∃ t ∈ s.visited, Hop wire s.position t := by
  unfold decodeStep at h
  split at h
  · cases h
  · rename_i head hhead
    split at h
    · rename_i htag
      rw [tag_eq_pointer_iff] at htag
      split at h
      · cases h
      · rename_i tail htail
        simp only [pointerTarget_eq tail htag] at h
        split at h
        · rename_i hmem
          exact ⟨_, by simpa using hmem, .pointer hhead htail htag⟩
        · split at h
          · cases h
          · split at h <;> cases h
    · split at h
      · simp only at h
        split at h
        · cases h
        · split at h
          · cases h
          · split at h <;> cases h
      · cases h

/-- A loop is only reported for a walk that repeats. The invariant: every visited target
lies on the walk from `p` and leads to the current position. -/
theorem decodeLoop_compressionLoop {wire : List UInt8} {p : Nat} :
    ∀ (s : DecodeState) (hs : s.InBounds),
      Relation.ReflTransGen (Hop wire) p s.position →
      (∀ t ∈ s.visited, Relation.ReflTransGen (Hop wire) p t ∧
        Relation.ReflTransGen (Hop wire) t s.position) →
      decodeLoop wire s hs = .error .compressionLoop → WalkRepeats wire p := by
  refine decodeLoop_induction wire ?error ?done ?next
  -- The target was visited before, so the walk is back at an earlier hop.
  case error =>
      intro s hs e h _ hvisited hloop
      rw [decodeLoop_of_error hs h] at hloop
      cases hloop
      obtain ⟨t, ht, hhop⟩ := decodeStep_compressionLoop h
      obtain ⟨hpt, hts⟩ := hvisited t ht
      exact ⟨t, hpt, .tail' hts hhop⟩
  case done =>
      intro s hs name cursor h _ _ hloop
      rw [decodeLoop_of_done hs h] at hloop
      cases hloop
  case next =>
      intro s hs s' h ih hreach hvisited hloop
      rw [decodeLoop_of_next hs h] at hloop
      have hhop := hop_of_next h
      refine ih (hreach.tail hhop) ?_ hloop
      intro t ht
      rcases decodeStep_next_cases h with ⟨length, label, hl⟩ | ⟨high, low, target, hp⟩
      · rw [hl.next] at ht
        exact ⟨(hvisited t ht).1, (hvisited t ht).2.tail hhop⟩
      · rw [hp.next] at ht
        rcases List.mem_append.mp ht with hmem | hmem
        · exact ⟨(hvisited t hmem).1, (hvisited t hmem).2.tail hhop⟩
        · rw [List.mem_singleton.mp hmem]
          have hpos : s'.position = target := by rw [hp.next]
          rw [← hpos]
          exact ⟨hreach.tail hhop, .refl⟩

/-- `CompressionLoop` is only reported for a walk that repeats. -/
theorem decode_compressionLoop {wire : List UInt8} {cursor : Nat}
    (h : decode wire cursor = .error .compressionLoop) : WalkRepeats wire cursor :=
  decodeLoop_compressionLoop _ (DecodeState.start_inBounds cursor) .refl
    (by intro t ht; cases ht) h

/-- A hop leaves a derivation with fewer steps to make, and stays behind the header. -/
theorem nameAt_of_hop {wire : List UInt8} {p q : Nat} {labels : List (List UInt8)} {k e : Nat}
    (h : NameAt wire p labels k e) (hhop : Hop wire p q) :
    ∃ labels' k' e', NameAt wire q labels' k' e' ∧
      labels'.length + k' < labels.length + k ∧ (12 ≤ p → 12 ≤ q) := by
  cases hhop with
  | label head nonempty short =>
      obtain ⟨label, rest, rfl, -, hrest⟩ := h.of_label head nonempty short
      exact ⟨_, _, _, hrest, by simp only [List.length_cons]; omega, by omega⟩
  | pointer head tail tag =>
      obtain ⟨low, n, tail', afterHeader, -, rfl, -, e', hrest⟩ := h.of_pointer head tag
      rw [tail] at tail'
      cases tail'
      exact ⟨_, _, _, hrest, by omega, fun _ => afterHeader⟩

/-- A walk that repeats derives no name. -/
theorem not_nameAt_of_walkRepeats {wire : List UInt8} {p : Nat} (h : WalkRepeats wire p) :
    ¬ ∃ labels k e, NameAt wire p labels k e := by
  rintro ⟨labels, k, e, hname⟩
  obtain ⟨t, hpt, htt⟩ := h
  have hreach : ∃ labels k e, NameAt wire t labels k e := by
    clear htt
    induction hpt with
    | refl => exact ⟨_, _, _, hname⟩
    | tail _ hhop ih =>
        obtain ⟨ls, k', e', hls⟩ := ih
        obtain ⟨ls', k'', e'', hls', -⟩ := nameAt_of_hop hls hhop
        exact ⟨_, _, _, hls'⟩
  obtain ⟨ls, k', e', hls⟩ := hreach
  -- Every hop shortens the derivation that is left.
  have hfewer : ∀ u, Relation.TransGen (Hop wire) t u →
      ∃ ls' k'' e'', NameAt wire u ls' k'' e'' ∧ ls'.length + k'' < ls.length + k' := by
    intro u htu
    induction htu with
    | single hhop =>
        obtain ⟨ls₁, k₁, e₁, h₁, hlt₁, -⟩ := nameAt_of_hop hls hhop
        exact ⟨ls₁, k₁, e₁, h₁, hlt₁⟩
    | tail _ hhop ih =>
        obtain ⟨ls₁, k₁, e₁, h₁, hlt₁⟩ := ih
        obtain ⟨ls₂, k₂, e₂, h₂, hlt₂, -⟩ := nameAt_of_hop h₁ hhop
        exact ⟨ls₂, k₂, e₂, h₂, by omega⟩
  obtain ⟨ls', k'', e'', hls', hlt⟩ := hfewer t htt
  -- The walk is back at `t`, where there is only one derivation.
  obtain ⟨rfl, rfl, -⟩ := hls.unique hls'
  omega

/-- `decode` is exact. It succeeds with labels and a cursor exactly when the bytes derive
them within the limits; it returns on every input within 383 iterations; and the visited
set rejects only walks that repeat, none of which has a derivation. -/
theorem decode_exact (wire : List UInt8) (cursor : Nat) :
    (∀ (name : DomainName) (e : Nat),
      decode wire cursor = .ok (name, e) ↔ DecodesTo wire cursor name.labels e) ∧
    decodeWithin wire 383 (DecodeState.start cursor) = some (decode wire cursor) ∧
    (decode wire cursor = .error .compressionLoop →
      WalkRepeats wire cursor ∧ ¬ ∃ labels k e, NameAt wire cursor labels k e) := by
  refine ⟨fun _ _ => decode_eq_ok_iff, decodeWithin_start wire cursor, fun h => ?_⟩
  have hrepeats := decode_compressionLoop h
  exact ⟨hrepeats, not_nameAt_of_walkRepeats hrepeats⟩

end DomainName

end Sederial.Dns
