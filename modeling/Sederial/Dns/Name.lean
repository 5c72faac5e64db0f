import Sederial.Dns.Types

/-!
# `Sederial.Dns.Name`: domain names

The model of `src/dns/name.rs`. A `DomainName` is the list of its labels without the
terminating root. `==` is the source's `PartialEq`, which ignores ASCII case; `=` is
equality of the label bytes.

`decode` runs the source's loop. The local variables of the loop are the fields of
`DecodeState`, and `decodeStep` is one iteration. The source keeps the pointer targets it
has followed in an array of 128 slots with a counter `hops`; here `visited` is the used
part of that array, so `hops` is its length. Every iteration either follows one more
pointer or lengthens the expanded name by at least two, so `DecodeState.budget` falls and
the loop ends on every input.
-/

set_option autoImplicit false

namespace Sederial.Dns

open Sederial.Lib

/-- The longest label. -/
def maxLabelLength : Nat := 63

/-- The longest encoded name. -/
def maxNameLength : Nat := 255

/-- The two high bits of a pointer. -/
def pointerTag : UInt8 := 0xc0

/-- The two high bits, which tell a label from a pointer. -/
def labelTagMask : UInt8 := 0xc0

/-- The other bits of the first byte of a pointer. -/
def pointerOffsetMask : UInt8 := 0x3f

/-- How many pointers a name follows at most. -/
def maxPointers : Nat := 128

/-- Absolute DNS name, preserving label octets. -/
structure DomainName where
  labels : List (List UInt8)
  deriving DecidableEq, Repr

/-- `u8::to_ascii_lowercase`. -/
def toAsciiLowercase (b : UInt8) : UInt8 :=
  if 0x41 ≤ b ∧ b ≤ 0x5a then b + 0x20 else b

/-- `<[u8]>::eq_ignore_ascii_case`. -/
def eqIgnoreAsciiCase (a b : List UInt8) : Bool :=
  a.length == b.length &&
    (a.zip b).all fun (x, y) => toAsciiLowercase x == toAsciiLowercase y

namespace DomainName

/-- Counts labels excluding the terminating root. -/
def labelCount (name : DomainName) : Nat := name.labels.length

/-- Tests equality or descent by complete labels, ignoring ASCII case. -/
def isSubdomainOf (name suffix : DomainName) : Bool :=
  name.labels.length ≥ suffix.labels.length &&
    (name.labels.reverse.zip suffix.labels.reverse).all fun (a, b) => eqIgnoreAsciiCase a b

/-- Names are equal when their labels are, without regard to ASCII case. -/
instance : BEq DomainName where
  beq a b := a.labels.length == b.labels.length && a.isSubdomainOf b

/-- The local variables of the decoding loop. -/
structure DecodeState where
  labels : List (List UInt8)
  cursor : Nat
  position : Nat
  jumped : Bool
  expanded : Nat
  visited : List Nat
  deriving DecidableEq, Repr

/-- What one iteration of the decoding loop does: return, or go round again. -/
inductive DecodeOutcome where
  | done (name : DomainName) (cursor : Nat)
  | next (state : DecodeState)
  deriving DecidableEq, Repr

/-- The target offset of a compression pointer. -/
def pointerTarget (head tail : UInt8) : Nat := (word (head &&& pointerOffsetMask) tail).toNat

/-- One iteration of the loop in `DomainName::decode`. -/
def decodeStep (wire : List UInt8) (s : DecodeState) : Except ParseError DecodeOutcome :=
  match wire[s.position]? with
  | none => .error .unexpectedEnd
  | some head =>
    if head &&& labelTagMask = pointerTag then
      match wire[s.position + 1]? with
      | none => .error .unexpectedEnd
      | some tail =>
        let target := pointerTarget head tail
        if s.visited.contains target then .error .compressionLoop
        else if target < headerLength ∨ target ≥ s.position then .error .invalidPointer
        else if s.visited.length = maxPointers then .error .compressionDepth
        else .ok (.next { s with
          visited := s.visited ++ [target]
          -- The first pointer ends the name at the original location.
          cursor := if s.jumped then s.cursor else s.position + 2
          jumped := true
          position := target })
    else if head &&& labelTagMask = 0 then
      let position := s.position + 1
      if head = 0 then
        .ok (.done ⟨s.labels⟩ (if s.jumped then s.cursor else position))
      else
        let length := head.toNat
        let expanded := s.expanded + (length + 1)
        if expanded > maxNameLength then .error .nameTooLong
        else
          match slice wire position (position + length) with
          | none => .error .unexpectedEnd
          | some label => .ok (.next { s with
              expanded := expanded
              labels := s.labels ++ [label]
              position := position + length })
    else .error .invalidLabel

/-- The iterations the loop can still make: pointer slots left plus name bytes left. -/
def DecodeState.budget (s : DecodeState) : Nat :=
  (maxPointers - s.visited.length) + (maxNameLength - s.expanded)

/-- The pointer slots in use never exceed the array, and the expanded length never
exceeds its limit. -/
structure DecodeState.InBounds (s : DecodeState) : Prop where
  visited : s.visited.length ≤ maxPointers
  expanded : s.expanded ≤ maxNameLength

/-- An iteration that goes round again spends budget and stays in bounds. -/
theorem decodeStep_next_budget {wire : List UInt8} {s s' : DecodeState}
    (hs : s.InBounds) (h : decodeStep wire s = .ok (.next s')) :
    s'.InBounds ∧ s'.budget < s.budget := by
  obtain ⟨hv, he⟩ := hs
  unfold decodeStep at h
  -- Only the two branches that go on have something to show.
  split at h
  · cases h
  · split at h
    · split at h
      · cases h
      · simp only at h
        split at h
        · cases h
        · split at h
          · cases h
          · split at h
            · cases h
            · -- A pointer was followed: one more slot is in use.
              cases h
              refine ⟨⟨?_, he⟩, ?_⟩
              · simp only [List.length_append, List.length_singleton]; omega
              · simp only [DecodeState.budget, List.length_append, List.length_singleton]
                omega
    · split at h
      · simp only at h
        split at h
        · cases h
        · split at h
          · cases h
          · split at h
            · cases h
            · -- A label was read: the expanded name grew within its limit.
              cases h
              refine ⟨⟨hv, by simp only; omega⟩, ?_⟩
              simp only [DecodeState.budget]
              omega
      · cases h

/-- The loop in `DomainName::decode`. -/
def decodeLoop (wire : List UInt8) (s : DecodeState) (hs : s.InBounds) :
    Except ParseError (DomainName × Nat) :=
  match h : decodeStep wire s with
  | .error e => .error e
  | .ok (.done name cursor) => .ok (name, cursor)
  | .ok (.next s') => decodeLoop wire s' (decodeStep_next_budget hs h).1
termination_by s.budget
decreasing_by exact (decodeStep_next_budget hs h).2

/-- The state in which `decode` enters its loop. -/
def DecodeState.start (cursor : Nat) : DecodeState :=
  { labels := [], cursor := cursor, position := cursor, jumped := false, expanded := 1,
    visited := [] }

/-- A walk starts within its bounds. -/
theorem DecodeState.start_inBounds (cursor : Nat) : (DecodeState.start cursor).InBounds :=
  ⟨Nat.zero_le _, by simp only [DecodeState.start, maxNameLength]; omega⟩

/-- Decodes a name from the full DNS message starting at `cursor`, and returns the cursor
just after the encoded name. -/
def decode (wire : List UInt8) (cursor : Nat) : Except ParseError (DomainName × Nat) :=
  decodeLoop wire (DecodeState.start cursor) (DecodeState.start_inBounds cursor)

/-- Appends an uncompressed absolute name for locally generated replies. -/
def encode (name : DomainName) : List UInt8 :=
  name.labels.flatMap (fun label => UInt8.ofNat label.length :: label) ++ [0]

/-! ### Presentation names

A `str` is its UTF-8 bytes. Splitting at a dot and comparing ASCII characters are the same on
the bytes as on the characters. -/

/-- `u8::is_ascii_alphanumeric`, or one of the two other bytes of a configured label. -/
def isLabelByte (b : UInt8) : Bool :=
  (0x30 ≤ b && b ≤ 0x39) || (0x41 ≤ b && b ≤ 0x5a) || (0x61 ≤ b && b ≤ 0x7a) ||
    b == 0x2d || b == 0x5f

/-- `text.strip_suffix('.').unwrap_or(text)`. -/
def stripDot (text : List UInt8) : List UInt8 :=
  if text.getLast? = some 0x2e then text.dropLast else text

/-- The loop of `from_str` over the labels to come. -/
def pushLabels : List (List UInt8) → List (List UInt8) → Nat → Except ParseError DomainName
  | [], labels, _ => .ok ⟨labels⟩
  | label :: rest, labels, length =>
    if label.isEmpty || decide (label.length > maxLabelLength) || !label.all isLabelByte then
      .error .invalidLabel
    else if length + (label.length + 1) > maxNameLength then .error .nameTooLong
    else pushLabels rest (labels ++ [label]) (length + (label.length + 1))

/-- Parses an ASCII configuration name with an optional final dot, or `.`. -/
def fromStr (text : List UInt8) : Except ParseError DomainName :=
  if text = [0x2e] then .ok ⟨[]⟩ else pushLabels ((stripDot text).splitOn 0x2e) [] 1

/-- `write!(f, "\\{byte:03}")`. -/
def escapeByte (b : UInt8) : List UInt8 :=
  [0x5c, 0x30 + b / 100, 0x30 + b / 10 % 10, 0x30 + b % 10]

/-- Writes an absolute presentation name, escaping non-label text as decimals. -/
def fmt (name : DomainName) : List UInt8 :=
  if name.labels.isEmpty then [0x2e]
  else name.labels.flatMap fun label =>
    (label.flatMap fun b => if isLabelByte b then [b] else escapeByte b) ++ [0x2e]

end DomainName

end Sederial.Dns
