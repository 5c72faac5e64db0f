import Sederial.Lib.PrefixCode
import Sederial.Proofs.NameCodec

/-!
# `Sederial.Proofs.NameDisplay`: names written out

`Display` writes a name label by label, each label byte by byte, with a dot behind each label.
A byte that may stand in a configured label is written as it is, and every other one as a
backslash and three digits.

* `fmt_of_fromStr`: a configured name is written as it was given, with its final dot.
* `Valid.fromStr_fmt`: `from_str` reads a written name back when no byte of it was escaped.
* `Valid.fromStr_fmt_error`: it refuses every other one, for the backslash.
* `fmt_injective`: two valid names are never written alike, whatever bytes they are made of.
* `presentation_roundTrip`: the four together.

`fmt_injective` takes two codes. The bytes of a label are written in a prefix code
(`isPrefixCode_writeByte`). A label is written without a dot, so the labels of a name are
written in a code of terminated words.
-/

set_option autoImplicit false

namespace Sederial.Dns.DomainName

open Sederial.Lib

/-- How `fmt` writes a byte. -/
def writeByte (b : UInt8) : List UInt8 := if isLabelByte b then [b] else escapeByte b

/-- How `fmt` writes a label, without the dot behind it. -/
def writeLabel (label : List UInt8) : List UInt8 := label.flatMap writeByte

/-- The labels `fmt` writes. The root is written as one empty label. -/
def writtenLabels (name : DomainName) : List (List UInt8) :=
  if name.labels.isEmpty then [[]] else name.labels

/-- `fmt` writes every label and a dot. -/
theorem fmt_eq (name : DomainName) :
    name.fmt = (writtenLabels name).flatMap fun label => writeLabel label ++ [0x2e] := by
  unfold fmt writtenLabels
  split
  · rfl
  · rfl

/-- At least one label is written. -/
theorem writtenLabels_ne_nil (name : DomainName) : writtenLabels name ≠ [] := by
  unfold writtenLabels
  split
  · exact List.cons_ne_nil _ _
  · rename_i hlabels
    simpa using hlabels

/-- The labels of a name other than the root are written as they are. -/
theorem writtenLabels_of_ne_nil {name : DomainName} (hne : name.labels ≠ []) :
    writtenLabels name = name.labels := by
  unfold writtenLabels
  rw [if_neg (by simpa using hne)]

/-- A name is written as its labels with dots between them, and a final dot. -/
theorem fmt_eq_intercalate (name : DomainName) :
    name.fmt = [0x2e].intercalate ((writtenLabels name).map writeLabel) ++ [0x2e] := by
  rw [fmt_eq, flatMap_terminated writeLabel 0x2e (writtenLabels_ne_nil name)]

/-! ### The code of bytes -/

/-- A backslash is not written as it is. -/
theorem isLabelByte_backslash : isLabelByte 0x5c = false := by decide

/-- No byte within a label is written as a dot. -/
theorem dot_not_mem_writeByte : ∀ b : UInt8, 0x2e ∉ writeByte b := by
  apply forall_uint8
  decide +kernel

/-- An escaped byte takes four characters. -/
theorem length_escapeByte (b : UInt8) : (escapeByte b).length = 4 := rfl

/-- The three digits determine the byte. -/
theorem escapeByte_injective : Function.Injective escapeByte := by
  intro a b h
  have ha := a.toNat_lt
  have hb := b.toNat_lt
  simp only [escapeByte, List.cons.injEq, and_true, true_and, ← UInt8.toNat_inj, UInt8.toNat_add,
    UInt8.toNat_div, UInt8.toNat_mod, UInt8.reduceToNat] at h
  apply UInt8.toNat_inj.mp
  omega

/-- A byte of a label is written as it is. -/
theorem writeByte_of_label {b : UInt8} (h : isLabelByte b = true) : writeByte b = [b] := if_pos h

/-- Any other byte is escaped. -/
theorem writeByte_of_binary {b : UInt8} (h : isLabelByte b ≠ true) : writeByte b = escapeByte b :=
  if_neg h

/-- Different bytes are written differently. -/
theorem writeByte_injective : Function.Injective writeByte := by
  intro a b h
  by_cases ha : isLabelByte a = true
  · by_cases hb : isLabelByte b = true
    · rw [writeByte_of_label ha, writeByte_of_label hb] at h
      exact List.head_eq_of_cons_eq h
    · rw [writeByte_of_label ha, writeByte_of_binary hb] at h
      cases congrArg List.length h
  · by_cases hb : isLabelByte b = true
    · rw [writeByte_of_binary ha, writeByte_of_label hb] at h
      cases congrArg List.length h
    · rw [writeByte_of_binary ha, writeByte_of_binary hb] at h
      exact escapeByte_injective h

/-- No written byte begins with another one. -/
theorem isPrefixCode_writeByte : IsPrefixCode (Set.range writeByte) := by
  refine ⟨?nonempty, ?free⟩
  case nonempty =>
    rintro w ⟨b, rfl⟩
    unfold writeByte
    split
    · exact List.cons_ne_nil _ _
    · exact List.cons_ne_nil _ _
  case free =>
    rintro w ⟨a, rfl⟩ w' ⟨b, rfl⟩ hprefix
    by_cases ha : isLabelByte a = true
    · by_cases hb : isLabelByte b = true
      · rw [writeByte_of_label ha, writeByte_of_label hb] at hprefix ⊢
        exact hprefix.eq_of_length rfl
      · -- A byte that stands for itself is no backslash.
        rw [writeByte_of_label ha, writeByte_of_binary hb] at hprefix
        obtain ⟨rfl, -⟩ := List.cons_prefix_cons.mp hprefix
        rw [isLabelByte_backslash] at ha
        cases ha
    · by_cases hb : isLabelByte b = true
      · rw [writeByte_of_binary ha, writeByte_of_label hb] at hprefix
        have hlength := hprefix.length_le
        rw [length_escapeByte, List.length_singleton] at hlength
        exact absurd hlength (by decide)
      · rw [writeByte_of_binary ha, writeByte_of_binary hb] at hprefix ⊢
        exact hprefix.eq_of_length rfl

/-- Different labels are written differently. -/
theorem writeLabel_injective : Function.Injective writeLabel :=
  flatMap_injective writeByte_injective isPrefixCode_writeByte.uniquelyDecodable

/-! ### The code of labels -/

/-- A written label has no dot. -/
theorem dot_not_mem_writeLabel (label : List UInt8) : 0x2e ∉ writeLabel label := by
  intro hmem
  obtain ⟨b, -, hb⟩ := List.mem_flatMap.mp hmem
  exact dot_not_mem_writeByte b hb

/-- A written label ends with the only dot in it. -/
theorem isPrefixCode_writeLabel :
    IsPrefixCode (Set.range fun label => writeLabel label ++ [0x2e]) := by
  refine (isPrefixCode_terminated 0x2e).mono ?_
  rintro w ⟨label, rfl⟩
  exact ⟨writeLabel label, dot_not_mem_writeLabel label, rfl⟩

/-- Different names have different labels to write. -/
theorem writtenLabels_injective {name name' : DomainName} (h : name.Valid) (h' : name'.Valid)
    (hsame : writtenLabels name = writtenLabels name') : name = name' := by
  -- A valid name has no empty label, so only the root is written as one.
  have hroot : ∀ m : DomainName, m.Valid → m.labels ≠ [[]] := by
    intro m hm hlabels
    have hlength := (hm.labels [] (by simp [hlabels])).1
    exact absurd hlength (by decide)
  obtain ⟨labels⟩ := name
  obtain ⟨labels'⟩ := name'
  congr
  cases labels with
  | nil =>
    cases labels' with
    | nil => rfl
    | cons label' rest' => exact (hroot _ h' hsame.symm).elim
  | cons label rest =>
    cases labels' with
    | nil => exact (hroot _ h hsame).elim
    | cons label' rest' => exact hsame

/-- Two valid names are never written alike. -/
theorem fmt_injective {name name' : DomainName} (h : name.Valid) (h' : name'.Valid)
    (hsame : name.fmt = name'.fmt) : name = name' := by
  have hcode : Function.Injective fun label => writeLabel label ++ [0x2e] := by
    intro label label' hlabel
    exact writeLabel_injective (List.append_cancel_right hlabel)
  rw [fmt_eq, fmt_eq] at hsame
  exact writtenLabels_injective h h'
    (flatMap_injective hcode isPrefixCode_writeLabel.uniquelyDecodable hsame)

/-! ### Reading a written name -/

/-- Every byte of the name may stand in a configured label. -/
def Plain (name : DomainName) : Prop :=
  ∀ label ∈ name.labels, ∀ b ∈ label, isLabelByte b = true

/-- A label without an escaped byte is written as it is. -/
theorem writeLabel_of_plain {label : List UInt8} (h : ∀ b ∈ label, isLabelByte b = true) :
    writeLabel label = label := by
  induction label with
  | nil => rfl
  | cons b label ih =>
    obtain ⟨hb, hlabel⟩ := List.forall_mem_cons.mp h
    have hrest := ih hlabel
    unfold writeLabel at hrest ⊢
    rw [List.flatMap_cons, writeByte_of_label hb, hrest]
    rfl

/-- An escaped byte leaves a backslash. -/
theorem backslash_mem_writeLabel {label : List UInt8} {b : UInt8} (hmem : b ∈ label)
    (hb : isLabelByte b ≠ true) : 0x5c ∈ writeLabel label := by
  refine List.mem_flatMap.mpr ⟨b, hmem, ?_⟩
  rw [writeByte_of_binary hb]
  exact List.mem_cons_self

/-- Labels without special bytes are written as they are. -/
theorem map_writeLabel_of_plain {labels : List (List UInt8)}
    (h : ∀ label ∈ labels, ∀ b ∈ label, isLabelByte b = true) :
    labels.map writeLabel = labels := by
  conv_rhs => rw [← List.map_id labels]
  exact List.map_congr_left fun label hmem => writeLabel_of_plain (h label hmem)

/-- The final dot is taken off again. -/
theorem stripDot_append_dot (text : List UInt8) : stripDot (text ++ [0x2e]) = text := by
  unfold stripDot
  rw [List.getLast?_concat, if_pos rfl, List.dropLast_concat]

/-- A final dot is added when it is missing. -/
theorem stripDot_append (text : List UInt8) :
    stripDot text ++ [0x2e] = if text.getLast? = some 0x2e then text else text ++ [0x2e] := by
  unfold stripDot
  split
  · rename_i hlast
    exact List.dropLast_append_getLast? 0x2e hlast
  · rfl

/-- A configured name is written as it was given, with its final dot. -/
theorem fmt_of_fromStr {text : List UInt8} {name : DomainName} (h : fromStr text = .ok name) :
    name.fmt = if text.getLast? = some 0x2e then text else text ++ [0x2e] := by
  by_cases hroot : text = [0x2e]
  · subst hroot
    cases h
    rfl
  · obtain ⟨rfl, hlabels, -⟩ := (fromStr_eq_ok_iff hroot).mp h
    have hne := List.splitOn_ne_nil 0x2e (stripDot text)
    have hwritten : writtenLabels ⟨(stripDot text).splitOn 0x2e⟩
        = (stripDot text).splitOn 0x2e := writtenLabels_of_ne_nil hne
    rw [fmt_eq_intercalate, hwritten,
      map_writeLabel_of_plain fun label hmem => (hlabels label hmem).bytes, ← stripDot_append,
      List.intercalate_splitOn]

section

variable {name : DomainName}

/-- Splitting a written name gives its written labels. -/
theorem splitOn_fmt (name : DomainName) :
    (stripDot name.fmt).splitOn 0x2e = (writtenLabels name).map writeLabel := by
  rw [fmt_eq_intercalate, stripDot_append_dot]
  refine List.splitOn_intercalate 0x2e (fun l hmem => ?_) ?_
  · obtain ⟨label, -, rfl⟩ := List.mem_map.mp hmem
    exact dot_not_mem_writeLabel label
  · exact fun hnil => writtenLabels_ne_nil name (List.map_eq_nil_iff.mp hnil)

/-- A valid name that is not the root is not written as the root. -/
theorem Valid.fmt_ne_dot (h : name.Valid) (hne : name.labels ≠ []) : name.fmt ≠ [0x2e] := by
  intro hfmt
  have hroot : (⟨[]⟩ : DomainName).Valid := ⟨by simp, by decide⟩
  exact hne (congrArg DomainName.labels (fmt_injective h hroot hfmt))

/-- `from_str` on a written name looks at the written labels. -/
theorem Valid.fromStr_fmt_iff (h : name.Valid) (hne : name.labels ≠ []) {name' : DomainName} :
    fromStr name.fmt = .ok name' ↔ name' = ⟨name.labels.map writeLabel⟩ ∧
      (∀ label ∈ name.labels.map writeLabel, TextLabel label) ∧
      1 + labelBytes (name.labels.map writeLabel) ≤ maxNameLength := by
  have hsplit : (stripDot name.fmt).splitOn 0x2e = name.labels.map writeLabel := by
    rw [← writtenLabels_of_ne_nil hne]
    exact splitOn_fmt name
  rw [fromStr_eq_ok_iff (h.fmt_ne_dot hne), hsplit]

/-- A written name without an escaped byte is read back. -/
theorem Valid.fromStr_fmt (h : name.Valid) (hplain : name.Plain) : fromStr name.fmt = .ok name := by
  by_cases hne : name.labels = []
  · obtain ⟨labels⟩ := name
    subst hne
    rfl
  · rw [h.fromStr_fmt_iff hne, map_writeLabel_of_plain hplain]
    refine ⟨rfl, fun label hmem => ?_, h.length⟩
    obtain ⟨hpos, hshort⟩ := h.labels label hmem
    exact ⟨List.ne_nil_of_length_pos hpos, hshort, hplain label hmem⟩

/-- A written name with an escaped byte is refused. -/
theorem Valid.fromStr_fmt_error (h : name.Valid) (hbinary : ¬ name.Plain) :
    ∃ e, fromStr name.fmt = .error e := by
  have hne : name.labels ≠ [] := by
    intro hlabels
    exact hbinary (by simp [Plain, hlabels])
  cases hfromStr : fromStr name.fmt with
  | error e => exact ⟨e, rfl⟩
  | ok name' =>
    obtain ⟨-, hlabels, -⟩ := (h.fromStr_fmt_iff hne).mp hfromStr
    refine (hbinary fun label hmem b hb => ?_).elim
    by_contra hbyte
    -- The backslash of the escape is one of the bytes that `from_str` refuses.
    have hbytes := (hlabels _ (List.mem_map_of_mem hmem)).bytes _
      (backslash_mem_writeLabel hb hbyte)
    rw [isLabelByte_backslash] at hbytes
    cases hbytes

end

/-- Presentation form. What `from_str` accepts is written out with the final dot it may have
lacked. A valid name that is written out is read back with the same labels when all its bytes are
ASCII letters, digits, `-` or `_`, and refused otherwise. Two valid names are never written
alike. -/
theorem presentation_roundTrip :
    (∀ (text : List UInt8) (name : DomainName), fromStr text = .ok name →
      name.fmt = if text.getLast? = some 0x2e then text else text ++ [0x2e]) ∧
    (∀ name : DomainName, name.Valid →
      ((∀ label ∈ name.labels, ∀ b ∈ label, isLabelByte b = true) →
        fromStr name.fmt = .ok name) ∧
      ((∃ label ∈ name.labels, ∃ b ∈ label, isLabelByte b = false) →
        ∃ e, fromStr name.fmt = .error e)) ∧
    ∀ name name' : DomainName, name.Valid → name'.Valid → name.fmt = name'.fmt →
      name = name' := by
  refine ⟨fun text name => fmt_of_fromStr, fun name h => ⟨h.fromStr_fmt, ?_⟩,
    fun name name' => fmt_injective⟩
  rintro ⟨label, hmem, b, hb, hbinary⟩
  refine h.fromStr_fmt_error fun hplain => ?_
  rw [hplain label hmem b hb] at hbinary
  cases hbinary

/-- The label `\xff.a` is written `\255\046a`. -/
example : fmt ⟨[[0xff, 0x2e, 0x61]]⟩
    = [0x5c, 0x32, 0x35, 0x35, 0x5c, 0x30, 0x34, 0x36, 0x61, 0x2e] := by
  decide

end Sederial.Dns.DomainName
