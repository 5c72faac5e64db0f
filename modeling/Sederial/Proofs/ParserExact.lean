import Sederial.Proofs.Grammar

/-!
# `Sederial.Proofs.ParserExact`: the parser accepts exactly its grammar

Every reader of the parser has a lemma that says on which bytes it succeeds and what it
then returns. The loops follow by induction: `validateOptionsFrom_eq_ok_iff` for options,
`characterStrings_eq_ok_iff` for text, `parseSections_eq_ok_iff` for records. They add up
to `parse_eq_ok_iff`: a message parses exactly when it has a derivation, and the packet is
the one of that derivation.

The up-front count estimate of the parser has no counterpart in the grammar. A question
takes at least five bytes and a record at least eleven (`QuestionAt.length_le`,
`RecordAt.length_le`), so the estimate never rejects a derivable message.
-/

set_option autoImplicit false

namespace Sederial.Dns

open Sederial.Lib

/-! ### Readers -/

namespace Reader

variable {wire bytes : List UInt8} {cursor next length : Nat}

/-- A reader of bytes succeeds exactly when the bytes are there. -/
theorem take_eq_ok_iff :
    take wire length cursor = .ok (bytes, next) ↔
      slice wire cursor (cursor + length) = some bytes ∧ next = cursor + length := by
  constructor
  · intro h
    obtain ⟨hslice, hnext, -⟩ := take_ok h
    exact ⟨hslice, hnext⟩
  · rintro ⟨hslice, rfl⟩
    unfold take
    rw [hslice]

/-- The same without a word about which bytes they are. -/
theorem exists_take_iff :
    (∃ bytes, take wire length cursor = .ok (bytes, next)) ↔
      cursor + length ≤ wire.length ∧ next = cursor + length := by
  constructor
  · rintro ⟨bytes, h⟩
    obtain ⟨-, hnext, hle⟩ := take_ok h
    exact ⟨hnext ▸ hle, hnext⟩
  · rintro ⟨hle, rfl⟩
    exact ⟨_, take_eq_ok_iff.mpr ⟨slice_eq_some_iff.mpr ⟨by omega, hle, rfl⟩, rfl⟩⟩

/-- A reader of 16 bits is exact. -/
theorem word_eq_ok_iff {n : UInt16} :
    word wire cursor = .ok (n, next) ↔ wordAt wire cursor = some n ∧ next = cursor + 2 := by
  rw [← slice_two, Option.map_eq_some_iff]
  constructor
  · intro h
    obtain ⟨bytes, htake, hn⟩ := word_ok h
    obtain ⟨hslice, hnext⟩ := take_eq_ok_iff.mp htake
    exact ⟨⟨bytes, hslice, hn.symm⟩, hnext⟩
  · rintro ⟨⟨bytes, hslice, rfl⟩, hnext⟩
    exact stateT_bind_eq_ok.mpr ⟨bytes, next, take_eq_ok_iff.mpr ⟨hslice, hnext⟩, rfl⟩

/-- A reader of 32 bits is exact. -/
theorem doubleWord_eq_ok_iff {n : UInt32} :
    doubleWord wire cursor = .ok (n, next) ↔
      doubleWordAt wire cursor = some n ∧ next = cursor + 4 := by
  rw [← slice_four, Option.map_eq_some_iff]
  constructor
  · intro h
    obtain ⟨bytes, next', htake, h⟩ := stateT_bind_eq_ok.mp h
    obtain ⟨hslice, hnext⟩ := take_eq_ok_iff.mp htake
    cases h
    exact ⟨⟨bytes, hslice, rfl⟩, hnext⟩
  · rintro ⟨⟨bytes, hslice, rfl⟩, hnext⟩
    exact stateT_bind_eq_ok.mpr ⟨bytes, next, take_eq_ok_iff.mpr ⟨hslice, hnext⟩, rfl⟩

/-- A reader of a name succeeds exactly when the name decodes there. -/
theorem name_eq_ok_iff {n : DomainName} :
    name wire cursor = .ok (n, next) ↔ DecodesTo wire cursor n.labels next :=
  DomainName.decode_eq_ok_iff

/-- A reader of a question succeeds exactly where a question stands. -/
theorem question_eq_ok_iff {q : Question} :
    question wire cursor = .ok (q, next) ↔
      ∃ v : QuestionView, QuestionAt wire v ∧ v.start = cursor ∧ v.stop = next ∧
        v.question = q := by
  constructor
  · intro h
    obtain ⟨n, c₁, hname, h⟩ := stateT_bind_eq_ok.mp h
    obtain ⟨k, c₂, hkind, h⟩ := stateT_bind_eq_ok.mp h
    obtain ⟨c, c₃, hclass, h⟩ := stateT_bind_eq_ok.mp h
    cases h
    obtain ⟨hk, rfl⟩ := word_eq_ok_iff.mp hkind
    obtain ⟨hc, rfl⟩ := word_eq_ok_iff.mp hclass
    exact ⟨⟨cursor, c₁, ⟨n, RecordType.fromWire k, RecordClass.fromWire c⟩⟩,
      ⟨name_eq_ok_iff.mp hname, by rw [hk]; rfl, by rw [hc]; rfl⟩, rfl, rfl, rfl⟩
  · rintro ⟨⟨_, fixedAt, q⟩, ⟨hname, hkind, hclass⟩, rfl, rfl, rfl⟩
    obtain ⟨k, hk, hkind⟩ := Option.map_eq_some_iff.mp hkind
    obtain ⟨c, hc, hclass⟩ := Option.map_eq_some_iff.mp hclass
    refine stateT_bind_eq_ok.mpr ⟨q.name, fixedAt, name_eq_ok_iff.mpr hname, ?_⟩
    refine stateT_bind_eq_ok.mpr ⟨k, _, word_eq_ok_iff.mpr ⟨hk, rfl⟩, ?_⟩
    refine stateT_bind_eq_ok.mpr ⟨c, _, word_eq_ok_iff.mpr ⟨hc, rfl⟩, ?_⟩
    dsimp only at hkind hclass
    rw [hkind, hclass]
    rfl

end Reader

/-- The record envelope in front of the data. -/
structure EnvelopeAt (wire : List UInt8) (start fixedAt : Nat) (labels : List (List UInt8))
    (kind class_ : UInt16) (ttl : UInt32) (length : UInt16) : Prop where
  owner : DecodesTo wire start labels fixedAt
  kind : wordAt wire fixedAt = some kind
  class_ : wordAt wire (fixedAt + 2) = some class_
  ttl : doubleWordAt wire (fixedAt + 4) = some ttl
  length : wordAt wire (fixedAt + 8) = some length

/-- The record `resourceRecord` makes of an envelope. -/
def envelopeRecord (fixedAt : Nat) (labels : List (List UInt8)) (kind class_ : UInt16)
    (ttl : UInt32) (length : UInt16) : ResourceRecord where
  owner := ⟨labels⟩
  kind := RecordType.fromWire kind
  class_ := if RecordType.fromWire kind = .opt then .udpPayload class_
    else .dns (RecordClass.fromWire class_)
  ttl := ttl
  dataStart := fixedAt + 10
  dataEnd := fixedAt + 10 + length.toNat

/-- A reader of a record without its data succeeds exactly where an envelope stands. -/
theorem Reader.resourceRecord_eq_ok_iff {wire : List UInt8} {cursor next : Nat}
    {record : ResourceRecord} :
    Reader.resourceRecord wire cursor = .ok (record, next) ↔
      ∃ fixedAt labels kind class_ ttl length,
        EnvelopeAt wire cursor fixedAt labels kind class_ ttl length ∧
        next = fixedAt + 10 ∧
        record = envelopeRecord fixedAt labels kind class_ ttl length := by
  constructor
  · intro h
    obtain ⟨n, c₁, hname, h⟩ := stateT_bind_eq_ok.mp h
    obtain ⟨k, c₂, hkind, h⟩ := stateT_bind_eq_ok.mp h
    obtain ⟨c, c₃, hclass, h⟩ := stateT_bind_eq_ok.mp h
    obtain ⟨t, c₄, httl, h⟩ := stateT_bind_eq_ok.mp h
    obtain ⟨l, c₅, hlength, h⟩ := stateT_bind_eq_ok.mp h
    cases h
    obtain ⟨hk, rfl⟩ := word_eq_ok_iff.mp hkind
    obtain ⟨hc, rfl⟩ := word_eq_ok_iff.mp hclass
    obtain ⟨ht, rfl⟩ := doubleWord_eq_ok_iff.mp httl
    obtain ⟨hl, rfl⟩ := word_eq_ok_iff.mp hlength
    exact ⟨c₁, n.labels, k, c, t, l, ⟨name_eq_ok_iff.mp hname, hk, hc, ht, hl⟩,
      rfl, rfl⟩
  · rintro ⟨m, labels, k, c, t, l, ⟨hname, hkind, hclass, httl, hlength⟩, rfl, rfl⟩
    refine stateT_bind_eq_ok.mpr ⟨⟨labels⟩, m, name_eq_ok_iff.mpr hname, ?_⟩
    refine stateT_bind_eq_ok.mpr ⟨k, _, word_eq_ok_iff.mpr ⟨hkind, rfl⟩, ?_⟩
    refine stateT_bind_eq_ok.mpr ⟨c, _, word_eq_ok_iff.mpr ⟨hclass, rfl⟩, ?_⟩
    refine stateT_bind_eq_ok.mpr ⟨t, _, doubleWord_eq_ok_iff.mpr ⟨httl, rfl⟩, ?_⟩
    refine stateT_bind_eq_ok.mpr ⟨l, _, word_eq_ok_iff.mpr ⟨hlength, rfl⟩, ?_⟩
    rfl

/-! ### Options -/

/-- The data from `p` to `e` is made of fields of the given kinds. -/
def FieldsAt (wire : List UInt8) (p : Nat) (fs : List DataField) (e : Nat) : Prop :=
  ∃ fields : List FieldView, Tiles (FieldAt wire) p fields e ∧ fields.map FieldView.field = fs

/-- A field does not end before it starts. -/
theorem FieldAt.start_le_stop {wire : List UInt8} {v : FieldView} (h : FieldAt wire v) :
    v.start ≤ v.stop := by
  unfold FieldAt at h
  split at h
  · omega
  · obtain ⟨labels, h⟩ := h
    exact Nat.le_of_lt h.lt_end
  · obtain ⟨length, -, h⟩ := h
    omega
  · omega

namespace FieldsAt

variable {wire : List UInt8} {p e : Nat} {fs : List DataField}

/-- No fields take no bytes. -/
theorem nil_iff : FieldsAt wire p [] e ↔ p = e := by
  constructor
  · rintro ⟨fields, htiles, hmap⟩
    rw [List.map_eq_nil_iff.mp hmap] at htiles
    exact tiles_nil_iff.mp htiles
  · rintro rfl
    exact ⟨[], .nil p, rfl⟩

/-- Fields do not end before they start. -/
theorem le (h : FieldsAt wire p fs e) : p ≤ e := by
  obtain ⟨fields, htiles, -⟩ := h
  exact htiles.le fun _ => FieldAt.start_le_stop

/-- The first field of a list of fields, wherever it ends. -/
theorem cons_iff {f : DataField} :
    FieldsAt wire p (f :: fs) e ↔
      ∃ m, FieldAt wire ⟨p, m, f⟩ ∧ FieldsAt wire m fs e := by
  constructor
  · rintro ⟨fields, htiles, hmap⟩
    obtain ⟨v, vs, rfl, rfl, rfl⟩ := List.map_eq_cons_iff.mp hmap
    obtain ⟨rfl, hv, hvs⟩ := tiles_cons_iff.mp htiles
    exact ⟨v.stop, hv, vs, hvs, rfl⟩
  · rintro ⟨m, hf, fields, htiles, rfl⟩
    exact ⟨⟨p, m, f⟩ :: fields, tiles_cons_iff.mpr ⟨rfl, hf, htiles⟩, rfl⟩

/-- Fields of two lists stand behind each other. -/
theorem append_iff {fs' : List DataField} :
    FieldsAt wire p (fs ++ fs') e ↔ ∃ m, FieldsAt wire p fs m ∧ FieldsAt wire m fs' e := by
  induction fs generalizing p with
  | nil => simp [nil_iff]
  | cons f fs ih =>
      simp only [List.cons_append, cons_iff, ih]
      constructor
      · rintro ⟨m, hf, m', hfs, hfs'⟩
        exact ⟨m', ⟨m, hf, hfs⟩, hfs'⟩
      · rintro ⟨m', ⟨m, hf, hfs⟩, hfs'⟩
        exact ⟨m, hf, m', hfs, hfs'⟩

/-- A field of bytes takes as many. -/
theorem bytes_iff {n : Nat} :
    FieldsAt wire p (.bytes n :: fs) e ↔ FieldsAt wire (p + n) fs e := by
  rw [cons_iff]
  constructor
  · rintro ⟨m, hm, h⟩
    obtain rfl : m = p + n := hm
    exact h
  · intro h
    exact ⟨p + n, rfl, h⟩

/-- A field that is a name ends where the name does. -/
theorem name_iff :
    FieldsAt wire p (.name :: fs) e ↔
      ∃ labels m, DecodesTo wire p labels m ∧ FieldsAt wire m fs e := by
  rw [cons_iff]
  constructor
  · rintro ⟨m, ⟨labels, hname⟩, h⟩
    exact ⟨labels, m, hname, h⟩
  · rintro ⟨labels, m, hname, h⟩
    exact ⟨m, ⟨labels, hname⟩, h⟩

/-- A character string takes a length byte and as many bytes. -/
theorem string_iff :
    FieldsAt wire p (.string :: fs) e ↔
      ∃ length, wire[p]? = some length ∧ FieldsAt wire (p + 1 + length.toNat) fs e := by
  rw [cons_iff]
  constructor
  · rintro ⟨m, ⟨length, hlength, hm⟩, h⟩
    obtain rfl : m = p + 1 + length.toNat := hm
    exact ⟨length, hlength, h⟩
  · rintro ⟨length, hlength, h⟩
    exact ⟨_, ⟨length, hlength, rfl⟩, h⟩

/-- An EDNS option takes its code, its length and as many bytes. -/
theorem option_iff {code length : UInt16} :
    FieldsAt wire p (.option code length :: fs) e ↔
      wordAt wire p = some code ∧ wordAt wire (p + 2) = some length ∧
        FieldsAt wire (p + 4 + length.toNat) fs e := by
  rw [cons_iff]
  constructor
  · rintro ⟨m, ⟨hcode, hlength, hm⟩, h⟩
    obtain rfl : m = p + 4 + length.toNat := hm
    exact ⟨hcode, hlength, h⟩
  · rintro ⟨hcode, hlength, h⟩
    exact ⟨_, ⟨hcode, hlength, rfl⟩, h⟩

end FieldsAt

/-- The data from `p` to `e` is a sequence of options. -/
def OptionsAt (wire : List UInt8) (p e : Nat) : Prop :=
  ∃ fs, FieldsAt wire p fs e ∧ ∀ f ∈ fs, ∃ code length, f = .option code length

/-- Options end, or one stands in front of the others. -/
theorem optionsAt_iff {wire : List UInt8} {p e : Nat} :
    OptionsAt wire p e ↔ p = e ∨
      ∃ code length, wordAt wire p = some code ∧ wordAt wire (p + 2) = some length ∧
        OptionsAt wire (p + 4 + length.toNat) e := by
  constructor
  · rintro ⟨fs, hfs, hall⟩
    cases fs with
    | nil => exact .inl (FieldsAt.nil_iff.mp hfs)
    | cons f fs =>
        obtain ⟨code, length, rfl⟩ := hall f (by simp)
        obtain ⟨hcode, hlength, hrest⟩ := FieldsAt.option_iff.mp hfs
        exact .inr ⟨code, length, hcode, hlength, fs, hrest, fun g hg => hall g (by simp [hg])⟩
  · rintro (rfl | ⟨code, length, hcode, hlength, fs, hfs, hall⟩)
    · exact ⟨[], FieldsAt.nil_iff.mpr rfl, by simp⟩
    · refine ⟨.option code length :: fs, FieldsAt.option_iff.mpr ⟨hcode, hlength, hfs⟩, ?_⟩
      intro f hf
      rcases List.mem_cons.mp hf with rfl | hf
      · exact ⟨code, length, rfl⟩
      · exact hall f hf

/-- One round of the option loop. -/
theorem validateOptionsFrom_step {bytes : List UInt8} {cursor : Nat}
    (hlt : cursor < bytes.length) :
    validateOptionsFrom bytes cursor = .ok () ↔
      ∃ code length, wordAt bytes cursor = some code ∧ wordAt bytes (cursor + 2) = some length ∧
        cursor + 4 + length.toNat ≤ bytes.length ∧
        validateOptionsFrom bytes (cursor + 4 + length.toNat) = .ok () := by
  rw [validateOptionsFrom, if_pos hlt]
  constructor
  -- Left to right, each reader that succeeds gives its field.
  · intro h
    split at h
    · cases h
    · rename_i code c₁ hcode
      split at h
      · cases h
      · rename_i length c₂ hlength
        split at h
        · cases h
        · rename_i data c₃ htake
          obtain ⟨hc, rfl⟩ := Reader.word_eq_ok_iff.mp hcode
          obtain ⟨hl, rfl⟩ := Reader.word_eq_ok_iff.mp hlength
          obtain ⟨-, rfl, hle⟩ := Reader.take_ok htake
          exact ⟨code, length, hc, hl, hle, h⟩
  -- Right to left, the three readers are run on the fields.
  · rintro ⟨code, length, hcode, hlength, hle, h⟩
    obtain ⟨data, htake⟩ := Reader.exists_take_iff.mpr ⟨hle, rfl⟩
    have hcode := Reader.word_eq_ok_iff.mpr ⟨hcode, rfl⟩
    have hlength := Reader.word_eq_ok_iff.mpr ⟨hlength, rfl⟩
    split
    · rename_i heq
      rw [hcode] at heq
      cases heq
    · rename_i heq
      rw [hcode] at heq
      cases heq
      split
      · rename_i heq
        rw [hlength] at heq
        cases heq
      · rename_i heq
        rw [hlength] at heq
        cases heq
        split
        · rename_i heq
          rw [htake] at heq
          cases heq
        · rename_i heq
          rw [htake] at heq
          cases heq
          exact h

/-- The option check on the data of a record succeeds exactly when options tile it. -/
theorem validateOptionsFrom_eq_ok_iff {wire bytes : List UInt8} {start stop : Nat}
    (hslice : slice wire start stop = some bytes) (cursor : Nat) (hle : cursor ≤ bytes.length) :
    validateOptionsFrom bytes cursor = .ok () ↔ OptionsAt wire (start + cursor) stop := by
  have hlen := length_of_slice_eq_some hslice
  obtain ⟨hstart, hstop, -⟩ := slice_eq_some_iff.mp hslice
  rw [optionsAt_iff]
  by_cases hlt : cursor < bytes.length
  · rw [validateOptionsFrom_step hlt]
    constructor
    · rintro ⟨code, length, hcode, hlength, hfit, hrest⟩
      have hc := lt_of_wordAt_eq_some hlength
      rw [wordAt_of_slice hslice (by omega)] at hcode hlength
      have ih := (validateOptionsFrom_eq_ok_iff hslice _ hfit).mp hrest
      refine .inr ⟨code, length, hcode, hlength, ?_⟩
      rwa [← Nat.add_assoc, ← Nat.add_assoc] at ih
    · rintro (hend | ⟨code, length, hcode, hlength, hrest⟩)
      · omega
      · -- The options end at `stop`, so this one lies inside the slice.
        have hfit : cursor + 4 + length.toNat ≤ bytes.length := by
          obtain ⟨fs, hfs, -⟩ := id hrest
          have := hfs.le
          omega
        rw [Nat.add_assoc start] at hlength
        rw [← wordAt_of_slice hslice (by omega)] at hcode hlength
        refine ⟨code, length, hcode, hlength, hfit, ?_⟩
        refine (validateOptionsFrom_eq_ok_iff hslice _ hfit).mpr ?_
        rwa [← Nat.add_assoc, ← Nat.add_assoc]
  · rw [validateOptionsFrom, if_neg hlt]
    exact ⟨fun _ => .inl (by omega), fun _ => rfl⟩
termination_by bytes.length - cursor
decreasing_by all_goals omega

/-- On tiled options, `locate` returns the first COOKIE option. -/
theorem locateFrom_eq_findSome? {wire : List UInt8} {stop cursor : Nat} (v : RecordView)
    {fields : List FieldView} (htiles : Tiles (FieldAt wire) cursor fields stop)
    (hoptions : ∀ f ∈ fields.map FieldView.field, ∃ code length, f = .option code length)
    (hstop : stop ≤ wire.length) :
    Cookie.locateFrom wire v.dataStart stop cursor = fields.findSome? v.fieldCookie := by
  induction fields generalizing cursor with
  | nil =>
      obtain rfl := tiles_nil_iff.mp htiles
      rw [Cookie.locateFrom, dif_neg (by omega)]
      rfl
  | cons f fields ih =>
      obtain ⟨rfl, hf, hrest⟩ := tiles_cons_iff.mp htiles
      have hle : f.stop ≤ stop := hrest.le fun _ => FieldAt.start_le_stop
      obtain ⟨code, length, hfield⟩ := hoptions f.field (by simp)
      simp only [FieldAt, hfield] at hf
      obtain ⟨hcode, hlength, hfstop⟩ := hf
      have ih := ih hrest fun g hg => hoptions g (by simp [List.mem_map.mp hg])
      rw [Cookie.locateFrom, dif_pos ⟨by simp only [Span.start]; omega, by
        simp only [Span.start]; omega⟩]
      simp only [Span.start, hcode, hlength, Option.getD_some]
      rw [if_neg (by omega), List.findSome?_cons, RecordView.fieldCookie, hfield]
      by_cases hcookie : code = cookieOption
      · simp only [if_pos hcookie]
        split <;> rfl
      · simp only [if_neg hcookie]
        rw [← hfstop]
        exact ih

/-! ### Record data -/

/-- A reader whose value is not used succeeds where it does. -/
theorem discard_eq_ok_iff {α : Type} {reader : Reader α} {cursor next : Nat} :
    (discard reader : Reader PUnit) cursor = .ok (⟨⟩, next) ↔
      ∃ a, reader cursor = .ok (a, next) := by
  have hdiscard : (discard reader : Reader PUnit) cursor
      = (reader >>= fun _ => pure ⟨⟩) cursor := rfl
  rw [hdiscard, stateT_bind_eq_ok]
  constructor
  · rintro ⟨a, c, h, hpure⟩
    cases hpure
    exact ⟨a, h⟩
  · rintro ⟨a, h⟩
    exact ⟨a, next, h, rfl⟩

/-- The data from `p` to `e` is a sequence of character-strings. -/
def StringsAt (wire : List UInt8) (p e : Nat) : Prop :=
  ∃ fs, FieldsAt wire p fs e ∧ ∀ f ∈ fs, f = .string

/-- Character strings end, or one stands in front of the others. -/
theorem stringsAt_iff {wire : List UInt8} {p e : Nat} :
    StringsAt wire p e ↔ p = e ∨
      ∃ length, wire[p]? = some length ∧ StringsAt wire (p + 1 + length.toNat) e := by
  constructor
  · rintro ⟨fs, hfs, hall⟩
    cases fs with
    | nil => exact .inl (FieldsAt.nil_iff.mp hfs)
    | cons f fs =>
        obtain rfl := hall f (by simp)
        obtain ⟨length, hlength, hrest⟩ := FieldsAt.string_iff.mp hfs
        exact .inr ⟨length, hlength, fs, hrest, fun g hg => hall g (by simp [hg])⟩
  · rintro (rfl | ⟨length, hlength, fs, hfs, hall⟩)
    · exact ⟨[], FieldsAt.nil_iff.mpr rfl, by simp⟩
    · refine ⟨.string :: fs, FieldsAt.string_iff.mpr ⟨length, hlength, hfs⟩, ?_⟩
      intro f hf
      rcases List.mem_cons.mp hf with rfl | hf
      · rfl
      · exact hall f hf

/-- One round of the TXT loop. -/
theorem characterStrings_step {wire : List UInt8} {dataEnd cursor stop : Nat}
    (hlt : cursor < dataEnd) :
    characterStrings wire dataEnd cursor = .ok stop ↔
      ∃ length, wire[cursor]? = some length ∧ cursor + 1 + length.toNat ≤ wire.length ∧
        characterStrings wire dataEnd (cursor + 1 + length.toNat) = .ok stop := by
  -- Taking one byte is looking at the byte under the cursor.
  have hbyte : ∀ {bytes : List UInt8} {next : Nat},
      Reader.take wire 1 cursor = .ok (bytes, next) →
        wire[cursor]? = some (bytes.getD 0 0) ∧ next = cursor + 1 := by
    intro bytes next h
    obtain ⟨hslice, hnext⟩ := Reader.take_eq_ok_iff.mp h
    have hlen := length_of_slice_eq_some hslice
    have hget := getElem?_of_slice (i := 0) hslice (by omega)
    rw [Nat.add_zero] at hget
    refine ⟨?_, hnext⟩
    rw [← hget, List.getD_eq_getElem?_getD, List.getElem?_eq_getElem (by omega)]
    rfl
  rw [characterStrings, if_pos hlt]
  constructor
  · intro h
    split at h
    · cases h
    · rename_i bytes c₁ hlength
      split at h
      · cases h
      · rename_i data c₂ htake
        obtain ⟨hget, rfl⟩ := hbyte hlength
        obtain ⟨-, rfl, hle⟩ := Reader.take_ok htake
        exact ⟨_, hget, hle, h⟩
  · rintro ⟨length, hget, hle, h⟩
    obtain ⟨bytes, hlength⟩ := Reader.exists_take_iff.mpr
      ⟨show cursor + 1 ≤ wire.length by omega, rfl⟩
    obtain ⟨data, htake⟩ := Reader.exists_take_iff.mpr ⟨hle, rfl⟩
    obtain rfl : length = bytes.getD 0 0 := by
      rw [(hbyte hlength).1] at hget
      exact (Option.some.inj hget).symm
    split
    · rename_i heq
      rw [hlength] at heq
      cases heq
    · rename_i heq
      rw [hlength] at heq
      cases heq
      split
      · rename_i heq
        rw [htake] at heq
        cases heq
      · rename_i heq
        rw [htake] at heq
        cases heq
        exact h

/-- The TXT loop ends at the end of the data exactly when character-strings tile it. -/
theorem characterStrings_eq_ok_iff {wire : List UInt8} {dataEnd : Nat}
    (hend : dataEnd ≤ wire.length) (cursor : Nat) :
    characterStrings wire dataEnd cursor = .ok dataEnd ↔ StringsAt wire cursor dataEnd := by
  rw [stringsAt_iff]
  by_cases hlt : cursor < dataEnd
  · rw [characterStrings_step hlt]
    constructor
    · rintro ⟨length, hget, hle, hrest⟩
      exact .inr ⟨length, hget, (characterStrings_eq_ok_iff hend _).mp hrest⟩
    · rintro (rfl | ⟨length, hget, hrest⟩)
      · omega
      · have hle : cursor + 1 + length.toNat ≤ dataEnd := by
          obtain ⟨fs, hfs, -⟩ := id hrest
          exact hfs.le
        exact ⟨length, hget, by omega, (characterStrings_eq_ok_iff hend _).mpr hrest⟩
  · rw [characterStrings, if_neg hlt]
    constructor
    · intro h
      cases h
      exact .inl rfl
    · rintro (rfl | ⟨length, -, fs, hfs, -⟩)
      · rfl
      · have := hfs.le
        omega
termination_by dataEnd - cursor
decreasing_by all_goals omega

/-- A change of the error does not change what succeeds. -/
theorem mapError_eq_ok_iff {ε ε' α : Type} {f : ε → ε'} {r : Except ε α} {a : α} :
    r.mapError f = .ok a ↔ r = .ok a := by
  cases r with
  | error _ => simp [Except.mapError]
  | ok a => simp [Except.mapError]

/-- A reader without a value, and where it ends. -/
theorem map_snd_eq_ok_iff {r : Except ParseError (PUnit × Nat)} {e : Nat} :
    r.map Prod.snd = .ok e ↔ r = .ok (⟨⟩, e) := by
  cases r with
  | error _ => simp [Except.map]
  | ok a => simp [Except.map, Prod.ext_iff]

/-- The same in the other direction. -/
theorem map_unit_eq_ok_iff {r : Except ParseError Nat} {e : Nat} :
    r.map (fun c => (PUnit.unit, c)) = .ok (⟨⟩, e) ↔ r = .ok e := by
  cases r with
  | error _ => simp [Except.map]
  | ok a => simp [Except.map]

/-- The reader accepts exactly the fields `fs`, as long as they end inside the message. -/
def ReadsFields (wire : List UInt8) (reader : Reader PUnit) (fs : List DataField) : Prop :=
  ∀ p e, e ≤ wire.length → (reader p = .ok (⟨⟩, e) ↔ FieldsAt wire p fs e)

namespace ReadsFields

variable {wire : List UInt8}

/-- To skip bytes is to read a field of bytes. -/
theorem take (n : Nat) : ReadsFields wire (discard (Reader.take wire n)) [.bytes n] := by
  intro p e he
  rw [discard_eq_ok_iff, Reader.exists_take_iff, FieldsAt.bytes_iff, FieldsAt.nil_iff]
  omega

/-- To skip 16 bits is to read a field of two bytes. -/
theorem word : ReadsFields wire (discard (Reader.word wire)) [.bytes 2] := by
  intro p e he
  rw [discard_eq_ok_iff, FieldsAt.bytes_iff, FieldsAt.nil_iff]
  constructor
  · rintro ⟨n, h⟩
    exact (Reader.word_eq_ok_iff.mp h).2.symm
  · rintro rfl
    obtain ⟨n, hn⟩ := wordAt_eq_some_of_lt (w := wire) (i := p) (by omega)
    exact ⟨n, Reader.word_eq_ok_iff.mpr ⟨hn, rfl⟩⟩

/-- To skip a name is to read a field that is a name. -/
theorem name : ReadsFields wire (discard (Reader.name wire)) [.name] := by
  intro p e he
  rw [discard_eq_ok_iff, FieldsAt.name_iff]
  constructor
  · rintro ⟨n, h⟩
    exact ⟨n.labels, e, Reader.name_eq_ok_iff.mp h, FieldsAt.nil_iff.mpr rfl⟩
  · rintro ⟨labels, m, hname, hm⟩
    obtain rfl := FieldsAt.nil_iff.mp hm
    exact ⟨⟨labels⟩, Reader.name_eq_ok_iff.mpr hname⟩

/-- One reader behind another reads the fields of both. -/
theorem append {reader reader' : Reader PUnit} {fs fs' : List DataField}
    (h : ReadsFields wire reader fs) (h' : ReadsFields wire reader' fs') :
    ReadsFields wire (do reader; reader') (fs ++ fs') := by
  intro p e he
  rw [stateT_bind_eq_ok, FieldsAt.append_iff]
  constructor
  · rintro ⟨_, m, hr, hr'⟩
    have hfs' := (h' m e he).mp hr'
    have := hfs'.le
    exact ⟨m, (h p m (by omega)).mp hr, hfs'⟩
  · rintro ⟨m, hfs, hfs'⟩
    have := hfs'.le
    exact ⟨⟨⟩, m, (h p m (by omega)).mpr hfs, (h' m e he).mpr hfs'⟩

end ReadsFields

/-- Data of an unknown layout is accepted as it stands. -/
theorem exists_unknownLayout {wire : List UInt8} {p e : Nat} (hle : p ≤ e) :
    ∃ fs, FieldsAt wire p fs e ∧ UnknownLayout fs :=
  ⟨[.bytes (e - p)], FieldsAt.bytes_iff.mpr (FieldsAt.nil_iff.mpr (by omega)), _, rfl⟩

/-- Reading the data ends at its declared end exactly when it has the layout of its type. -/
theorem readData_eq_ok_iff {wire : List UInt8} {record : ResourceRecord} {class_ : RecordClass}
    (hkind : record.kind ≠ .opt) (hle : record.dataStart ≤ record.dataEnd)
    (hend : record.dataEnd ≤ wire.length) :
    readData wire record class_ = .ok record.dataEnd ↔
      ∃ fs, FieldsAt wire record.dataStart fs record.dataEnd ∧
        DataLayout record.kind class_ fs := by
  have hunknown := @exists_unknownLayout wire _ _ hle
  unfold readData
  simp only [map_snd_eq_ok_iff]
  obtain ⟨owner, kind, classField, ttl, dataStart, dataEnd⟩ := record
  cases kind with
  | a =>
      by_cases hin : class_ = .in
      · simp only [DataLayout, if_pos hin, exists_eq_right]
        exact ReadsFields.take 4 _ _ hend
      · simp only [DataLayout, if_neg hin]
        exact ⟨fun _ => hunknown, fun _ => rfl⟩
  | aaaa =>
      by_cases hin : class_ = .in
      · simp only [DataLayout, if_pos hin, exists_eq_right]
        exact ReadsFields.take 16 _ _ hend
      · simp only [DataLayout, if_neg hin]
        exact ⟨fun _ => hunknown, fun _ => rfl⟩
  | ns =>
      simp only [DataLayout, exists_eq_right]
      exact ReadsFields.name _ _ hend
  | cname =>
      simp only [DataLayout, exists_eq_right]
      exact ReadsFields.name _ _ hend
  | ptr =>
      simp only [DataLayout, exists_eq_right]
      exact ReadsFields.name _ _ hend
  | mx =>
      simp only [DataLayout, exists_eq_right]
      exact ReadsFields.word.append .name _ _ hend
  | soa =>
      simp only [DataLayout, exists_eq_right]
      exact ReadsFields.name.append (ReadsFields.name.append (.take 20)) _ _ hend
  | srv =>
      simp only [DataLayout, exists_eq_right]
      exact (ReadsFields.take 6).append .name _ _ hend
  | txt =>
      simp only [DataLayout]
      by_cases hempty : dataStart = dataEnd
      · simp only [if_pos hempty]
        -- A character-string takes at least its length byte.
        constructor
        · intro h
          cases h
        · rintro ⟨fs, hfs, hne, hall⟩
          cases fs with
          | nil => exact absurd rfl hne
          | cons f fs =>
              obtain rfl := hall f (by simp)
              obtain ⟨length, -, hrest⟩ := FieldsAt.string_iff.mp hfs
              have := hrest.le
              omega
      · simp only [if_neg hempty, map_unit_eq_ok_iff, characterStrings_eq_ok_iff hend]
        constructor
        · rintro ⟨fs, hfs, hall⟩
          refine ⟨fs, hfs, ?_, hall⟩
          rintro rfl
          exact hempty (FieldsAt.nil_iff.mp hfs)
        · rintro ⟨fs, hfs, -, hall⟩
          exact ⟨fs, hfs, hall⟩
  | opt => exact absurd rfl hkind
  | sig => exact ⟨fun _ => hunknown, fun _ => rfl⟩
  | tkey => exact ⟨fun _ => hunknown, fun _ => rfl⟩
  | tsig => exact ⟨fun _ => hunknown, fun _ => rfl⟩
  | ixfr => exact ⟨fun _ => hunknown, fun _ => rfl⟩
  | axfr => exact ⟨fun _ => hunknown, fun _ => rfl⟩
  | any => exact ⟨fun _ => hunknown, fun _ => rfl⟩
  | unknown n => exact ⟨fun _ => hunknown, fun _ => rfl⟩

/-- The data of a record is accepted exactly when the layout of its type fits it. -/
theorem validateData_eq_ok_iff {wire : List UInt8} {record : ResourceRecord}
    {class_ : RecordClass} (hclass : record.class_ = .dns class_) (hkind : record.kind ≠ .opt)
    (hle : record.dataStart ≤ record.dataEnd) (hend : record.dataEnd ≤ wire.length) :
    validateData wire record = .ok () ↔
      ∃ fs, FieldsAt wire record.dataStart fs record.dataEnd ∧
        DataLayout record.kind class_ fs := by
  rw [← readData_eq_ok_iff hkind hle hend]
  unfold validateData
  rw [hclass]
  simp only
  split
  · rename_i herror
    simp [herror]
  · rename_i cursor hok
    rw [hok]
    by_cases hcursor : cursor = record.dataEnd
    · simp [hcursor]
    · simp [hcursor]

/-! ### Records -/

/-- The walk after one more record. -/
def Walk.after (walk : Walk) (v : RecordView) : Walk where
  cursor := v.stop
  edns := if v.isOpt then some v.edns else walk.edns
  cookie := if v.isOpt then v.cookie else walk.cookie
  authenticated := walk.authenticated || authenticates v.section_ v.kind

/-- The data of an OPT record is accepted exactly when options tile it. -/
theorem parseOpt_eq_ok_iff {wire : List UInt8} {section_ : RecordSection} {walk walk' : Walk}
    {s : Option ReplyContext} {m : Nat} {labels : List (List UInt8)} {k c : UInt16}
    {t : UInt32} {l : UInt16} (hopt : RecordType.fromWire k = .opt) :
    ((parseOpt wire section_ walk (envelopeRecord m labels k c t l) (m + 10)).exec s).1
        = .ok walk' ↔
      section_ = .additional ∧ walk.edns = none ∧ labels = [] ∧
        m + 10 + l.toNat ≤ wire.length ∧ OptionsAt wire (m + 10) (m + 10 + l.toNat) ∧
        walk' = { walk with
          cursor := m + 10 + l.toNat
          edns := some (Edns.ofRecord c t)
          cookie := Cookie.locateFrom wire (m + 10) (m + 10 + l.toNat) (m + 10) } := by
  have hlen : (envelopeRecord m labels k c t l).dataLen = l.toNat := by
    simp only [envelopeRecord, ResourceRecord.dataLen]
    omega
  have hclass : (envelopeRecord m labels k c t l).class_ = .udpPayload c := if_pos hopt
  -- The guard of the source is the negation of what the right side asks of the OPT record.
  have hguard : (section_ ≠ .additional ∨ walk.edns.isSome ∨
      (envelopeRecord m labels k c t l).owner.labelCount ≠ 0) ↔
        ¬ (section_ = .additional ∧ walk.edns = none ∧ labels = []) := by
    simp only [envelopeRecord, DomainName.labelCount, ne_eq, List.length_eq_zero_iff,
      not_and_or, Option.isSome_iff_ne_none]
  unfold parseOpt
  by_cases hok : section_ = .additional ∧ walk.edns = none ∧ labels = []
  · rw [if_neg (fun h => hguard.mp h hok), hclass]
    obtain ⟨rfl, hnone, rfl⟩ := hok
    simp only [hnone, true_and, hlen]
    rw [Run.exec_bind_fst_eq_ok]
    simp only [Run.exec_modify]
    constructor
    · rintro ⟨_, -, h⟩
      obtain ⟨⟨data, next⟩, htake, h⟩ := Run.exec_bind_fst_eq_ok.mp h
      obtain ⟨_, hoptions, h⟩ := Run.exec_bind_fst_eq_ok.mp h
      obtain ⟨hslice, rfl, hle⟩ := Reader.take_ok (mapError_eq_ok_iff.mp htake)
      refine ⟨hle, (validateOptionsFrom_eq_ok_iff hslice 0 (by omega)).mp hoptions, ?_⟩
      cases h
      rfl
    · rintro ⟨hle, hoptions, rfl⟩
      obtain ⟨data, htake⟩ := Reader.exists_take_iff.mpr ⟨hle, rfl⟩
      refine ⟨⟨⟩, trivial, ?_⟩
      refine Run.exec_bind_fst_eq_ok.mpr ⟨(data, _), mapError_eq_ok_iff.mpr htake, ?_⟩
      obtain ⟨hslice, -, -⟩ := Reader.take_ok htake
      exact Run.exec_bind_fst_eq_ok.mpr
        ⟨(), (validateOptionsFrom_eq_ok_iff hslice 0 (by omega)).mpr hoptions, rfl⟩
  · rw [if_pos (hguard.mpr hok)]
    constructor
    · intro h
      cases h
    · rintro ⟨h₁, h₂, h₃, -⟩
      exact absurd ⟨h₁, h₂, h₃⟩ hok

/-- The data of another record is accepted exactly when it has the layout of its type. -/
theorem parseData_eq_ok_iff {wire : List UInt8} {walk walk' : Walk}
    {s : Option ReplyContext} {m : Nat} {labels : List (List UInt8)} {k c : UInt16}
    {t : UInt32} {l : UInt16} (hopt : RecordType.fromWire k ≠ .opt) :
    ((parseData wire walk (envelopeRecord m labels k c t l) (m + 10)).exec s).1 = .ok walk' ↔
      m + 10 + l.toNat ≤ wire.length ∧
        (∃ fs, FieldsAt wire (m + 10) fs (m + 10 + l.toNat) ∧
          DataLayout (RecordType.fromWire k) (RecordClass.fromWire c) fs) ∧
        walk' = { walk with cursor := m + 10 + l.toNat } := by
  have hlen : (envelopeRecord m labels k c t l).dataLen = l.toNat := by
    simp only [envelopeRecord, ResourceRecord.dataLen]
    omega
  have hclass : (envelopeRecord m labels k c t l).class_ = .dns (RecordClass.fromWire c) :=
    if_neg hopt
  unfold parseData
  rw [Run.exec_bind_fst_eq_ok]
  simp only [Run.exec_ofExcept, hlen]
  constructor
  · rintro ⟨⟨bytes, next⟩, htake, h⟩
    obtain ⟨-, rfl, hle⟩ := Reader.take_ok htake
    obtain ⟨_, hdata, h⟩ := Run.exec_bind_fst_eq_ok.mp h
    refine ⟨hle, (validateData_eq_ok_iff hclass hopt ?_ hle).mp hdata, ?_⟩
    · simp only [envelopeRecord]
      omega
    · cases h
      rfl
  · rintro ⟨hle, hdata, rfl⟩
    obtain ⟨bytes, htake⟩ := Reader.exists_take_iff.mpr ⟨hle, rfl⟩
    refine ⟨(bytes, m + 10 + l.toNat), htake, ?_⟩
    refine Run.exec_bind_fst_eq_ok.mpr ⟨(), ?_, rfl⟩
    refine (validateData_eq_ok_iff hclass hopt ?_ hle).mpr hdata
    simp only [envelopeRecord]
    omega

/-- One round of the record loop reads one record of the grammar. An OPT record needs a
walk that has not met one. -/
theorem parseRecord_eq_ok_iff {wire : List UInt8} {section_ : RecordSection} {walk walk' : Walk}
    {s : Option ReplyContext} :
    ((parseRecord wire section_ walk).exec s).1 = .ok walk' ↔
      ∃ v, RecordAt wire v ∧ v.section_ = section_ ∧ v.start = walk.cursor ∧
        (v.isOpt → walk.edns = none) ∧ walk' = walk.after v := by
  unfold parseRecord
  rw [Run.exec_bind_fst_eq_ok]
  simp only [Run.exec_ofExcept]
  constructor
  -- The record that was read is described by a view of its bytes.
  · rintro ⟨⟨record, cursor⟩, hrecord, h⟩
    obtain ⟨m, labels, k, c, t, l, ⟨howner, hkind, hclass, httl, hlength⟩, rfl, rfl⟩ :=
      Reader.resourceRecord_eq_ok_iff.mp hrecord
    obtain ⟨walk₁, hbranch, hreturn⟩ := Run.exec_bind_fst_eq_ok.mp h
    cases hreturn
    have hrecordKind : (envelopeRecord m labels k c t l).kind = RecordType.fromWire k := rfl
    simp only [hrecordKind] at hbranch ⊢
    by_cases hopt : RecordType.fromWire k = .opt
    · rw [if_pos hopt] at hbranch
      obtain ⟨rfl, hnone, rfl, hle, ⟨fs, ⟨fields, htiles, rfl⟩, hfields⟩, rfl⟩ :=
        (parseOpt_eq_ok_iff hopt).mp hbranch
      refine ⟨⟨.additional, walk.cursor, m, RecordType.fromWire k, c, t, l, fields⟩,
        ⟨⟨[], howner, fun _ => rfl⟩, by rw [hkind]; rfl, hclass, httl, hlength, hle, ?_, htiles,
          fun _ => rfl⟩, rfl, rfl, fun _ => hnone, ?_⟩
      · simp only [hopt]
        exact hfields
      -- The first COOKIE is found where the fields of the view say.
      · have hcookie := locateFrom_eq_findSome?
          ⟨.additional, walk.cursor, m, RecordType.fromWire k, c, t, l, fields⟩ htiles hfields hle
        simp only [Walk.after, RecordView.isOpt, hopt, decide_true, if_true]
        refine Walk.ext rfl rfl ?_ rfl
        exact hcookie
    · rw [if_neg hopt] at hbranch
      obtain ⟨hle, ⟨fs, ⟨fields, htiles, rfl⟩, hlayout⟩, rfl⟩ :=
        (parseData_eq_ok_iff hopt).mp hbranch
      refine ⟨⟨section_, walk.cursor, m, RecordType.fromWire k, c, t, l, fields⟩,
        ⟨⟨labels, howner, fun h => absurd h hopt⟩, by rw [hkind]; rfl, hclass, httl, hlength, hle,
          hlayout, htiles, fun h => absurd h hopt⟩, rfl, rfl, fun h => ?_, ?_⟩
      · exact absurd (of_decide_eq_true h) hopt
      · simp only [Walk.after, RecordView.isOpt, hopt, decide_false]
        rfl
  -- A view is read back: its owner, its envelope and then its data.
  · rintro ⟨v, ⟨⟨labels, howner, hroot⟩, hkind, hclass, httl, hlength, hle, hlayout, htiles,
      hsection⟩, rfl, hstart, hnone, rfl⟩
    obtain ⟨k, hk, hkind⟩ := Option.map_eq_some_iff.mp hkind
    rw [hstart] at howner
    refine ⟨(envelopeRecord v.fixedAt labels k v.classWire v.ttl v.length, v.fixedAt + 10),
      Reader.resourceRecord_eq_ok_iff.mpr ⟨v.fixedAt, labels, k, v.classWire, v.ttl, v.length,
        ⟨howner, hk, hclass, httl, hlength⟩, rfl, rfl⟩, ?_⟩
    rw [Run.exec_bind_fst_eq_ok]
    by_cases hopt : v.kind = .opt
    · have hkopt : RecordType.fromWire k = .opt := hkind.trans hopt
      have hisOpt : v.isOpt = true := decide_eq_true hopt
      rw [hopt] at hlayout
      have hcookie : Cookie.locateFrom wire (v.fixedAt + 10) (v.fixedAt + 10 + v.length.toNat)
          (v.fixedAt + 10) = v.cookie :=
        locateFrom_eq_findSome? v htiles hlayout hle
      refine ⟨{ walk with cursor := v.stop, edns := some v.edns, cookie := v.cookie }, ?_, ?_⟩
      · refine (congrArg (fun m => (Run.exec m s).1) (if_pos hkopt)).trans ?_
        refine (parseOpt_eq_ok_iff hkopt).mpr ⟨hsection hopt, hnone hisOpt, hroot hopt, hle,
          ⟨_, ⟨v.fields, htiles, rfl⟩, hlayout⟩, ?_⟩
        rw [hcookie]
        rfl
      · refine congrArg Except.ok (Walk.ext rfl ?_ ?_ ?_)
        · simp only [Walk.after, hisOpt, if_true]
        · simp only [Walk.after, hisOpt, if_true]
        · simp only [Walk.after, envelopeRecord, hkind]
    · have hkopt : RecordType.fromWire k ≠ .opt := fun h => hopt (hkind.symm.trans h)
      have hisOpt : v.isOpt = false := decide_eq_false hopt
      refine ⟨{ walk with cursor := v.stop }, ?_, ?_⟩
      · refine (congrArg (fun m => (Run.exec m s).1) (if_neg hkopt)).trans ?_
        refine (parseData_eq_ok_iff hkopt).mpr ⟨hle, ⟨_, ⟨v.fields, htiles, rfl⟩, ?_⟩, rfl⟩
        rw [hkind]
        exact hlayout
      · refine congrArg Except.ok (Walk.ext rfl ?_ ?_ ?_)
        · simp only [Walk.after, hisOpt, Bool.false_eq_true, if_false]
        · simp only [Walk.after, hisOpt, Bool.false_eq_true, if_false]
        · simp only [Walk.after, envelopeRecord, hkind]

/-! ### Sections -/

/-- The walk may read these records: it meets at most one OPT record. -/
def Walk.Admits : Walk → List RecordView → Prop
  | _, [] => True
  | walk, v :: vs => (v.isOpt → walk.edns = none) ∧ Admits (walk.after v) vs

/-- A walk admits two stretches of records when it admits the first, and the second from there. -/
theorem Walk.admits_append {walk : Walk} {vs vs' : List RecordView} :
    walk.Admits (vs ++ vs') ↔ walk.Admits vs ∧ (vs.foldl Walk.after walk).Admits vs' := by
  induction vs generalizing walk with
  | nil => simp [Walk.Admits]
  | cons v vs ih => simp only [List.cons_append, Walk.Admits, ih, List.foldl_cons, and_assoc]

/-- A walk over tiled records ends where the tiling does. -/
theorem Walk.foldl_cursor {wire : List UInt8} {walk : Walk} {vs : List RecordView} {e : Nat}
    (h : Tiles (RecordAt wire) walk.cursor vs e) : (vs.foldl Walk.after walk).cursor = e := by
  induction vs generalizing walk with
  | nil => exact tiles_nil_iff.mp h
  | cons v vs ih =>
      obtain ⟨-, -, h⟩ := tiles_cons_iff.mp h
      exact ih h

/-- The records of one section, read in order. -/
theorem parseSection_eq_ok_iff {wire : List UInt8} {section_ : RecordSection} {count : Nat}
    {walk walk' : Walk} {s : Option ReplyContext} :
    ((parseSection wire section_ count walk).exec s).1 = .ok walk' ↔
      ∃ vs, Tiles (RecordAt wire) walk.cursor vs walk'.cursor ∧
        vs.map RecordView.section_ = List.replicate count section_ ∧
        walk.Admits vs ∧ walk' = vs.foldl Walk.after walk := by
  induction count generalizing walk s with
  | zero =>
      constructor
      · intro h
        cases h
        exact ⟨[], .nil _, rfl, trivial, rfl⟩
      · rintro ⟨vs, -, hsection, -, rfl⟩
        obtain rfl := List.map_eq_nil_iff.mp hsection
        rfl
  | succ count ih =>
      unfold parseSection
      rw [Run.exec_bind_fst_eq_ok]
      simp only [parseRecord_eq_ok_iff, ih]
      constructor
      · rintro ⟨walk₁, ⟨v, hv, hsection, hstart, hopt, rfl⟩, vs, htiles, hsections, hadmits, hfold⟩
        refine ⟨v :: vs, ?_, ?_, ⟨hopt, hadmits⟩, hfold⟩
        · rw [← hstart]
          exact .cons hv htiles
        · rw [List.map_cons, hsection, hsections, List.replicate_succ]
      · rintro ⟨vs, htiles, hsections, hadmits, hfold⟩
        rw [List.replicate_succ] at hsections
        obtain ⟨v, vs, rfl, hsection, hsections⟩ := List.map_eq_cons_iff.mp hsections
        obtain ⟨hstart, hv, htiles⟩ := tiles_cons_iff.mp htiles
        exact ⟨walk.after v, ⟨v, hv, hsection, hstart.symm, hadmits.1, rfl⟩, vs, htiles,
          hsections, hadmits.2, hfold⟩

/-- The records of consecutive sections. -/
theorem parseSections_eq_ok_iff {wire : List UInt8} {sections : List (RecordSection × UInt16)}
    {walk walk' : Walk} {s : Option ReplyContext} :
    ((parseSections wire sections walk).exec s).1 = .ok walk' ↔
      ∃ vs, Tiles (RecordAt wire) walk.cursor vs walk'.cursor ∧
        vs.map RecordView.section_
          = sections.flatMap (fun (section_, count) => List.replicate count.toNat section_) ∧
        walk.Admits vs ∧ walk' = vs.foldl Walk.after walk := by
  induction sections generalizing walk s with
  | nil =>
      constructor
      · intro h
        cases h
        exact ⟨[], .nil _, rfl, trivial, rfl⟩
      · rintro ⟨vs, -, hsection, -, rfl⟩
        obtain rfl := List.map_eq_nil_iff.mp hsection
        rfl
  | cons section_ sections ih =>
      obtain ⟨section_, count⟩ := section_
      unfold parseSections
      rw [Run.exec_bind_fst_eq_ok]
      simp only [parseSection_eq_ok_iff, ih, List.flatMap_cons]
      constructor
      · rintro ⟨walk₁, ⟨vs, htiles, hsection, hadmits, rfl⟩, vs', htiles', hsection', hadmits',
          rfl⟩
        refine ⟨vs ++ vs', tiles_append_iff.mpr ⟨_, htiles, htiles'⟩, ?_,
          Walk.admits_append.mpr ⟨hadmits, hadmits'⟩, (List.foldl_append ..).symm⟩
        rw [List.map_append, hsection, hsection']
      · rintro ⟨vs, htiles, hsections, hadmits, rfl⟩
        obtain ⟨vs, vs', rfl, hsection, hsection'⟩ := List.map_eq_append_iff.mp hsections
        obtain ⟨m, htiles, htiles'⟩ := tiles_append_iff.mp htiles
        obtain ⟨hadmits, hadmits'⟩ := Walk.admits_append.mp hadmits
        -- The first part of the walk ends where the second tiling starts.
        have hm : (vs.foldl Walk.after walk).cursor = m := Walk.foldl_cursor htiles
        refine ⟨vs.foldl Walk.after walk, ⟨vs, hm ▸ htiles, hsection, hadmits, rfl⟩, vs', ?_,
          hsection', hadmits', List.foldl_append ..⟩
        rw [hm]
        exact htiles'

/-- A walk that has met its OPT record admits no further one. -/
theorem Walk.admits_of_isSome {walk : Walk} {vs : List RecordView} (hedns : walk.edns.isSome) :
    walk.Admits vs ↔ vs.filter RecordView.isOpt = [] := by
  induction vs generalizing walk with
  | nil => simp [Walk.Admits]
  | cons v vs ih =>
      have hnext : (walk.after v).edns.isSome := by
        simp only [Walk.after]
        split
        · rfl
        · exact hedns
      rw [Walk.Admits, ih hnext, List.filter_cons]
      by_cases hopt : v.isOpt = true
      · simp [hopt, Option.isSome_iff_ne_none.mp hedns]
      · simp [hopt]

/-- A fresh walk admits exactly the record lists with at most one OPT record. -/
theorem Walk.admits_iff {walk : Walk} {vs : List RecordView} (hedns : walk.edns = none) :
    walk.Admits vs ↔ (vs.filter RecordView.isOpt).length ≤ 1 := by
  induction vs generalizing walk with
  | nil => simp [Walk.Admits]
  | cons v vs ih =>
      rw [Walk.Admits, List.filter_cons]
      by_cases hopt : v.isOpt = true
      · have hnext : (walk.after v).edns.isSome := by simp [Walk.after, hopt]
        simp [hopt, hedns, Walk.admits_of_isSome hnext]
      · have hnext : (walk.after v).edns = none := by simp [Walk.after, hopt, hedns]
        simp [hopt, ih hnext]

/-- Records without an OPT record leave the OPT fields of a walk alone. -/
theorem Walk.foldl_of_noOpt {walk : Walk} {vs : List RecordView}
    (h : vs.filter RecordView.isOpt = []) :
    (vs.foldl Walk.after walk).edns = walk.edns ∧
      (vs.foldl Walk.after walk).cookie = walk.cookie := by
  induction vs generalizing walk with
  | nil => exact ⟨rfl, rfl⟩
  | cons v vs ih =>
      rw [List.filter_cons] at h
      by_cases hopt : v.isOpt = true
      · simp [hopt] at h
      · obtain ⟨hedns, hcookie⟩ := @ih (walk.after v) (by simpa [hopt] using h)
        rw [List.foldl_cons, hedns, hcookie]
        simp [Walk.after, hopt]

/-- What a walk has gathered: the fields of the only OPT record, if there is one. -/
theorem Walk.foldl_opt {walk : Walk} {vs : List RecordView} (hedns : walk.edns = none)
    (hcookie : walk.cookie = none) (h : (vs.filter RecordView.isOpt).length ≤ 1) :
    (vs.foldl Walk.after walk).edns = (vs.find? RecordView.isOpt).map RecordView.edns ∧
      (vs.foldl Walk.after walk).cookie
        = (vs.find? RecordView.isOpt).bind RecordView.cookie := by
  induction vs generalizing walk with
  | nil => exact ⟨hedns, hcookie⟩
  | cons v vs ih =>
      rw [List.filter_cons] at h
      rw [List.foldl_cons, List.find?_cons]
      by_cases hopt : v.isOpt = true
      · have hnone : vs.filter RecordView.isOpt = [] := by simpa [hopt] using h
        obtain ⟨hedns', hcookie'⟩ := @Walk.foldl_of_noOpt (walk.after v) _ hnone
        rw [hedns', hcookie']
        simp [Walk.after, hopt]
      · simp only [hopt]
        refine ih ?_ ?_ (by simpa [hopt] using h)
        · simpa [Walk.after, hopt] using hedns
        · simpa [Walk.after, hopt] using hcookie

/-- The walk remembers whether any record authenticates the message. -/
theorem Walk.foldl_authenticated {walk : Walk} {vs : List RecordView} :
    (vs.foldl Walk.after walk).authenticated
      = (walk.authenticated || vs.any fun v => authenticates v.section_ v.kind) := by
  induction vs generalizing walk with
  | nil => simp
  | cons v vs ih => rw [List.foldl_cons, ih, List.any_cons, Walk.after, Bool.or_assoc]

/-! ### Messages -/

/-- The questions of a message are read exactly where they stand. -/
theorem parseQuestions_eq_ok_iff {wire : List UInt8} {count cursor next : Nat}
    {qs : List Question} :
    parseQuestions wire count cursor = .ok (qs, next) ↔
      ∃ vs, Tiles (QuestionAt wire) cursor vs next ∧ vs.length = count ∧
        vs.map QuestionView.question = qs := by
  induction count generalizing cursor qs with
  | zero =>
      constructor
      · intro h
        cases h
        exact ⟨[], .nil _, rfl, rfl⟩
      · rintro ⟨vs, htiles, hlen, rfl⟩
        obtain rfl := List.eq_nil_of_length_eq_zero hlen
        obtain rfl := tiles_nil_iff.mp htiles
        rfl
  | succ count ih =>
      unfold parseQuestions
      rw [stateT_bind_eq_ok]
      constructor
      · rintro ⟨q, c₁, hq, h⟩
        obtain ⟨rest, c₂, hrest, h⟩ := stateT_bind_eq_ok.mp h
        cases h
        obtain ⟨v, hv, rfl, rfl, rfl⟩ := Reader.question_eq_ok_iff.mp hq
        obtain ⟨vs, htiles, rfl, rfl⟩ := ih.mp hrest
        exact ⟨v :: vs, .cons hv htiles, rfl, rfl⟩
      · rintro ⟨vs, htiles, hlen, rfl⟩
        cases vs with
        | nil => simp at hlen
        | cons v vs =>
            obtain ⟨rfl, hv, htiles⟩ := tiles_cons_iff.mp htiles
            refine ⟨v.question, v.stop, Reader.question_eq_ok_iff.mpr ⟨v, hv, rfl, rfl, rfl⟩, ?_⟩
            exact stateT_bind_eq_ok.mpr
              ⟨_, next, ih.mpr ⟨vs, htiles, by simpa using hlen, rfl⟩, rfl⟩

/-- The header reader succeeds on twelve bytes and reads their six words. -/
theorem Header.parse_eq_ok_iff {wire : List UInt8} {header : Header} :
    Header.parse wire = .ok header ↔ HeaderAt wire header := by
  unfold Header.parse headerLength
  by_cases hshort : wire.length < 12
  · rw [if_pos hshort]
    constructor
    · intro h
      cases h
    · intro h
      have := lt_of_wordAt_eq_some h.additionals
      omega
  · rw [if_neg hshort]
    -- Every word is there, so the default of `getD` is never used.
    have hword : ∀ i, i ≤ 10 → ∃ n, wordAt wire i = some n := fun i hi =>
      wordAt_eq_some_of_lt (by omega)
    obtain ⟨a, ha⟩ := hword 0 (by omega)
    obtain ⟨b, hb⟩ := hword 2 (by omega)
    obtain ⟨c, hc⟩ := hword 4 (by omega)
    obtain ⟨d, hd⟩ := hword 6 (by omega)
    obtain ⟨e, he⟩ := hword 8 (by omega)
    obtain ⟨f, hf⟩ := hword 10 (by omega)
    simp only [ha, hb, hc, hd, he, hf, Option.getD_some, Except.ok.injEq]
    constructor
    · rintro rfl
      exact ⟨ha, hb, hc, hd, he, hf⟩
    · rintro ⟨h₁, h₂, h₃, h₄, h₅, h₆⟩
      rw [ha] at h₁
      rw [hb] at h₂
      rw [hc] at h₃
      rw [hd] at h₄
      rw [he] at h₅
      rw [hf] at h₆
      cases h₁
      cases h₂
      cases h₃
      cases h₄
      cases h₅
      cases h₆
      rfl

/-- A question takes at least five bytes. -/
theorem QuestionAt.length_le {wire : List UInt8} {v : QuestionView} (h : QuestionAt wire v) :
    v.start + 5 ≤ v.stop := by
  have := h.name.lt_end
  unfold QuestionView.stop
  omega

/-- A record takes at least eleven bytes. -/
theorem RecordAt.length_le {wire : List UInt8} {v : RecordView} (h : RecordAt wire v) :
    v.start + 11 ≤ v.stop := by
  obtain ⟨labels, howner, -⟩ := h.owner
  have := howner.lt_end
  unfold RecordView.stop RecordView.dataStart
  omega

/-- A question does not end before it starts. -/
theorem QuestionAt.start_le_stop {wire : List UInt8} {v : QuestionView}
    (h : QuestionAt wire v) : Span.start v ≤ Span.stop v :=
  Nat.le_trans (Nat.le_add_right _ _) h.length_le

/-- A record does not end before it starts. -/
theorem RecordAt.start_le_stop {wire : List UInt8} {v : RecordView} (h : RecordAt wire v) :
    Span.start v ≤ Span.stop v :=
  Nat.le_trans (Nat.le_add_right _ _) h.length_le

/-- The walk with which the record loop starts. -/
def Walk.fresh (cursor : Nat) : Walk :=
  { cursor := cursor, edns := none, cookie := none, authenticated := false }

/-- The packet of a derivation is the one the record loop ends with. -/
theorem Derivation.packet_eq {d : Derivation} {wire : List UInt8} {cursor : Nat}
    (hone : (d.records.filter RecordView.isOpt).length ≤ 1) :
    d.packet wire = {
      wire := wire
      header := d.header
      questions := d.questions.map QuestionView.question
      edns := (d.records.foldl Walk.after (Walk.fresh cursor)).edns
      authenticated := (d.records.foldl Walk.after (Walk.fresh cursor)).authenticated
      cookie := (d.records.foldl Walk.after (Walk.fresh cursor)).cookie } := by
  obtain ⟨hedns, hcookie⟩ := @Walk.foldl_opt (Walk.fresh cursor) _ rfl rfl hone
  rw [hedns, hcookie, Walk.foldl_authenticated]
  rfl

/-- The sections of the records, one entry for each counted record. -/
theorem sections_eq_flatMap (counts : SectionCounts) :
    counts.recordSections.flatMap (fun (section_, count) => List.replicate count.toNat section_)
      = counts.sections := by
  simp [SectionCounts.recordSections, SectionCounts.sections]

/-- The count estimate accepts every message whose items fit. -/
theorem Derives.estimate_le {wire : List UInt8} {d : Derivation} (h : Derives wire d) :
    d.header.counts.questions.toNat * (questionFixedLength + 1)
      + (d.header.counts.recordSections.map fun (_, count) => count.toNat).sum
        * (recordFixedLength + 1) ≤ wire.length - headerLength := by
  obtain ⟨m, hquestions, hrecords⟩ := h.tiles
  have hq := hquestions.length_mul_le fun v => QuestionAt.length_le
  have hr := hrecords.length_mul_le fun v => RecordAt.length_le
  have hcount := congrArg List.length h.sections
  rw [List.length_map] at hcount
  simp only [SectionCounts.sections, List.length_append, List.length_replicate] at hcount
  simp only [SectionCounts.recordSections, questionFixedLength, recordFixedLength, List.map_cons,
    List.map_nil, List.sum_cons, List.sum_nil, ← h.questionCount]
  omega

/-- The parser succeeds exactly on the derivable messages, with the fields of the derivation. -/
theorem parseInner_eq_ok_iff {wire : List UInt8} {p : Packet} {s : Option ReplyContext} :
    ((parseInner wire).exec s).1 = .ok p ↔ ∃ d, Derives wire d ∧ p = d.packet wire := by
  unfold parseInner
  simp only [Run.exec_bind_fst_eq_ok, Run.exec_failIf_fst_eq_ok, Run.exec_ofExcept,
    Header.parse_eq_ok_iff, parseSections_eq_ok_iff, parseQuestions_eq_ok_iff, Prod.exists,
    sections_eq_flatMap]
  constructor
  · rintro ⟨_, hshort, header, hheader, _, -, _, hsingle, _, -, qs, cursor,
      ⟨vs, hvs, hcount, rfl⟩, _, -, walk, ⟨rs, hrs, hsections, hadmits, rfl⟩, _, hend, hreturn⟩
    have hone := (Walk.admits_iff rfl).mp hadmits
    have hcursor : (rs.foldl Walk.after (Walk.fresh cursor)).cursor = wire.length :=
      not_not.mp hend
    have hlong := lt_of_wordAt_eq_some hheader.additionals
    refine ⟨⟨header, vs, rs⟩, ?_, ?_⟩
    · refine ⟨hlong, Nat.not_lt.mp hshort, hheader, fun hquery => ?_, hcount, hsections,
        ⟨cursor, hvs, hcursor ▸ hrs⟩, hone⟩
      exact Nat.not_lt.mp fun h => hsingle ⟨h, hquery⟩
    · rw [@Derivation.packet_eq ⟨header, vs, rs⟩ wire cursor hone]
      cases hreturn
      rfl
  · rintro ⟨d, hd, rfl⟩
    obtain ⟨m, hquestions, hrecords⟩ := hd.tiles
    have hcursor := @Walk.foldl_cursor wire (Walk.fresh m) _ _ hrecords
    refine ⟨⟨⟩, Nat.not_lt.mpr hd.short, d.header, hd.header, ⟨⟩, rfl, ⟨⟩, ?_, ⟨⟩,
      Nat.not_lt.mpr hd.estimate_le, _, m, ⟨d.questions, hquestions, hd.questionCount, rfl⟩,
      ⟨⟩, rfl, _, ⟨d.records, ?_, hd.sections, (Walk.admits_iff rfl).mpr hd.oneOpt, rfl⟩, ⟨⟩, ?_,
      ?_⟩
    · rintro ⟨hmany, hquery⟩
      exact Nat.not_lt.mpr (hd.single hquery) hmany
    · exact hcursor ▸ hrecords
    · exact not_not_intro hcursor
    · rw [@Derivation.packet_eq d wire m hd.oneOpt]
      rfl

/-- Keeping the context of a failure changes nothing for the messages that parse. -/
theorem Packet.parseForReply_eq_ok_iff {wire : List UInt8} {p : Packet} :
    Packet.parseForReply wire = .ok p ↔ Packet.parse wire = .ok p := by
  unfold Packet.parse
  cases Packet.parseForReply wire with
  | ok packet => simp
  | error failure => simp

/-- A message parses exactly when it has a derivation, into the packet of that
derivation. -/
theorem Packet.parse_eq_ok_iff {wire : List UInt8} {p : Packet} :
    Packet.parse wire = .ok p ↔ ∃ d, Derives wire d ∧ p = d.packet wire := by
  rw [← parseInner_eq_ok_iff (s := none)]
  unfold Packet.parse Packet.parseForReply Dns.parse
  rcases (parseInner wire).exec none with ⟨e | packet, context⟩
  · simp
  · simp

/-- The parser accepts exactly the messages of the grammar and returns the fields of the
derivation. No message with a derivation is rejected for its counts. -/
theorem Packet.parse_exact (wire : List UInt8) :
    (∀ p, Packet.parse wire = .ok p ↔ ∃ d, Derives wire d ∧ p = d.packet wire) ∧
      ∀ d, Derives wire d → Packet.parse wire ≠ .error .invalidCount := by
  refine ⟨fun p => Packet.parse_eq_ok_iff, fun d hd => ?_⟩
  rw [Packet.parse_eq_ok_iff.mpr ⟨d, hd, rfl⟩]
  intro h
  cases h

end Sederial.Dns
