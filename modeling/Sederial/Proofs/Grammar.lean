import Sederial.Proofs.NameBytes
import Sederial.Dns.Parser
import Sederial.Lib.Tiling

/-!
# `Sederial.Proofs.Grammar`: the grammar of DNS messages

A declarative description of the messages the service accepts, independent of the reader
that walks them. A `Derivation` lists the questions and records of a message with their
offsets, and each record lists the fields its data is made of. `Derives wire d` says that
`d` is a derivation of `wire`: the items stand one after the other from the end of the
header to the end of the message, every name decodes, and the data of a known record type
has the layout of that type.

`Derivation.packet` is the decoded view of a derivation.
-/

set_option autoImplicit false

namespace Sederial.Dns

open Sederial.Lib

/-! ### Fields of record data -/

/-- What a field of record data is. -/
inductive DataField where
  | bytes (n : Nat)
  | name
  | string
  | option (code length : UInt16)
  deriving DecidableEq, Repr

/-- A field of record data with the offsets it occupies. -/
structure FieldView where
  start : Nat
  stop : Nat
  field : DataField
  deriving DecidableEq, Repr

/-- A field covers the bytes from its tag to its end. -/
instance : Span FieldView := ⟨FieldView.start, FieldView.stop⟩

/-- The field stands in the message where the view says. -/
def FieldAt (wire : List UInt8) (v : FieldView) : Prop :=
  match v.field with
  | .bytes n => v.stop = v.start + n
  | .name => ∃ labels, DecodesTo wire v.start labels v.stop
  | .string => ∃ length, wire[v.start]? = some length ∧ v.stop = v.start + 1 + length.toNat
  | .option code length =>
    wordAt wire v.start = some code ∧ wordAt wire (v.start + 2) = some length ∧
      v.stop = v.start + 4 + length.toNat

/-- Data whose layout the service does not know. -/
def UnknownLayout (fields : List DataField) : Prop := ∃ n, fields = [.bytes n]

/-- The fields that make up the data of a record of the given type and class. -/
def DataLayout (kind : RecordType) (class_ : RecordClass) (fields : List DataField) : Prop :=
  match kind with
  | .a => if class_ = .in then fields = [.bytes 4] else UnknownLayout fields
  | .aaaa => if class_ = .in then fields = [.bytes 16] else UnknownLayout fields
  | .ns | .cname | .ptr => fields = [.name]
  | .mx => fields = [.bytes 2, .name]
  | .soa => fields = [.name, .name, .bytes 20]
  | .srv => fields = [.bytes 6, .name]
  | .txt => fields ≠ [] ∧ ∀ field ∈ fields, field = .string
  | .opt => ∀ field ∈ fields, ∃ code length, field = .option code length
  | _ => UnknownLayout fields

/-! ### Questions and records -/

/-- A question with its offsets: its type and class stand at `fixedAt`. -/
structure QuestionView where
  start : Nat
  fixedAt : Nat
  question : Question
  deriving DecidableEq, Repr

/-- The position behind a question: two bytes of type and two of class after the name. -/
def QuestionView.stop (v : QuestionView) : Nat := v.fixedAt + 4

/-- A question covers the bytes of its name and of its four fixed ones. -/
instance : Span QuestionView := ⟨QuestionView.start, QuestionView.stop⟩

/-- The bytes of `wire` from `v.start` on are the question `v`. -/
structure QuestionAt (wire : List UInt8) (v : QuestionView) : Prop where
  name : DecodesTo wire v.start v.question.name.labels v.fixedAt
  kind : (wordAt wire v.fixedAt).map RecordType.fromWire = some v.question.kind
  class_ : (wordAt wire (v.fixedAt + 2)).map RecordClass.fromWire = some v.question.class_

/-- Two questions whose fixed fields are the same bytes differ in their names only. -/
theorem QuestionAt.question_eq {w w' : List UInt8} {v v' : QuestionView} (h : QuestionAt w v)
    (h' : QuestionAt w' v') (hkind : wordAt w v.fixedAt = wordAt w' v'.fixedAt)
    (hclass : wordAt w (v.fixedAt + 2) = wordAt w' (v'.fixedAt + 2)) :
    v'.question = { v.question with name := v'.question.name } := by
  have hsameKind := h'.kind
  rw [← hkind, h.kind] at hsameKind
  have hsameClass := h'.class_
  rw [← hclass, h.class_] at hsameClass
  show v'.question = ⟨v'.question.name, v.question.kind, v.question.class_⟩
  rw [Option.some.inj hsameKind, Option.some.inj hsameClass]

/-- The lengths that the data of a COOKIE option may have. -/
theorem Cookie.validLength_iff {n : Nat} :
    Cookie.validLength n = true ↔ n = 8 ∨ 16 ≤ n ∧ n ≤ 40 := by
  simp [Cookie.validLength]

/-- A record with its offsets: its type, class, TTL and RDLENGTH stand at `fixedAt`. -/
structure RecordView where
  section_ : RecordSection
  start : Nat
  fixedAt : Nat
  kind : RecordType
  classWire : UInt16
  ttl : UInt32
  length : UInt16
  fields : List FieldView
  deriving DecidableEq, Repr

namespace RecordView

/-- The position of a record's data, behind the ten fixed bytes. -/
def dataStart (v : RecordView) : Nat := v.fixedAt + 10

/-- The position behind a record. -/
def stop (v : RecordView) : Nat := v.dataStart + v.length.toNat

/-- Whether a record is the OPT record. -/
def isOpt (v : RecordView) : Bool := v.kind = .opt

/-- The OPT metadata of a record. -/
def edns (v : RecordView) : Edns := Edns.ofRecord v.classWire v.ttl

/-- The COOKIE slot a field gives, when it is a COOKIE option. -/
def fieldCookie (v : RecordView) (f : FieldView) : Option CookieField :=
  match f.field with
  | .option code length =>
    if code = cookieOption then
      if Cookie.validLength length.toNat then
        some (.present {
          lengthAt := f.start + 2
          dataAt := f.start + 4
          dataLen := length.toNat
          rdlengthAt := v.fixedAt + 8 })
      else some .malformed
    else none
  | _ => none

/-- The offsets at which the names of a record start: its owner and the names in its
data. -/
def names (v : RecordView) : List Nat :=
  v.start :: (v.fields.filter fun f => f.field = .name).map FieldView.start

/-- The first COOKIE option of a record. -/
def cookie (v : RecordView) : Option CookieField := v.fields.findSome? v.fieldCookie

end RecordView

/-- A record covers the bytes from its name to the end of its data. -/
instance : Span RecordView := ⟨RecordView.start, RecordView.stop⟩

/-- The record stands in the message where the view says. An OPT record stands in the
additional section and its owner is the root. -/
structure RecordAt (wire : List UInt8) (v : RecordView) : Prop where
  owner : ∃ labels, DecodesTo wire v.start labels v.fixedAt ∧ (v.kind = .opt → labels = [])
  kind : (wordAt wire v.fixedAt).map RecordType.fromWire = some v.kind
  classWire : wordAt wire (v.fixedAt + 2) = some v.classWire
  ttl : doubleWordAt wire (v.fixedAt + 4) = some v.ttl
  length : wordAt wire (v.fixedAt + 8) = some v.length
  inside : v.stop ≤ wire.length
  layout : DataLayout v.kind (RecordClass.fromWire v.classWire) (v.fields.map FieldView.field)
  data : Tiles (FieldAt wire) v.dataStart v.fields v.stop
  section_ : v.kind = .opt → v.section_ = .additional

/-! ### Messages -/

/-- The fixed header, word by word. -/
structure HeaderAt (wire : List UInt8) (header : Header) : Prop where
  id : wordAt wire 0 = some header.id.value
  flags : wordAt wire 2 = some header.flags
  questions : wordAt wire 4 = some header.counts.questions
  answers : wordAt wire 6 = some header.counts.answers
  authorities : wordAt wire 8 = some header.counts.authorities
  additionals : wordAt wire 10 = some header.counts.additionals

/-- The items of a message. -/
structure Derivation where
  header : Header
  questions : List QuestionView
  records : List RecordView
  deriving DecidableEq, Repr

/-- The section of each record, as the header counts lay them out. -/
def SectionCounts.sections (counts : SectionCounts) : List RecordSection :=
  List.replicate counts.answers.toNat .answer ++
    List.replicate counts.authorities.toNat .authority ++
    List.replicate counts.additionals.toNat .additional

/-- `d` is a derivation of the message `wire`. -/
structure Derives (wire : List UInt8) (d : Derivation) : Prop where
  long : headerLength ≤ wire.length
  short : wire.length ≤ maxMessageLength
  header : HeaderAt wire d.header
  single : d.header.opcode = .query → d.header.counts.questions.toNat ≤ 1
  questionCount : d.questions.length = d.header.counts.questions.toNat
  sections : d.records.map RecordView.section_ = d.header.counts.sections
  tiles : ∃ m, Tiles (QuestionAt wire) headerLength d.questions m ∧
    Tiles (RecordAt wire) m d.records wire.length
  oneOpt : (d.records.filter RecordView.isOpt).length ≤ 1

namespace Derivation

/-- The OPT record. -/
def opt (d : Derivation) : Option RecordView := d.records.find? RecordView.isOpt

/-- The decoded view of a derivation. -/
def packet (d : Derivation) (wire : List UInt8) : Packet where
  wire := wire
  header := d.header
  questions := d.questions.map QuestionView.question
  edns := d.opt.map RecordView.edns
  authenticated := d.records.any fun v => authenticates v.section_ v.kind
  cookie := d.opt.bind RecordView.cookie

/-- The offsets at which the names of a message start. -/
def names (d : Derivation) : List Nat :=
  d.questions.map QuestionView.start ++ d.records.flatMap RecordView.names

end Derivation

end Sederial.Dns
